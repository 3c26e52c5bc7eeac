import WidgetTree.Grammar.Reading
import WidgetTree.Tree.Node

/-!
The rules for nodes. A node's children stand behind its header on the same line, or on the lines
below that are indented deeper than the line of the header. Every rule takes the least indentation
that a line below must exceed, and reads from the front of a row of tokens.
-/

namespace WidgetTree.Grammar

open Lexeme (Kind Token)
open WidgetTree.Tree (ConstantKind Leaf Node)

def constant? (token : Token) : Option ConstantKind :=
  match token.kind with
  | .boolean => some .boolean
  | .string => some .string
  | .integer => some .integer
  | .float => some .float
  | .identifier => if token.value = "null" then some .null else none
  | _ => none

/-- Whether a line begins here that is indented by more than `indent`. -/
def opensDeeper (indent : Nat) (tokens : List Token) : Bool :=
  (current tokens).kind = .indentation && indent < (current tokens).span.length

/-- Whether a name is all there is of an element, going by the tokens behind it. -/
def standsAlone (indent : Nat) (tokens : List Token) : Bool :=
  match (current tokens).kind with
  | .comma | .endOfFile => true
  | .newLine => !opensDeeper indent (skipNewLines tokens)
  | _ => false

def endsArguments : Kind → Bool
  | .colon | .indentation | .newLine | .endOfFile => true
  | _ => false

/-- A header whose last child on its line is a value needs no colon. -/
def headerColon? (options : Options) (inline : List Node) (tokens : List Token) :
    Result (Option Token) (tokens.length + 1) :=
  if (current tokens).kind = .endOfFile || (current tokens).kind = .indentation ||
      inline.getLast?.any Node.isValue then .ok (.leaving none tokens)
  else colon? options tokens

def headerStop (name : Token) (inline : List Node) (colon : Option Token) : Text.Location :=
  match colon, inline.getLast? with
  | some colon, _ => colon.span.stop
  | none, some last => last.span.stop
  | none, none => name.span.stop

/-- An element reaches to the end of its header or of its last child, whichever is further on. -/
def elementNode (name : Token) (inline : List Node) (colon : Option Token) (below : List Node) :
    Node :=
  let children := inline ++ below
  let header := headerStop name inline colon
  let stop := match children.getLast? with
    | some last => if header.index < last.span.stop.index then last.span.stop else header
    | none => header
  .element name.value ⟨name.span.start, stop⟩ children

def propertyNode (dot name : Token) (colon : Option Token) (children : List Node) :
    Except Problem Node :=
  let stop := match children.getLast? with
    | some last => last.span.stop
    | none => (colon.getD name).span.stop
  let span := ⟨dot.span.start, stop⟩
  match Node.property? name.value span children with
  | some node => .ok node
  | none => .error ⟨.emptyProperty name.value, span⟩

def reference (leaf : Leaf) (mark : Token) (tokens : List Token) : Result Node tokens.length :=
  match expect [.identifier] tokens with
  | .error problem => .error problem
  | .ok name =>
      .ok ⟨.leaf leaf name.value.value ⟨mark.span.start, name.value.span.stop⟩, name.rest,
        name.shorter⟩

/-- The indentation of the line that a node begins, or the one around it. -/
def lineIndent (indent : Nat) (tokens : List Token) : Nat :=
  if (current tokens).kind = .indentation then (current tokens).span.length else indent

def skipIndentation (tokens : List Token) : List Token :=
  if (current tokens).kind = .indentation then tokens.tail else tokens

theorem skipIndentation_length_le (tokens : List Token) :
    (skipIndentation tokens).length ≤ tokens.length := by
  unfold skipIndentation
  split <;> simp

mutual

def node (options : Options) (indent : Nat) (tokens : List Token) : Result Node tokens.length :=
  match content options (lineIndent indent tokens) (skipIndentation tokens) with
  | .error problem => .error problem
  | .ok read =>
      .ok ⟨read.value, read.rest,
        Nat.lt_of_lt_of_le read.shorter (skipIndentation_length_le tokens)⟩
termination_by 5 * tokens.length + 2
decreasing_by
  have := skipIndentation_length_le tokens
  omega

def content (options : Options) (indent : Nat) (tokens : List Token) :
    Result Node tokens.length :=
  match tokens with
  | [] => element options indent []
  | token :: rest =>
      match constant? token with
      | some kind => .ok ⟨.leaf (.constant kind) token.value token.span, rest, Nat.lt_succ_self _⟩
      | none =>
          match token.kind with
          | .dot => property options indent (token :: rest)
          | .dollarSign =>
              match reference .call token rest with
              | .error problem => .error problem
              | .ok read => .ok ⟨read.value, read.rest, Nat.lt_succ_of_lt read.shorter⟩
          | .ampersand =>
              match reference .callback token rest with
              | .error problem => .error problem
              | .ok read => .ok ⟨read.value, read.rest, Nat.lt_succ_of_lt read.shorter⟩
          | _ => element options indent (token :: rest)
termination_by 5 * tokens.length + 1

def element (options : Options) (indent : Nat) (tokens : List Token) :
    Result Node tokens.length :=
  match expect [.identifier, .widget] tokens with
  | .error problem => .error problem
  | .ok name =>
      if standsAlone indent name.rest then
        .ok ⟨.leaf .identifier name.value.value name.value.span, name.rest, name.shorter⟩
      else
        match arguments options indent name.rest with
        | .error problem => .error problem
        | .ok inline =>
            match headerColon? options inline.value inline.rest with
            | .error problem => .error problem
            | .ok colon =>
                match block options indent colon.rest with
                | .error problem => .error problem
                | .ok below =>
                    .ok ⟨elementNode name.value inline.value colon.value below.value, below.rest,
                      by have := name.shorter; have := inline.shorter; have := colon.shorter
                         have := below.shorter; omega⟩
termination_by 5 * tokens.length + 0
decreasing_by
  · have := name.shorter
    omega
  · have := name.shorter
    have := inline.shorter
    have := colon.shorter
    omega

def property (options : Options) (indent : Nat) (tokens : List Token) :
    Result Node tokens.length :=
  match expect [.dot] tokens with
  | .error problem => .error problem
  | .ok dot =>
      match expect [.identifier] dot.rest with
      | .error problem => .error problem
      | .ok name =>
          match colon? options name.rest with
          | .error problem => .error problem
          | .ok colon =>
              match values options indent colon.rest with
              | .error problem => .error problem
              | .ok children =>
                  match propertyNode dot.value name.value colon.value children.value with
                  | .error problem => .error problem
                  | .ok node =>
                      .ok ⟨node, children.rest,
                        by have := dot.shorter; have := name.shorter; have := colon.shorter
                           have := children.shorter; omega⟩
termination_by 5 * tokens.length + 0
decreasing_by
  have := dot.shorter
  have := name.shorter
  have := colon.shorter
  omega

/-- One node on the property's own line, or the nodes on the lines below. -/
def values (options : Options) (indent : Nat) (tokens : List Token) :
    Result (List Node) (tokens.length + 1) :=
  if (current tokens).kind = .newLine then block options indent tokens
  else
    match node options indent tokens with
    | .error problem => .error problem
    | .ok child => .ok ⟨[child.value], child.rest, Nat.lt_succ_of_lt child.shorter⟩
termination_by 5 * tokens.length + 4

def arguments (options : Options) (indent : Nat) (tokens : List Token) :
    Result (List Node) (tokens.length + 1) :=
  if endsArguments (current tokens).kind then .ok (.leaving [] tokens)
  else
    match node options indent tokens with
    | .error problem => .error problem
    | .ok child =>
        match arguments options indent (skipComma child.rest) with
        | .error problem => .error problem
        | .ok more =>
            .ok ⟨child.value :: more.value, more.rest,
              by have := child.shorter; have := skipComma_length_le child.rest
                 have := more.shorter; omega⟩
termination_by 5 * tokens.length + 3
decreasing_by
  · omega
  · have := child.shorter
    have := skipComma_length_le child.rest
    omega

def block (options : Options) (indent : Nat) (tokens : List Token) :
    Result (List Node) (tokens.length + 1) :=
  if opensDeeper indent (skipNewLines tokens) then
    match node options indent (skipNewLines tokens) with
    | .error problem => .error problem
    | .ok child =>
        match block options indent child.rest with
        | .error problem => .error problem
        | .ok more =>
            .ok ⟨child.value :: more.value, more.rest,
              by have := child.shorter; have := skipNewLines_length_le tokens
                 have := more.shorter; omega⟩
  else .ok ⟨[], skipNewLines tokens, Nat.lt_succ_of_le (skipNewLines_length_le tokens)⟩
termination_by 5 * tokens.length + 3
decreasing_by
  · have := skipNewLines_length_le tokens
    omega
  · have := child.shorter
    have := skipNewLines_length_le tokens
    omega

end

end WidgetTree.Grammar
