import WidgetTree.Grammar.Node

/-!
The readings of the node rules that succeed, as derivations. Main statements: `derives_of_node` and
its companions, what a rule reads can be derived, and `Derives.reads`, what can be derived is read.
What the rules keep is then an induction over derivations, and what they accept is shown by
building one.
-/

namespace WidgetTree.Grammar

open Lexeme (Kind Token)
open WidgetTree.Tree (Leaf Node)

variable {options : Options} {tokens rest : List Token}

def Yields {α : Type} {bound : Nat} (result : Result α bound) (value : α) (rest : List Token) :
    Prop :=
  ∃ shorter, result = .ok ⟨value, rest, shorter⟩

theorem Yields.of_eq {α : Type} {bound : Nat} {result : Result α bound} {read : Reading α bound}
    (ran : result = .ok read) : Yields result read.value read.rest :=
  ⟨read.shorter, ran⟩

theorem expect_yields_iff {kinds : List Kind} {token : Token} :
    Yields (expect kinds tokens) token rest ↔ tokens = token :: rest ∧ token.kind ∈ kinds := by
  constructor
  · intro read
    rcases read with ⟨shorter, ran⟩
    cases tokens with
    | nil => simp [expect] at ran
    | cons first others =>
        rw [expect] at ran
        split at ran
        · next member =>
            cases ran
            exact ⟨rfl, by simpa using member⟩
        · cases ran
  · intro found
    rcases found with ⟨rfl, member⟩
    exact ⟨Nat.lt_succ_self _, by rw [expect, if_pos (by simpa using member)]⟩

theorem expect_cons {kinds : List Kind} {token : Token} (rest : List Token)
    (member : token.kind ∈ kinds) : Yields (expect kinds (token :: rest)) token rest :=
  expect_yields_iff.mpr ⟨rfl, member⟩

theorem colon?_present {token : Token} (colon : token.kind = .colon) (rest : List Token) :
    colon? options (token :: rest) =
      .ok ⟨some token, rest, Nat.lt_succ_of_lt (Nat.lt_succ_self _)⟩ := by
  rw [colon?, if_pos (by simp [current, colon]), expect, if_pos (by simp [colon])]

theorem colon?_absent (absent : (current tokens).kind ≠ .colon) :
    colon? options tokens =
      if options.enforceColons then .error (unexpected "Colon" tokens)
      else .ok (.leaving none tokens) := by
  have failed : expect [.colon] tokens = .error (unexpected "Colon" tokens) := by
    cases tokens with
    | nil => rfl
    | cons token rest =>
        rw [expect, if_neg (by simpa [current] using absent)]
        rfl
  rw [colon?, failed]
  simp [absent]

theorem colon?_cases {colon : Option Token} (read : Yields (colon? options tokens) colon rest) :
    (∃ token, colon = some token ∧ token.kind = .colon ∧ tokens = token :: rest) ∨
      (colon = none ∧ tokens = rest ∧ (current tokens).kind ≠ .colon) := by
  rcases read with ⟨shorter, ran⟩
  rw [colon?] at ran
  split at ran
  · split at ran
    · cases ran
    · next taken found =>
        cases ran
        obtain ⟨front, kind⟩ := expect_yields_iff.mp (.of_eq found)
        exact .inl ⟨_, rfl, by simpa using kind, front⟩
  · next absent =>
      cases ran
      exact .inr ⟨rfl, rfl, fun present => absent (by simp [present])⟩

theorem colon?_yields_some {token : Token} (kind : token.kind = .colon) :
    Yields (colon? options (token :: rest)) (some token) rest :=
  ⟨_, colon?_present kind rest⟩

theorem headerColon?_cases {inline : List Node} {colon : Option Token}
    (read : Yields (headerColon? options inline tokens) colon rest) :
    (∃ token, colon = some token ∧ token.kind = .colon ∧ tokens = token :: rest) ∨
      (colon = none ∧ tokens = rest) := by
  rcases read with ⟨shorter, ran⟩
  rw [headerColon?] at ran
  split at ran
  · cases ran
    exact .inr ⟨rfl, rfl⟩
  · exact (colon?_cases ⟨shorter, ran⟩).imp_right fun absent => ⟨absent.1, absent.2.1⟩

theorem headerColon?_yields_some {token : Token} (kind : token.kind = .colon) :
    Yields (headerColon? options [] (token :: rest)) (some token) rest := by
  rw [headerColon?, if_neg (by simp [current, kind])]
  exact colon?_yields_some kind

/-- The first row is the second behind tokens of one kind, or behind none. -/
def Takes (kind : Kind) (tokens rest : List Token) : Prop :=
  ∃ taken, tokens = taken ++ rest ∧ ∀ token ∈ taken, token.kind = kind

theorem Takes.nothing (kind : Kind) (tokens : List Token) : Takes kind tokens tokens :=
  ⟨[], rfl, List.forall_mem_nil _⟩

theorem Takes.one {kind : Kind} {token : Token} (same : token.kind = kind) (rest : List Token) :
    Takes kind (token :: rest) rest :=
  ⟨[token], rfl, List.forall_mem_singleton.mpr same⟩

theorem Takes.suffix {kind : Kind} (takes : Takes kind tokens rest) : rest <:+ tokens := by
  rcases takes with ⟨taken, rfl, -⟩
  exact List.suffix_append taken rest

theorem skipNewLines_cons_of_eq {token : Token} (newLine : token.kind = .newLine) :
    skipNewLines (token :: rest) = skipNewLines rest :=
  List.dropWhile_cons_of_pos (by simp [newLine])

theorem skipNewLines_cons_of_ne {token : Token} (solid : token.kind ≠ .newLine) :
    skipNewLines (token :: rest) = token :: rest :=
  List.dropWhile_cons_of_neg (by simp [solid])

theorem takes_newLines (tokens : List Token) : Takes .newLine tokens (skipNewLines tokens) := by
  refine ⟨tokens.takeWhile (·.kind = .newLine), List.takeWhile_append_dropWhile.symm, ?_⟩
  intro token member
  exact of_decide_eq_true (List.all_eq_true.mp List.all_takeWhile token member)

theorem takes_comma (tokens : List Token) : Takes .comma tokens (skipComma tokens) := by
  cases tokens with
  | nil => exact .nothing _ []
  | cons token rest =>
      rw [skipComma]
      split
      · next comma => exact .one comma rest
      · exact .nothing _ _

theorem takes_indentation (tokens : List Token) :
    Takes .indentation tokens (skipIndentation tokens) := by
  cases tokens with
  | nil => exact .nothing _ []
  | cons token rest =>
      rw [skipIndentation]
      split
      · next indentation => exact .one indentation rest
      · exact .nothing _ _

theorem takes_colon {colon : Option Token} (read : Yields (colon? options tokens) colon rest) :
    Takes .colon tokens rest := by
  rcases colon?_cases read with ⟨token, -, kind, rfl⟩ | ⟨-, rfl, -⟩
  · exact .one kind rest
  · exact .nothing _ tokens

theorem takes_headerColon {inline : List Node} {colon : Option Token}
    (read : Yields (headerColon? options inline tokens) colon rest) : Takes .colon tokens rest := by
  rcases headerColon?_cases read with ⟨token, -, kind, rfl⟩ | ⟨-, rfl⟩
  · exact .one kind rest
  · exact .nothing _ tokens

def markedLeaf? : Kind → Option Leaf
  | .dollarSign => some .call
  | .ampersand => some .callback
  | _ => none

def IsHeader (name : Token) : Prop :=
  (name.kind = .identifier ∨ name.kind = .widget) ∧ constant? name = none

/-- The rules that read nodes; `content` is a node behind the indentation of its line. -/
inductive Part
  | node
  | content
  | arguments
  | block
  deriving DecidableEq

def valuesPart (tokens : List Token) : Part :=
  if (current tokens).kind = .newLine then .block else .node

/-- The rule reads the nodes from the front of the first row and leaves the second. -/
inductive Derives (options : Options) :
    Part → Nat → List Token → List Node → List Token → Prop
  | node {indent : Nat} {tokens rest : List Token} {nodes : List Node}
      (inner : Derives options .content (lineIndent indent tokens) (skipIndentation tokens)
        nodes rest) :
      Derives options .node indent tokens nodes rest
  | constant {indent : Nat} {token : Token} {rest : List Token} {kind : Tree.ConstantKind}
      (literal : constant? token = some kind) :
      Derives options .content indent (token :: rest)
        [.leaf (.constant kind) token.value token.span] rest
  | reference {indent : Nat} {mark name : Token} {rest : List Token} {leaf : Leaf}
      (marked : markedLeaf? mark.kind = some leaf) (named : name.kind = .identifier) :
      Derives options .content indent (mark :: name :: rest)
        [.leaf leaf name.value ⟨mark.span.start, name.span.stop⟩] rest
  | name {indent : Nat} {name : Token} {rest : List Token}
      (header : IsHeader name) (alone : standsAlone indent rest = true) :
      Derives options .content indent (name :: rest) [.leaf .identifier name.value name.span] rest
  | element {indent : Nat} {name : Token} {rest next after left : List Token}
      {inline below : List Node} {colon : Option Token}
      (header : IsHeader name) (parent : standsAlone indent rest = false)
      (beside : Derives options .arguments indent rest inline next)
      (ended : Yields (headerColon? options inline next) colon after)
      (under : Derives options .block indent after below left) :
      Derives options .content indent (name :: rest) [elementNode name inline colon below] left
  | property {indent : Nat} {dot name : Token} {rest next left : List Token}
      {children : List Node} {colon : Option Token} {node : Node}
      (marked : dot.kind = .dot) (named : name.kind = .identifier)
      (ended : Yields (colon? options rest) colon next)
      (held : Derives options (valuesPart next) indent next children left)
      (built : propertyNode dot name colon children = .ok node) :
      Derives options .content indent (dot :: name :: rest) [node] left
  | argumentsEnd {indent : Nat} {tokens : List Token}
      (ends : endsArguments (current tokens).kind = true) :
      Derives options .arguments indent tokens [] tokens
  | argument {indent : Nat} {tokens rest left : List Token} {nodes more : List Node}
      (goes : endsArguments (current tokens).kind = false)
      (first : Derives options .node indent tokens nodes rest)
      (others : Derives options .arguments indent (skipComma rest) more left) :
      Derives options .arguments indent tokens (nodes ++ more) left
  | blockEnd {indent : Nat} {tokens : List Token}
      (ends : opensDeeper indent (skipNewLines tokens) = false) :
      Derives options .block indent tokens [] (skipNewLines tokens)
  | line {indent : Nat} {tokens rest left : List Token} {nodes more : List Node}
      (deeper : opensDeeper indent (skipNewLines tokens) = true)
      (first : Derives options .node indent (skipNewLines tokens) nodes rest)
      (others : Derives options .block indent rest more left) :
      Derives options .block indent tokens (nodes ++ more) left

theorem reference_eq_ok {leaf : Leaf} {mark : Token} {tokens : List Token}
    {read : Reading Node tokens.length} (ran : reference leaf mark tokens = .ok read) :
    ∃ name, name.kind = .identifier ∧ tokens = name :: read.rest ∧
      read.value = .leaf leaf name.value ⟨mark.span.start, name.span.stop⟩ := by
  rw [reference] at ran
  split at ran
  · cases ran
  · next name found =>
      cases ran
      obtain ⟨front, kind⟩ := expect_yields_iff.mp (.of_eq found)
      exact ⟨name.value, by simpa using kind, front, rfl⟩

theorem derives_of_reference {options : Options} {indent : Nat} {leaf : Leaf} {mark : Token}
    {rest : List Token} {read : Reading Node rest.length}
    (marked : markedLeaf? mark.kind = some leaf) (ran : reference leaf mark rest = .ok read) :
    Derives options .content indent (mark :: rest) [read.value] read.rest := by
  obtain ⟨name, named, front, value⟩ := reference_eq_ok ran
  have whole : Derives options .content indent (mark :: name :: read.rest) _ _ :=
    .reference marked named
  rwa [← front, ← value] at whole

mutual

theorem derives_of_node (options : Options) (indent : Nat) (tokens : List Token)
    {read : Reading Node tokens.length} (ran : node options indent tokens = .ok read) :
    Derives options .node indent tokens [read.value] read.rest := by
  have := skipIndentation_length_le tokens
  rw [node] at ran
  split at ran
  · cases ran
  · next inner found =>
      cases ran
      exact .node (derives_of_content options _ _ found)
termination_by 5 * tokens.length + 2

theorem derives_of_content (options : Options) (indent : Nat) (tokens : List Token)
    {read : Reading Node tokens.length} (ran : content options indent tokens = .ok read) :
    Derives options .content indent tokens [read.value] read.rest := by
  match tokens with
  | [] =>
      rw [content] at ran
      exact derives_of_element options indent [] (by decide) ran
  | token :: rest =>
      rw [content] at ran
      split at ran
      · next kind literal =>
          cases ran
          exact .constant literal
      · next notLiteral =>
          split at ran
          · exact derives_of_property options indent (token :: rest) ran
          · next dollar =>
              split at ran
              · cases ran
              · next inner found =>
                  cases ran
                  exact derives_of_reference (by rw [dollar]; rfl) found
          · next ampersand =>
              split at ran
              · cases ran
              · next inner found =>
                  cases ran
                  exact derives_of_reference (by rw [ampersand]; rfl) found
          · exact derives_of_element options indent (token :: rest) notLiteral ran
termination_by 5 * tokens.length + 1

theorem derives_of_element (options : Options) (indent : Nat) (tokens : List Token)
    (notLiteral : constant? (current tokens) = none) {read : Reading Node tokens.length}
    (ran : element options indent tokens = .ok read) :
    Derives options .content indent tokens [read.value] read.rest := by
  rw [element] at ran
  split at ran
  · cases ran
  · next name found =>
      have := name.shorter
      obtain ⟨front, kind⟩ := expect_yields_iff.mp (.of_eq found)
      have header : IsHeader name.value :=
        ⟨by simpa using kind, by rw [front] at notLiteral; exact notLiteral⟩
      split at ran
      · next alone =>
          cases ran
          have whole : Derives options .content indent (_ :: _) _ _ := .name header alone
          rwa [← front] at whole
      · next parent =>
          split at ran
          · cases ran
          · next inline besideRan =>
              have := inline.shorter
              split at ran
              · cases ran
              · next colon colonRan =>
                  have := colon.shorter
                  split at ran
                  · cases ran
                  · next below underRan =>
                      cases ran
                      have beside := derives_of_arguments options indent name.rest besideRan
                      have under := derives_of_block options indent colon.rest underRan
                      have whole : Derives options .content indent (_ :: _) _ _ :=
                        .element header (by simpa using parent) beside (.of_eq colonRan) under
                      rwa [← front] at whole
termination_by 5 * tokens.length + 0

theorem derives_of_property (options : Options) (indent : Nat) (tokens : List Token)
    {read : Reading Node tokens.length} (ran : property options indent tokens = .ok read) :
    Derives options .content indent tokens [read.value] read.rest := by
  rw [property] at ran
  split at ran
  · cases ran
  · next dot dotRan =>
      have := dot.shorter
      obtain ⟨front, marked⟩ := expect_yields_iff.mp (.of_eq dotRan)
      split at ran
      · cases ran
      · next name nameRan =>
          have := name.shorter
          obtain ⟨second, named⟩ := expect_yields_iff.mp (.of_eq nameRan)
          split at ran
          · cases ran
          · next colon colonRan =>
              have := colon.shorter
              split at ran
              · cases ran
              · next children valuesRan =>
                  split at ran
                  · cases ran
                  · next node built =>
                      cases ran
                      have held := derives_of_values options indent colon.rest valuesRan
                      have whole : Derives options .content indent (_ :: _ :: _) _ _ :=
                        .property (by simpa using marked) (by simpa using named)
                          (.of_eq colonRan) held built
                      rwa [← second, ← front] at whole
termination_by 5 * tokens.length + 0

theorem derives_of_values (options : Options) (indent : Nat) (tokens : List Token)
    {read : Reading (List Node) (tokens.length + 1)}
    (ran : values options indent tokens = .ok read) :
    Derives options (valuesPart tokens) indent tokens read.value read.rest := by
  rw [values] at ran
  split at ran
  · next newLine =>
      rw [valuesPart, if_pos newLine]
      exact derives_of_block options indent tokens ran
  · next sameLine =>
      rw [valuesPart, if_neg sameLine]
      split at ran
      · cases ran
      · next child found =>
          cases ran
          exact derives_of_node options indent tokens found
termination_by 5 * tokens.length + 4

theorem derives_of_arguments (options : Options) (indent : Nat) (tokens : List Token)
    {read : Reading (List Node) (tokens.length + 1)}
    (ran : arguments options indent tokens = .ok read) :
    Derives options .arguments indent tokens read.value read.rest := by
  rw [arguments] at ran
  split at ran
  · next ends =>
      cases ran
      exact .argumentsEnd ends
  · next goes =>
      split at ran
      · cases ran
      · next child childRan =>
          have := child.shorter
          have := skipComma_length_le child.rest
          split at ran
          · cases ran
          · next more moreRan =>
              cases ran
              exact .argument (by simpa using goes) (derives_of_node options indent tokens childRan)
                (derives_of_arguments options indent _ moreRan)
termination_by 5 * tokens.length + 3

theorem derives_of_block (options : Options) (indent : Nat) (tokens : List Token)
    {read : Reading (List Node) (tokens.length + 1)}
    (ran : block options indent tokens = .ok read) :
    Derives options .block indent tokens read.value read.rest := by
  have := skipNewLines_length_le tokens
  rw [block] at ran
  split at ran
  · next deeper =>
      split at ran
      · cases ran
      · next child childRan =>
          have := child.shorter
          split at ran
          · cases ran
          · next more moreRan =>
              cases ran
              exact .line deeper (derives_of_node options indent _ childRan)
                (derives_of_block options indent _ moreRan)
  · next ends =>
      cases ran
      exact .blockEnd (by simpa using ends)
termination_by 5 * tokens.length + 3

end

def Part.Reads (options : Options) (indent : Nat) (tokens : List Token) (nodes : List Node)
    (rest : List Token) : Part → Prop
  | .node => ∃ child, nodes = [child] ∧ Yields (Grammar.node options indent tokens) child rest
  | .content => ∃ child, nodes = [child] ∧ Yields (Grammar.content options indent tokens) child rest
  | .arguments => Yields (Grammar.arguments options indent tokens) nodes rest
  | .block => Yields (Grammar.block options indent tokens) nodes rest

theorem reference_yields (leaf : Leaf) (mark : Token) {name : Token} (rest : List Token)
    (named : name.kind = .identifier) :
    Yields (reference leaf mark (name :: rest))
      (.leaf leaf name.value ⟨mark.span.start, name.span.stop⟩) rest := by
  obtain ⟨shorter, ran⟩ := expect_cons rest (List.mem_singleton.mpr named)
  exact ⟨shorter, by rw [reference, ran]⟩

theorem content_of_reference {indent : Nat} {leaf : Leaf} {mark name : Token}
    (marked : markedLeaf? mark.kind = some leaf) (named : name.kind = .identifier) :
    Yields (content options indent (mark :: name :: rest))
      (.leaf leaf name.value ⟨mark.span.start, name.span.stop⟩) rest := by
  obtain ⟨shorter, ran⟩ := reference_yields leaf mark rest named
  refine ⟨Nat.lt_succ_of_lt shorter, ?_⟩
  rw [content]
  cases kind : mark.kind <;> simp_all [markedLeaf?, constant?]

theorem IsHeader.expected {name : Token} (header : IsHeader name) (rest : List Token) :
    Yields (expect [.identifier, .widget] (name :: rest)) name rest :=
  expect_cons rest (by simpa using header.1)

theorem content_of_header {indent : Nat} {name : Token} (header : IsHeader name) :
    content options indent (name :: rest) = element options indent (name :: rest) := by
  rcases header with ⟨kind, notLiteral⟩
  rw [content, notLiteral]
  rcases kind with kind | kind <;> simp only [kind]

theorem content_of_dot {indent : Nat} {dot : Token} (marked : dot.kind = .dot) :
    content options indent (dot :: rest) = property options indent (dot :: rest) := by
  have notLiteral : constant? dot = none := by rw [constant?, marked]
  rw [content, notLiteral]
  simp only [marked]

theorem element_alone {indent : Nat} {name : Token} (header : IsHeader name)
    (alone : standsAlone indent rest = true) :
    Yields (element options indent (name :: rest)) (.leaf .identifier name.value name.span)
      rest := by
  obtain ⟨shorter, ran⟩ := header.expected rest
  refine ⟨shorter, ?_⟩
  rw [element, ran]
  simp only [alone, if_true]

theorem element_parent {indent : Nat} {name : Token} {next after left : List Token}
    {inline below : List Node} {colon : Option Token} (header : IsHeader name)
    (parent : standsAlone indent rest = false)
    (beside : Yields (arguments options indent rest) inline next)
    (ended : Yields (headerColon? options inline next) colon after)
    (under : Yields (block options indent after) below left) :
    Yields (element options indent (name :: rest)) (elementNode name inline colon below) left := by
  obtain ⟨nameShorter, nameRan⟩ := header.expected rest
  rcases beside with ⟨besideShorter, besideRan⟩
  rcases ended with ⟨endedShorter, endedRan⟩
  rcases under with ⟨underShorter, underRan⟩
  refine ⟨by omega, ?_⟩
  rw [element, nameRan]
  simp only [parent, Bool.false_eq_true, if_false, besideRan, endedRan, underRan]

theorem property_built {indent : Nat} {dot name : Token} {next left : List Token}
    {children : List Node} {colon : Option Token} {node : Node} (marked : dot.kind = .dot)
    (named : name.kind = .identifier) (ended : Yields (colon? options rest) colon next)
    (held : Yields (values options indent next) children left)
    (built : propertyNode dot name colon children = .ok node) :
    Yields (content options indent (dot :: name :: rest)) node left := by
  obtain ⟨dotShorter, dotRan⟩ := expect_cons (name :: rest) (List.mem_singleton.mpr marked)
  obtain ⟨nameShorter, nameRan⟩ := expect_cons rest (List.mem_singleton.mpr named)
  rcases ended with ⟨endedShorter, endedRan⟩
  rcases held with ⟨heldShorter, heldRan⟩
  refine ⟨by simp only [List.length_cons]; omega, ?_⟩
  rw [content_of_dot marked, property, dotRan]
  simp only [nameRan, endedRan, heldRan, built]

/-- What can be derived is what the rule reads. -/
theorem Derives.reads {part : Part} {indent : Nat} {nodes : List Node}
    (derives : Derives options part indent tokens nodes rest) :
    part.Reads options indent tokens nodes rest := by
  induction derives with
  | node inner ih =>
      rcases ih with ⟨child, rfl, shorter, ran⟩
      exact ⟨child, rfl, Nat.lt_of_lt_of_le shorter (skipIndentation_length_le _),
        by rw [Grammar.node, ran]⟩
  | constant literal => exact ⟨_, rfl, Nat.lt_succ_self _, by rw [content, literal]⟩
  | reference marked named => exact ⟨_, rfl, content_of_reference marked named⟩
  | name header alone => exact ⟨_, rfl, content_of_header header ▸ element_alone header alone⟩
  | element header parent beside ended under besideIh underIh =>
      exact ⟨_, rfl, content_of_header header ▸ element_parent header parent besideIh ended underIh⟩
  | @property indent dot name rest next left children colon node marked named ended held built ih =>
      refine ⟨_, rfl, property_built marked named ended ?_ built⟩
      by_cases newLine : (current next).kind = .newLine
      · rw [valuesPart, if_pos newLine] at ih
        rwa [values, if_pos newLine]
      · rw [valuesPart, if_neg newLine] at ih
        rcases ih with ⟨child, rfl, shorter, ran⟩
        exact ⟨Nat.lt_succ_of_lt shorter, by rw [values, if_neg newLine, ran]⟩
  | argumentsEnd ends => exact ⟨Nat.lt_succ_self _, by rw [arguments, if_pos ends]; rfl⟩
  | argument goes first others firstIh othersIh =>
      rcases firstIh with ⟨child, rfl, shorter, ran⟩
      rcases othersIh with ⟨moreShorter, moreRan⟩
      have passed := Nat.lt_of_lt_of_le moreShorter (Nat.succ_le_succ (skipComma_length_le _))
      refine ⟨by omega, ?_⟩
      rw [arguments, if_neg (by simp [goes]), ran]
      simp only [moreRan]
      rfl
  | blockEnd ends =>
      exact ⟨Nat.lt_succ_of_le (skipNewLines_length_le _),
        by rw [block, if_neg (by simp [ends])]⟩
  | line deeper first others firstIh othersIh =>
      rcases firstIh with ⟨child, rfl, shorter, ran⟩
      rcases othersIh with ⟨moreShorter, moreRan⟩
      have passed := Nat.lt_of_lt_of_le shorter (skipNewLines_length_le _)
      refine ⟨by omega, ?_⟩
      rw [block, if_pos deeper, ran]
      simp only [moreRan]
      rfl

end WidgetTree.Grammar
