import WidgetTree.Proofs.Dart.View
import WidgetTree.Proofs.Grammar.Subtrees

/-!
The string literals of a view. Main definitions: `Context`, a tree with one place left open, and
`readQuoted`, the value that a literal between single quotes is read as. Main statement:
`readQuoted_literal_iff`, the literal of a constant is read as the constant just when the constant
has neither a single quote nor a backslash.
-/

namespace WidgetTree.Tree

open Text (Span)

/-- A tree with one place left open. -/
inductive Context
  | here
  | single (role : Role) (name : String) (inside : Context) (span : Span)
  | many (role : Role) (name : String) (before : List Node) (inside : Context) (after : List Node)
      (span : Span)

def Context.plug (node : Node) : Context → Node
  | here => node
  | single role name inside span => .single role name (inside.plug node) span
  | many role name before inside after span =>
      .many role name (before ++ inside.plug node :: after) span

theorem Context.mem_subtrees_plug (context : Context) (node : Node) :
    node ∈ (context.plug node).subtrees := by
  induction context with
  | here => rw [plug, Node.subtrees_eq]; exact List.mem_cons_self
  | single role name inside span ih => exact List.mem_cons_of_mem _ ih
  | many role name before inside after span ih =>
      rw [plug, Node.subtrees, subtreesOf_append, subtreesOf]
      exact List.mem_cons_of_mem _ (List.mem_append_right _ (List.mem_append_left _ ih))

mutual

theorem exists_context_of_mem {node : Node} (root : Node) (member : node ∈ root.subtrees) :
    ∃ context : Context, root = context.plug node := by
  rw [Node.subtrees_eq, List.mem_cons] at member
  rcases member with rfl | below
  · exact ⟨.here, rfl⟩
  · cases root with
    | leaf leaf value span => cases below
    | single role name child span =>
        rw [Node.children, subtreesOf_singleton] at below
        obtain ⟨context, rfl⟩ := exists_context_of_mem child below
        exact ⟨.single role name context span, rfl⟩
    | many role name children span =>
        obtain ⟨before, context, after, rfl⟩ := exists_context_of_memAll children below
        exact ⟨.many role name before context after span, rfl⟩

theorem exists_context_of_memAll {node : Node} (nodes : List Node)
    (member : node ∈ subtreesOf nodes) :
    ∃ (before : List Node) (context : Context) (after : List Node),
      nodes = before ++ context.plug node :: after := by
  cases nodes with
  | nil => cases member
  | cons first rest =>
      rw [subtreesOf, List.mem_append] at member
      rcases member with inside | later
      · obtain ⟨context, same⟩ := exists_context_of_mem first inside
        exact ⟨[], context, rest, by rw [same]; rfl⟩
      · obtain ⟨before, context, after, same⟩ := exists_context_of_memAll rest later
        exact ⟨first :: before, context, after, by rw [same]; rfl⟩

end

theorem mem_subtrees_iff {node root : Node} :
    node ∈ root.subtrees ↔ ∃ context : Context, root = context.plug node := by
  constructor
  · exact exists_context_of_mem root
  · rintro ⟨context, rfl⟩
    exact context.mem_subtrees_plug node

def Document.withRoot (document : Document) (root : Node) : Document :=
  { document with view := { document.view with child := root } }

@[simp] theorem Document.root_withRoot (document : Document) (root : Node) :
    (document.withRoot root).root = root := rfl

@[simp] theorem Document.viewModelClass_withRoot (document : Document) (root : Node) :
    (document.withRoot root).viewModelClass = document.viewModelClass := rfl

end WidgetTree.Tree

namespace WidgetTree.Dart

open Grammar (Options)
open Outline (printable_of_parse)
open Text (Span)
open WidgetTree.Tree (Context Document Leaf Node)

section Reading

/-- The escape sequences of string literals: the character that one stands for, by what is behind
its backslash, and what is left behind the sequence. -/
structure Escapes where
  read : Char → List Char → Char × List Char
  shorter : ∀ c rest, (read c rest).2.length ≤ rest.length

/-- Reads the rest of a literal, up to the first single quote that does not belong to an escape
sequence: the value and what is left behind the quote. -/
def readQuoted (escapes : Escapes) : List Char → Option (List Char × List Char)
  | [] => none
  | '\x27' :: rest => some ([], rest)
  | '\\' :: c :: rest =>
      (readQuoted escapes (escapes.read c rest).2).map fun (value, behind) =>
        ((escapes.read c rest).1 :: value, behind)
  | c :: rest => (readQuoted escapes rest).map fun (value, behind) => (c :: value, behind)
termination_by text => text.length
decreasing_by
  · have shorter := escapes.shorter c rest
    simp only [List.length_cons]
    omega
  · simp

variable {escapes : Escapes} {text value behind : List Char}

theorem readQuoted_cons {c : Char} {rest : List Char} (noQuote : c ≠ '\x27')
    (noEscape : c ≠ '\\') : readQuoted escapes (c :: rest) =
      (readQuoted escapes rest).map fun (value, behind) => (c :: value, behind) := by
  rw [readQuoted]
  · exact noQuote
  · exact fun _ _ same => absurd same noEscape

theorem readQuoted_of_plain (quotes : '\x27' ∉ value) (backslashes : '\\' ∉ value) :
    readQuoted escapes (value ++ '\x27' :: behind) = some (value, behind) := by
  induction value with
  | nil => rw [List.nil_append, readQuoted]
  | cons c rest ih =>
      rw [List.mem_cons, not_or] at quotes backslashes
      rw [List.cons_append, readQuoted_cons (Ne.symm quotes.1) (Ne.symm backslashes.1),
        ih quotes.2 backslashes.2]
      rfl

theorem length_of_readQuoted (read : readQuoted escapes text = some (value, behind)) :
    value.length + 1 + behind.length ≤ text.length ∧
      (value.length + 1 + behind.length = text.length → '\x27' ∉ value ∧ '\\' ∉ value) := by
  induction text using readQuoted.induct escapes generalizing value with
  | case1 =>
      rw [readQuoted] at read
      cases read
  | case2 rest =>
      rw [readQuoted] at read
      obtain ⟨rfl, rfl⟩ := Prod.mk.inj (Option.some.inj read)
      simp [Nat.add_comm]
  | case3 c rest ih =>
      rw [readQuoted, Option.map_eq_some_iff] at read
      obtain ⟨⟨inner, remaining⟩, again, same⟩ := read
      obtain ⟨rfl, rfl⟩ := Prod.mk.inj same
      have whole := (ih again).1
      have shorter := escapes.shorter c rest
      -- Two characters at least are read as one.
      simp only [List.length_cons]
      exact ⟨by omega, fun long => by omega⟩
  | case4 c rest noQuote noEscape ih =>
      have other : c ≠ '\\' := by
        rintro rfl
        cases rest with
        | nil => simp [readQuoted] at read
        | cons c rest => exact noEscape c rest rfl rfl
      rw [readQuoted_cons noQuote other, Option.map_eq_some_iff] at read
      obtain ⟨⟨inner, remaining⟩, again, same⟩ := read
      obtain ⟨rfl, rfl⟩ := Prod.mk.inj same
      obtain ⟨whole, marks⟩ := ih again
      simp only [List.length_cons, List.mem_cons, not_or]
      refine ⟨by omega, fun long => ?_⟩
      obtain ⟨quotes, backslashes⟩ := marks (by omega)
      exact ⟨⟨Ne.symm noQuote, quotes⟩, ⟨other.symm, backslashes⟩⟩

theorem readQuoted_eq_iff : readQuoted escapes (value ++ '\x27' :: behind) = some (value, behind) ↔
    '\x27' ∉ value ∧ '\\' ∉ value := by
  constructor
  · intro read
    refine (length_of_readQuoted read).2 ?_
    rw [List.length_append, List.length_cons]
    omega
  · rintro ⟨quotes, backslashes⟩
    exact readQuoted_of_plain quotes backslashes

end Reading

section Places

variable {indent : Indent} {text : Leaf → String → Span → String}

/-- The text of a value is its expression, and what stands around it does not depend on it. -/
def Framed (text : Leaf → String → Span → String) : Prop :=
  ∃ front back, ∀ leaf value span, text leaf value span = front ++ leafExpression leaf value ++ back

theorem Framed.before (framed : Framed text) (more : String) :
    Framed fun leaf value span => more ++ text leaf value span := by
  obtain ⟨front, back, same⟩ := framed
  refine ⟨more ++ front, back, fun leaf value span => ?_⟩
  simp only [same, String.append_assoc]

theorem Framed.behind (framed : Framed text) (more : String) :
    Framed fun leaf value span => text leaf value span ++ more := by
  obtain ⟨front, back, same⟩ := framed
  refine ⟨front, back ++ more, fun leaf value span => ?_⟩
  simp only [same, String.append_assoc]

theorem Framed.itemLine (framed : Framed text) (level : Nat) :
    Framed fun leaf value span => itemLine indent level (text leaf value span) :=
  (framed.before _).behind _

theorem itemLines_append (level : Nat) (nodes more : List Node) :
    itemLines indent level (nodes ++ more) =
      itemLines indent level nodes ++ itemLines indent level more := by
  induction nodes with
  | nil => simp [itemLines]
  | cons node rest ih => rw [List.cons_append, itemLines, itemLines, ih, String.append_assoc]

theorem isValue_plug (context : Context) : ∃ isValue, ∀ leaf value span,
    (context.plug (.leaf leaf value span)).isValue = isValue := by
  cases context with
  | here => exact ⟨true, fun _ _ _ => rfl⟩
  | single role | many role => exact ⟨false, fun _ _ _ => by cases role <;> rfl⟩

theorem framed_expression (context : Context) (level : Nat) :
    Framed fun leaf value span =>
      expression indent level (context.plug (.leaf leaf value span)) := by
  induction context generalizing level with
  | here => exact ⟨"", "", fun leaf value span => by simp [Context.plug, expression]⟩
  | single role name inside outer ih =>
      cases role with
      | property => simpa only [Context.plug, expression] using (ih level).before _
      | element =>
          obtain ⟨isValue, known⟩ := isValue_plug inside
          simp only [Context.plug, expression, known]
          cases isValue with
          | true => exact ((ih level).before _).behind _
          | false => exact ((((ih (level + 1)).itemLine _).before _).behind _).behind _
  | many role name before inside after outer ih =>
      have items : Framed fun leaf value span => itemLines indent (level + 1)
          (before ++ inside.plug (.leaf leaf value span) :: after) := by
        simp only [itemLines_append, itemLines]
        exact (((ih (level + 1)).itemLine _).behind _).before _
      cases role with
      | property | element =>
          simpa only [Context.plug, expression] using ((items.before _).behind _).behind _

theorem framed_view (indent : Indent) (document : Document) {context : Context}
    (below : context ≠ .here) :
    Framed fun leaf value span =>
      view indent (document.withRoot (context.plug (.leaf leaf value span))) := by
  have root : ∃ name, ∀ node, (context.plug node).name = name ∧
      rootExpression indent (context.plug node) = expression indent 2 (context.plug node) := by
    cases context with
    | here => exact absurd rfl below
    | single role name | many role name => exact ⟨name, fun node => ⟨rfl, rfl⟩⟩
  obtain ⟨name, known⟩ := root
  unfold view
  simp only [Document.viewClass, Document.root_withRoot, Document.viewModelClass_withRoot,
    known, -String.reduceAppend]
  refine .behind (.behind (.behind (.before ?_ _) _) _) _
  exact framed_expression context 2

end Places

/-- For every string constant of a document that was read there is a place in the view at which its
literal stands: with another value only what is between the quotes would be another. The literal is
read as the constant, whatever the escape sequences mean, just when the constant has none of the
marks of a literal. -/
theorem readQuoted_literal_iff (indent : Indent) {options : Options} {text : String}
    {document : Document} {context : Context} {value : String} {span : Span}
    (read : (compile options text).outcome = .ok document)
    (holds : document.root = context.plug (.leaf (.constant .string) value span)) :
    ∃ front back, view indent document = front ++ "'" ++ value ++ "'" ++ back ∧
      (∀ other, view indent
          (document.withRoot (context.plug (.leaf (.constant .string) other span))) =
        front ++ "'" ++ other ++ "'" ++ back) ∧
      ∀ escapes, readQuoted escapes (value ++ "'" ++ back).toList =
          some (value.toList, back.toList) ↔
        '\x27' ∉ value.toList ∧ '\\' ∉ value.toList := by
  have below : context ≠ .here := by
    rintro rfl
    have shows := (printable_of_parse read).shows
    rw [holds] at shows
    cases shows
  obtain ⟨front, back, same⟩ := framed_view indent document below
  have view_eq (other : String) : view indent
      (document.withRoot (context.plug (.leaf (.constant .string) other span))) =
        front ++ "'" ++ other ++ "'" ++ back := by
    simp only [same, leafExpression, String.append_assoc]
  have itself : document.withRoot document.root = document := rfl
  refine ⟨front, back, ?_, view_eq, fun escapes => ?_⟩
  · rw [← view_eq, ← holds, itself]
  · rw [String.toList_append, String.toList_append, List.append_assoc]
    exact readQuoted_eq_iff

/-- An apostrophe between double quotes: the view has it between single quotes, where no literal
that reads as the constant ends at its closing quote. -/
theorem readQuoted_literal_iff_apostrophe :
    ∃ document front back,
      (compile {} "Stateless .viewModel: Vm, .view: Text \"it's\"").outcome = .ok document ∧
        view .tabs document = front ++ "'" ++ "it's" ++ "'" ++ back ∧
        ∀ escapes, readQuoted escapes ("it's" ++ "'" ++ back).toList ≠
          some ("it's".toList, back.toList) := by
  let context : Context := .single .element "Text" .here ⟨⟨33, 1, 33⟩, ⟨44, 1, 44⟩⟩
  let constant : Node := .leaf (.constant .string) "it's" ⟨⟨38, 1, 38⟩, ⟨44, 1, 44⟩⟩
  have tree : (compile {} "Stateless .viewModel: Vm, .view: Text \"it's\"").outcome.toOption.map
      (·.root) = some (context.plug constant) := by
    decide +kernel
  cases read : (compile {} "Stateless .viewModel: Vm, .view: Text \"it's\"").outcome with
  | error problem =>
      rw [read] at tree
      cases tree
  | ok document =>
      rw [read] at tree
      have holds : document.root = context.plug constant := Option.some.inj tree
      obtain ⟨front, back, shown, -, reading⟩ := readQuoted_literal_iff .tabs read holds
      exact ⟨document, front, back, rfl, shown, fun escapes same =>
        ((reading escapes).mp same).1 (by decide)⟩

end WidgetTree.Dart
