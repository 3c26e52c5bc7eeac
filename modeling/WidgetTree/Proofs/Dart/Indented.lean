import WidgetTree.Proofs.Dart.Layout

/-!
How deep the lines of a tree are indented. Main definitions: `brackets`, the pairs of brackets of a
tree that have lines between them, and `Indented`, each line is as deep as it stands between such
brackets. Main statement: `files_reindented`, the indentation of a file is all that depends on the
options, and in the view it follows the brackets of the tree.
-/

namespace WidgetTree.Dart

open Grammar (Options)
open Outline (printable_of_parse)
open WidgetTree.Tree (Document Node Regular Role)

/-- A pair of brackets on different lines: the row that ends with the first one and the row that the
second one begins. -/
structure Bracket where
  role : Role
  opened : Nat
  closed : Nat
  deriving DecidableEq, Repr

def openingMark : Role → Char
  | .element => '('
  | .property => '['

/-- How many brackets are opened above the row and not closed above it or where it begins. -/
def enclosing (brackets : List Bracket) (row : Nat) : Nat :=
  brackets.countP fun bracket => bracket.opened < row && row < bracket.closed

mutual

def height : Node → Nat
  | .leaf .. => 1
  | .single role _ child _ =>
      if role = .property || child.isValue then height child else height child + 2
  | .many _ _ children _ => heightAll children + 2

def heightAll : List Node → Nat
  | [] => 0
  | node :: more => height node + heightAll more

end

mutual

def brackets (row : Nat) : Node → List Bracket
  | .leaf .. => []
  | .single role _ child _ =>
      if role = .property || child.isValue then brackets row child
      else ⟨role, row, row + 1 + height child⟩ :: brackets (row + 1) child
  | .many role _ children _ =>
      ⟨role, row, row + 1 + heightAll children⟩ :: bracketsAll (row + 1) children

def bracketsAll (row : Nat) : List Node → List Bracket
  | [] => []
  | node :: more => brackets row node ++ bracketsAll (row + height node) more

end

/-- Rows of a view are two levels deep, and one more for each pair of brackets that they stand
between. The brackets stand where the tree has them. -/
structure Indented (rows : List (List Char)) (brackets : List Bracket) : Prop where
  tabs : ∀ row line, rows[row]? = some line →
    (line.takeWhile (· = '\t')).length = 2 + enclosing brackets row
  opens : ∀ bracket ∈ brackets, ∃ line, rows[bracket.opened]? = some line ∧
    line.getLast? = some (openingMark bracket.role)
  closes : ∀ bracket ∈ brackets, ∃ line, rows[bracket.closed]? = some line ∧
    (line.dropWhile (· = '\t')).head? = some (listClosing bracket.role)
  ordered : ∀ bracket ∈ brackets, bracket.opened < bracket.closed

structure Bracket.Among (bracket : Bracket) (row : Nat) (lines : List Line) : Prop where
  begins : row ≤ bracket.opened
  ordered : bracket.opened < bracket.closed
  ends : bracket.closed < row + lines.length
  opens : ∃ line, lines[bracket.opened - row]? = some line ∧
    line.text.getLast? = some (openingMark bracket.role)
  closes : ∃ line, lines[bracket.closed - row]? = some line ∧
    line.text.head? = some (listClosing bracket.role)

/-- Lines that begin on a row are as deep as the brackets among them say. -/
structure Nested (depth row : Nat) (lines : List Line) (brackets : List Bracket) : Prop where
  among : ∀ bracket ∈ brackets, bracket.Among row lines
  deep : ∀ place line, lines[place]? = some line →
    line.depth = depth + enclosing brackets (row + place)

section Enclosing

variable {bracket : Bracket} {inner outer : List Bracket} {row : Nat}

theorem enclosing_append (inner outer : List Bracket) (row : Nat) :
    enclosing (inner ++ outer) row = enclosing inner row + enclosing outer row :=
  List.countP_append

theorem enclosing_eq_zero
    (outside : ∀ bracket ∈ inner, row ≤ bracket.opened ∨ bracket.closed ≤ row) :
    enclosing inner row = 0 := by
  refine List.countP_eq_zero.mpr fun bracket member => ?_
  have := outside bracket member
  simp only [Bool.and_eq_true, decide_eq_true_eq]
  omega

theorem enclosing_cons_inside (opened : bracket.opened < row) (going : row < bracket.closed) :
    enclosing (bracket :: inner) row = enclosing inner row + 1 :=
  List.countP_cons_of_pos (by simp [opened, going])

theorem enclosing_cons_outside (outside : row ≤ bracket.opened ∨ bracket.closed ≤ row) :
    enclosing (bracket :: inner) row = enclosing inner row := by
  refine List.countP_cons_of_neg ?_
  simp only [Bool.and_eq_true, decide_eq_true_eq]
  omega

end Enclosing

section Nesting

variable {depth row : Nat} {lines more : List Line} {inner outer : List Bracket}
  {bracket : Bracket} {line last : Line} {role : Role}

theorem Bracket.Among.append_left (among : bracket.Among row lines) (more : List Line) :
    bracket.Among row (lines ++ more) where
  begins := among.begins
  ordered := among.ordered
  ends := by
    have := among.ends
    rw [List.length_append]
    omega
  opens := by
    have := among.begins
    have := among.ordered
    have := among.ends
    rw [List.getElem?_append_left (by omega)]
    exact among.opens
  closes := by
    have := among.begins
    have := among.ordered
    have := among.ends
    rw [List.getElem?_append_left (by omega)]
    exact among.closes

theorem Bracket.Among.append_right (lines : List Line)
    (among : bracket.Among (row + lines.length) more) : bracket.Among row (lines ++ more) where
  begins := (Nat.le_add_right ..).trans among.begins
  ordered := among.ordered
  ends := by
    have := among.ends
    rw [List.length_append]
    omega
  opens := by
    have := among.begins
    rw [List.getElem?_append_right (by omega), Nat.sub_sub]
    exact among.opens
  closes := by
    have := among.begins
    have := among.ordered
    rw [List.getElem?_append_right (by omega), Nat.sub_sub]
    exact among.closes

namespace Nested

theorem nil (depth row : Nat) : Nested depth row [] [] := ⟨nofun, nofun⟩

theorem single (depth row : Nat) (text : List Char) : Nested depth row [⟨depth, text⟩] [] := by
  refine ⟨nofun, fun place line found => ?_⟩
  obtain rfl := List.mem_singleton.mp (List.mem_of_getElem? found)
  rfl

theorem enclosing_outside (nested : Nested depth row lines inner) {place : Nat}
    (outside : place ≤ row ∨ row + lines.length ≤ place + 1) : enclosing inner place = 0 := by
  refine enclosing_eq_zero fun bracket member => ?_
  have among := nested.among bracket member
  have := among.begins
  have := among.ends
  omega

theorem append (first : Nested depth row lines inner)
    (second : Nested depth (row + lines.length) more outer) :
    Nested depth row (lines ++ more) (inner ++ outer) where
  among := by
    rw [List.forall_mem_append]
    exact ⟨fun bracket member => (first.among bracket member).append_left more,
      fun bracket member => (second.among bracket member).append_right lines⟩
  deep place line found := by
    rw [enclosing_append]
    by_cases inside : place < lines.length
    · rw [List.getElem?_append_left inside] at found
      rw [second.enclosing_outside (by omega), Nat.add_zero, first.deep place line found]
    · rw [List.getElem?_append_right (Nat.not_lt.mp inside)] at found
      have same : row + lines.length + (place - lines.length) = row + place := by omega
      rw [first.enclosing_outside (by omega), Nat.zero_add, second.deep _ line found, same]

theorem bracketed {front back : List Char}
    (opens : (front ++ listOpening role).getLast? = some (openingMark role))
    (nested : Nested (depth + 1) (row + 1) lines inner) :
    Nested depth row (bracketed role depth front back lines)
      (⟨role, row, row + 1 + lines.length⟩ :: inner) where
  among := by
    rw [List.forall_mem_cons]
    constructor
    · have last : row + 1 + lines.length - row = lines.length + 1 := by omega
      refine ⟨Nat.le_refl row, ?_, ?_, ⟨⟨depth, front ++ listOpening role⟩, ?_, opens⟩,
        ⟨⟨depth, listClosing role :: back⟩, ?_, rfl⟩⟩
      · dsimp only
        omega
      · simp only [Dart.bracketed, List.length_cons, List.length_append, List.length_nil]
        omega
      · rw [Nat.sub_self]
        rfl
      · rw [last, Dart.bracketed, List.getElem?_cons_succ,
          List.getElem?_append_right (Nat.le_refl _), Nat.sub_self]
        rfl
    · intro bracket member
      have among := (nested.among bracket member).append_left [⟨depth, listClosing role :: back⟩]
      exact among.append_right [⟨depth, front ++ listOpening role⟩]
  deep place line found := by
    rw [Dart.bracketed] at found
    cases place with
    | zero =>
        cases found
        rw [Nat.add_zero, enclosing_cons_outside (.inl (Nat.le_refl row)),
          nested.enclosing_outside (by omega)]
        rfl
    | succ place =>
        rw [List.getElem?_cons_succ] at found
        have here : row + (place + 1) = row + 1 + place := by omega
        rw [here]
        by_cases inside : place < lines.length
        · rw [List.getElem?_append_left inside] at found
          rw [enclosing_cons_inside (by dsimp only; omega) (by dsimp only; omega),
            nested.deep place line found]
          omega
        · rw [List.getElem?_append_right (Nat.not_lt.mp inside)] at found
          obtain rfl := List.mem_singleton.mp (List.mem_of_getElem? found)
          rw [enclosing_cons_outside (.inr (by dsimp only; omega)),
            nested.enclosing_outside (by omega)]
          rfl

end Nested

end Nesting

section Trees

variable {depth row : Nat} {front back : List Char} {role : Role} {name : String}
  {span : Text.Span} {node child : Node} {children nodes : List Node}

theorem height_beside (found : beside? role children = some child) :
    height (.parent role name span children) = height child := by
  obtain ⟨rfl, inline⟩ := inline_of_beside? found
  exact if_pos inline

theorem height_below (none : beside? role children = none) :
    height (.parent role name span children) = heightAll children + 2 := by
  match children with
  | [] | _ :: _ :: _ => rfl
  | [only] => exact if_neg (not_inline_of_beside? none)

theorem brackets_beside (found : beside? role children = some child) :
    brackets row (.parent role name span children) = brackets row child := by
  obtain ⟨rfl, inline⟩ := inline_of_beside? found
  exact if_pos inline

theorem brackets_below (none : beside? role children = none) :
    brackets row (.parent role name span children) =
      ⟨role, row, row + 1 + heightAll children⟩ :: bracketsAll (row + 1) children := by
  match children with
  | [] | _ :: _ :: _ => rfl
  | [only] =>
      rw [Node.parent, brackets, if_neg (not_inline_of_beside? none), bracketsAll, bracketsAll,
        List.append_nil]
      rfl

theorem length_layoutAll
    (each : ∀ node ∈ nodes, (layout depth [] [','] node).length = height node) :
    (layoutAll depth nodes).length = heightAll nodes := by
  induction nodes with
  | nil => rfl
  | cons node more ih =>
      rw [List.forall_mem_cons] at each
      rw [layoutAll, List.length_append, each.1, ih each.2, heightAll]

theorem length_layout (regular : Regular node) (depth : Nat) (front back : List Char) :
    (layout depth front back node).length = height node := by
  induction regular generalizing depth front back with
  | leaf leaf value span => rfl
  | @parent role name span children some all ih =>
      cases found : beside? role children with
      | some child =>
          have member := mem_of_beside? found
          rw [layout_beside found, height_beside found]
          exact ih child member depth _ _
      | none =>
          have items := length_layoutAll fun child member => ih child member (depth + 1) [] [',']
          rw [layout_below found, height_below found, bracketed, List.length_cons,
            List.length_append, items]
          rfl

theorem nested_layoutAll (regular : ∀ node ∈ nodes, Regular node)
    (each : ∀ node ∈ nodes, ∀ row,
      Nested depth row (layout depth [] [','] node) (brackets row node))
    (row : Nat) : Nested depth row (layoutAll depth nodes) (bracketsAll row nodes) := by
  induction nodes generalizing row with
  | nil => exact .nil depth row
  | cons node more ih =>
      rw [List.forall_mem_cons] at regular each
      have behind := ih regular.2 each.2 (row + height node)
      rw [← length_layout regular.1 depth [] [',']] at behind
      rw [layoutAll, bracketsAll, ← length_layout regular.1 depth [] [',']]
      exact (each.1 row).append behind

theorem getLast?_opening (front : List Char) (role : Role) (name : String) :
    (front ++ (name.toList ++ opening role) ++ listOpening role).getLast? =
      some (openingMark role) := by
  cases role <;> simp [opening, listOpening, openingMark]

/-- Every line of an expression is as deep as the brackets of the expression say. -/
theorem nested_layout (regular : Regular node) (depth row : Nat) (front back : List Char) :
    Nested depth row (layout depth front back node) (brackets row node) := by
  induction regular generalizing depth row front back with
  | leaf leaf value span => exact .single depth row _
  | @parent role name span children some all ih =>
      cases found : beside? role children with
      | some child =>
          have member := mem_of_beside? found
          rw [layout_beside found, brackets_beside found]
          exact ih child member depth row _ _
      | none =>
          have inner := nested_layoutAll all
            (fun child member row => ih child member (depth + 1) row [] [',']) (row + 1)
          have length := length_layoutAll fun child member =>
            length_layout (all child member) (depth + 1) [] [',']
          rw [layout_below found, brackets_below found, ← length]
          exact inner.bracketed (getLast?_opening front role name)

theorem nested_rootLines (regular : Regular node) :
    Nested 2 0 (rootLines node) (brackets 0 node) := by
  have whole := nested_layout regular 2 0 "return ".toList [';']
  cases regular with
  | leaf leaf value span =>
      cases leaf with
      | identifier => exact .single 2 0 _
      | call | callback | constant => exact whole
  | parent role name span some all =>
      rw [rootLines_parent]
      exact whole

end Trees

theorem Nested.indented {lines : List Line} {pairs : List Bracket} (nested : Nested 2 0 lines pairs)
    (plain : ∀ line ∈ lines, Plain line.text) :
    Indented (lines.map (Line.drawn .tabs)) pairs where
  tabs row line found := by
    rw [List.getElem?_map] at found
    obtain ⟨line, here, rfl⟩ := Option.map_eq_some_iff.mp found
    rw [takeWhile_drawn (plain line (List.mem_of_getElem? here)), List.length_replicate,
      nested.deep row line here, Nat.zero_add]
  opens bracket member := by
    obtain ⟨line, here, marked⟩ := (nested.among bracket member).opens
    refine ⟨line.drawn .tabs, ?_, ?_⟩
    · rw [List.getElem?_map, ← Nat.sub_zero bracket.opened, here, Option.map_some]
    · rw [Line.drawn, List.getLast?_append, marked, Option.some_or]
  closes bracket member := by
    obtain ⟨line, here, marked⟩ := (nested.among bracket member).closes
    refine ⟨line.drawn .tabs, ?_, ?_⟩
    · rw [List.getElem?_map, ← Nat.sub_zero bracket.closed, here, Option.map_some]
    · rw [dropWhile_drawn (plain line (List.mem_of_getElem? here)), marked]
  ordered bracket member := (nested.among bracket member).ordered

/-- Both files of a document are their text in tabs with the tabs replaced that their lines begin
with. In the view, the lines of the expression that is returned are two tabs deep, and one more for
each pair of brackets that is open there. -/
theorem files_reindented (indent : Indent) {options : Options} {text : String}
    {document : Document} (read : (compile options text).outcome = .ok document) :
    view indent document = indent.reindented (view .tabs document) ∧
      viewModel indent document = indent.reindented (viewModel .tabs document) ∧
      ∃ header rows footer,
        (view .tabs document).toList.splitOn '\n' = header ++ (rows ++ footer) ∧
        ['\n'].intercalate rows =
          ("\t\treturn " ++ rootExpression .tabs document.root ++ ";").toList ∧
        Indented rows (brackets 0 document.root) := by
  have printable := printable_of_parse read
  have legible := legible_root printable
  have drawn := drawn_view printable
  refine ⟨drawn.reindented indent, (drawn_viewModel printable).reindented indent, _, _, _,
    by rw [drawn.splitOn_eq, List.map_append, List.map_append], ?_,
    (nested_rootLines legible.regular).indented (plain_rootLines legible printable.shows)⟩
  calc
    _ = margin .tabs 2 ++ ("return ".toList ++
        ((rootExpression .tabs document.root).toList ++ [';'])) :=
      intercalate_rootLines legible printable.shows .tabs
    _ = ("\t\treturn " ++ rootExpression .tabs document.root ++ ";").toList := by
      rw [String.toList_append, String.toList_append, List.append_assoc]
      rfl

/-- A list inside an element, indented by three dots a level. -/
theorem files_reindented_list :
    ∃ document,
      (compile {}
        "Stateless .viewModel: Vm, .view: Row:\n\tText x\n\t.b:\n\t\tC\n\t\tD $y").outcome =
          .ok document ∧
        brackets 0 document.root = [⟨.element, 0, 6⟩, ⟨.property, 2, 5⟩] ∧
        view ⟨'.', 3⟩ document = Indent.reindented ⟨'.', 3⟩ (view .tabs document) ∧
        viewModel ⟨'.', 3⟩ document = Indent.reindented ⟨'.', 3⟩ (viewModel .tabs document) ∧
        ∃ header rows footer,
          (view .tabs document).toList.splitOn '\n' = header ++ (rows ++ footer) ∧
          Indented rows [⟨.element, 0, 6⟩, ⟨.property, 2, 5⟩] := by
  let text := "Stateless .viewModel: Vm, .view: Row:\n\tText x\n\t.b:\n\t\tC\n\t\tD $y"
  have tree : (compile {} text).outcome.toOption.map (fun document => brackets 0 document.root) =
      some [⟨.element, 0, 6⟩, ⟨.property, 2, 5⟩] := by
    decide +kernel
  cases read : (compile {} text).outcome with
  | error problem =>
      rw [read] at tree
      cases tree
  | ok document =>
      rw [read] at tree
      have pairs : brackets 0 document.root = _ := Option.some.inj tree
      obtain ⟨shown, declared, header, rows, footer, split, -, indented⟩ :=
        files_reindented ⟨'.', 3⟩ read
      rw [pairs] at indented
      exact ⟨document, rfl, pairs, shown, declared, header, rows, footer, split, indented⟩

end WidgetTree.Dart
