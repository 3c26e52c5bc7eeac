import WidgetTree.Proofs.Dart.Leaves

namespace WidgetTree.Dart

open Grammar (headerPieces nodePieces)
open Lexeme (Lacks isSpelling lacks_cons)
open Outline (AllWritable)
open WidgetTree.Tree (Leaf Node Regular Role)

def shown (indent : Indent) (level : Nat) (node : Node) : List Char :=
  (expression indent level node).toList

def margin (indent : Indent) (level : Nat) : List Char :=
  List.replicate (level * indent.width) indent.char

section Layout

def beside? (role : Role) : List Node → Option Node
  | [child] => if role = .property || child.isValue then some child else none
  | _ => none

def opening : Role → List Char
  | .element => ['(']
  | .property => [':', ' ']

def closing : Role → List Char
  | .element => [')']
  | .property => []

def listOpening : Role → List Char
  | .element => []
  | .property => ['[']

def listClosing : Role → Char
  | .element => ')'
  | .property => ']'

def listed (indent : Indent) (level : Nat) (last : List Char) : List Node → List Char
  | [] => last
  | node :: more =>
      margin indent level ++
        (shown indent level node ++ ',' :: '\n' :: listed indent level last more)

variable {indent : Indent} {level : Nat} {role : Role} {name : String} {span : Text.Span}
  {children : List Node}

theorem toList_margin (indent : Indent) (level : Nat) :
    (indent.margin level).toList = margin indent level :=
  String.toList_ofList

theorem toList_itemLines (indent : Indent) (level : Nat) (last : List Char) (nodes : List Node) :
    (itemLines indent level nodes).toList ++ '\n' :: last =
      '\n' :: listed indent level last nodes := by
  have lineBreak : "\n".toList = ['\n'] := rfl
  have comma : ",".toList = [','] := rfl
  induction nodes with
  | nil => rfl
  | cons node more ih =>
      rw [itemLines, itemLine, listed, shown]
      simp only [String.toList_append, List.append_assoc, ih, toList_margin, lineBreak, comma]
      rfl

theorem beside?_eq_some {child : Node} (found : beside? role children = some child) :
    children = [child] ∧ (role = .element → child.isValue = true) := by
  match children with
  | [] | _ :: _ :: _ => cases found
  | [only] =>
      rw [beside?] at found
      split at found
      · next inline =>
          obtain rfl := Option.some.inj found
          refine ⟨rfl, ?_⟩
          rintro rfl
          simpa using inline
      · cases found

theorem mem_of_beside? {child : Node} (found : beside? role children = some child) :
    child ∈ children := by
  rw [(beside?_eq_some found).1]
  exact List.mem_singleton_self child

theorem shown_beside {child : Node} (found : beside? role children = some child) :
    shown indent level (.parent role name span children) =
      name.toList ++ (opening role ++ (shown indent level child ++ closing role)) := by
  obtain ⟨rfl, inline⟩ := beside?_eq_some found
  cases role with
  | property =>
      simp only [Node.parent, shown, expression, String.toList_append, List.append_assoc,
        closing, List.append_nil]
      rfl
  | element =>
      simp only [Node.parent, shown, expression, inline rfl, if_true, String.toList_append,
        List.append_assoc]
      rfl

theorem shown_below (none : beside? role children = none) (some : children ≠ [])
    (rest : List Char) :
    shown indent level (.parent role name span children) ++ rest =
      name.toList ++ (opening role ++ (listOpening role ++ '\n' ::
        listed indent (level + 1) (margin indent level ++ listClosing role :: rest) children)) := by
  have items := toList_itemLines indent (level + 1)
    (margin indent level ++ listClosing role :: rest) children
  rw [← items]
  match children with
  | [] => exact absurd rfl some
  | [only] =>
      rw [beside?] at none
      split at none
      · cases none
      · next below =>
          cases role with
          | property => simp at below
          | element =>
              have noValue : only.isValue = false := by simpa using below
              simp only [Node.parent, shown, expression, itemLines, noValue, Bool.false_eq_true,
                if_false, closingLine, String.toList_append, List.append_assoc, toList_margin,
                String.append_empty]
              rfl
  | _ :: _ :: _ =>
      cases role with
      | property | element =>
          simp only [Node.parent, shown, expression, closingLine, String.toList_append,
            List.append_assoc, toList_margin]
          rfl

end Layout

/-- What may stand between an expression and the end of its line. -/
structure Tail (tail : List Char) : Prop where
  marks : ∀ c ∈ tail, c = ')' ∨ c = ',' ∨ c = ';'
  stops : ',' ∈ tail ∨ ';' ∈ tail

namespace Tail

variable {tail : List Char}

theorem comma : Tail [','] := ⟨by simp, .inl List.mem_cons_self⟩

theorem semicolon : Tail [';'] := ⟨by simp, .inr List.mem_cons_self⟩

theorem closing (ends : Tail tail) (role : Role) : Tail (Dart.closing role ++ tail) := by
  cases role with
  | property => exact ends
  | element =>
      refine ⟨fun c member => ?_, ends.stops.imp (List.mem_cons_of_mem _) (List.mem_cons_of_mem _)⟩
      rcases List.mem_cons.mp member with rfl | member
      · exact .inl rfl
      · exact ends.marks c member

theorem exists_cons (ends : Tail tail) :
    ∃ c more, tail = c :: more ∧ (c = ')' ∨ c = ',' ∨ c = ';') := by
  cases tail with
  | nil => rcases ends.stops with member | member <;> cases member
  | cons c more => exact ⟨c, more, rfl, ends.marks c List.mem_cons_self⟩

theorem unbroken (ends : Tail tail) : '\n' ∉ tail := by
  intro member
  rcases ends.marks _ member with same | same | same <;> cases same

end Tail

def isBeginning (c : Char) : Bool := isSpelling c || c = '\x27' || c = '('

structure Legible (node : Node) : Prop where
  regular : Regular node
  writable : AllWritable (nodePieces node)

/-- A tree can be told from its expression and what follows it on the line. -/
def Told (indent : Indent) (node : Node) : Prop :=
  ∀ {other : Node}, Legible other → ∀ {level : Nat} {tail below below' : List Char}, Tail tail →
    shown indent level node ++ (tail ++ '\n' :: below) =
      shown indent level other ++ (tail ++ '\n' :: below') →
    node.withoutSpans = other.withoutSpans ∧ below = below'

section Beginnings

variable {indent : Indent} {level : Nat} {role : Role} {name : String} {span : Text.Span}
  {children : List Node}

theorem Legible.parent (legible : Legible (.parent role name span children)) :
    IsWord name.toList ∧ ∀ child ∈ children, Legible child := by
  obtain ⟨header, writable⟩ := legible.writable.parent
  refine ⟨isWord_of_headerPieces header, fun child member => ⟨?_, writable child member⟩⟩
  apply legible.regular.child
  rw [Node.children_parent]
  exact member

theorem exists_cons_of_isWord {word : List Char} (isWord : IsWord word) :
    ∃ c rest, word = c :: rest ∧ isSpelling c = true := by
  obtain ⟨c, rest, split⟩ := List.exists_cons_of_ne_nil isWord.1
  exact ⟨c, rest, split, isWord.2 c (split ▸ List.mem_cons_self)⟩

theorem isBeginning_of_isSpelling {c : Char} (spelling : isSpelling c = true) :
    isBeginning c = true := by
  simp [isBeginning, spelling]

theorem exists_name_append (indent : Indent) (level : Nat) (some : children ≠ []) :
    ∃ more, shown indent level (.parent role name span children) = name.toList ++ more := by
  cases found : beside? role children with
  | some child => exact ⟨_, shown_beside found⟩
  | none =>
      exact ⟨_, (List.append_nil _).symm.trans (shown_below found some [])⟩

theorem Legible.begins {node : Node} (legible : Legible node) (indent : Indent) (level : Nat) :
    ∃ c more, shown indent level node = c :: more ∧ isBeginning c = true := by
  obtain ⟨regular, writable⟩ := legible
  cases regular with
  | leaf leaf value span =>
      have opens := opening_leafText writable
      rw [shown, expression, ← leafText]
      generalize leafText leaf value = text at opens
      cases opens with
      | word isWord =>
          obtain ⟨c, rest, rfl, spelling⟩ := exists_cons_of_isWord isWord
          exact ⟨c, rest, rfl, isBeginning_of_isSpelling spelling⟩
      | applied isWord =>
          obtain ⟨c, rest, rfl, spelling⟩ := exists_cons_of_isWord isWord
          exact ⟨c, _, rfl, isBeginning_of_isSpelling spelling⟩
      | marked mark rest => exact ⟨_, rest, rfl, by rcases mark with rfl | rfl <;> rfl⟩
  | parent role name span some all =>
      have isWord := isWord_of_headerPieces writable.parent.1
      obtain ⟨more, same⟩ := exists_name_append indent level some
      obtain ⟨c, rest, split, spelling⟩ := exists_cons_of_isWord isWord
      rw [same, split]
      exact ⟨c, _, rfl, isBeginning_of_isSpelling spelling⟩

theorem exists_inside (some : children ≠ []) (legible : ∀ child ∈ children, Legible child)
    (rest : List Char) :
    ∃ c more, shown indent level (.parent role name span children) ++ rest =
      name.toList ++ (opening role ++ c :: more) ∧ c ≠ ')' := by
  cases found : beside? role children with
  | some child =>
      obtain ⟨c, more, split, beginning⟩ :=
        (legible child (mem_of_beside? found)).begins indent level
      refine ⟨c, more ++ (closing role ++ rest), ?_, ?_⟩
      · rw [shown_beside found, split]
        simp only [List.append_assoc, List.cons_append]
      · rintro rfl
        cases beginning
  | none =>
      rw [shown_below found some]
      cases role with
      | element => exact ⟨'\n', _, rfl, by decide⟩
      | property => exact ⟨'[', _, rfl, by decide⟩

end Beginnings

section Telling

variable {indent : Indent} {level : Nat} {tail rest others : List Char}

theorem Tail.lacks (ends : Tail tail) (rest : List Char) : Lacks isSpelling (tail ++ rest) := by
  obtain ⟨c, more, rfl, marks⟩ := ends.exists_cons
  rcases marks with rfl | rfl | rfl <;> rfl

theorem lacks_opening (role : Role) (rest : List Char) :
    Lacks isSpelling (opening role ++ rest) := by
  cases role <;> rfl

theorem Tail.ne_opening (ends : Tail tail) (role : Role) :
    tail ++ rest ≠ opening role ++ others := by
  obtain ⟨c, more, rfl, marks⟩ := ends.exists_cons
  intro same
  cases role with
  | element | property => rcases marks with rfl | rfl | rfl <;> cases (List.cons.inj same).1

theorem opening_ne_parent {text name : List Char} {role : Role} {c : Char} {more : List Char}
    (opens : Opening text) (ends : Tail tail) (isWord : IsWord name) (inside : c ≠ ')') :
    text ++ (tail ++ rest) ≠ name ++ (opening role ++ c :: more) := by
  intro same
  have lacks := lacks_opening role (c :: more)
  cases opens with
  | word alone =>
      exact ends.ne_opening role (split_run alone.2 isWord.2 (ends.lacks rest) lacks same).2
  | applied called =>
      rw [List.append_assoc] at same
      have stops : Lacks isSpelling (['(', ')'] ++ (tail ++ rest)) := rfl
      have brackets := (split_run called.2 isWord.2 stops lacks same).2
      cases role with
      | element => exact inside (List.cons.inj (List.cons.inj brackets).2).1.symm
      | property => cases (List.cons.inj brackets).1
  | marked mark front =>
      obtain ⟨first, others, rfl, spelling⟩ := exists_cons_of_isWord isWord
      rw [← (List.cons.inj same).1] at spelling
      rcases mark with rfl | rfl <;> cases spelling

theorem closing_ne_item (ends : Tail tail) (role : Role) {c : Char}
    (begins : isBeginning c = true) :
    margin indent level ++ listClosing role :: (tail ++ rest) ≠
      margin indent (level + 1) ++ c :: others := by
  intro same
  have deeper : margin indent (level + 1) =
      margin indent level ++ List.replicate indent.width indent.char := by
    rw [margin, margin, Nat.add_mul, Nat.one_mul, List.replicate_add]
  rw [deeper, List.append_assoc] at same
  have same : (listClosing role :: tail) ++ rest =
      List.replicate indent.width indent.char ++ c :: others := List.append_cancel_left same
  have unlike : c ∉ listClosing role :: tail := by
    intro member
    rcases List.mem_cons.mp member with rfl | member
    · cases role <;> cases begins
    · rcases ends.marks c member with rfl | rfl | rfl <;> cases begins
  -- The closing bracket and the end of its line are two characters, the margin has only one.
  have mixed : ¬ ∀ d ∈ listClosing role :: tail, d = indent.char := by
    intro uniform
    have first := uniform _ List.mem_cons_self
    rcases ends.stops with member | member
    · have second := uniform _ (List.mem_cons_of_mem _ member)
      cases role <;> cases first.trans second.symm
    · have second := uniform _ (List.mem_cons_of_mem _ member)
      cases role <;> cases first.trans second.symm
  have uniform : ∀ d ∈ List.replicate indent.width indent.char, d = indent.char :=
    fun _ => List.eq_of_mem_replicate
  rcases List.append_eq_append_iff.mp same with ⟨between, split, -⟩ | ⟨between, split, behind⟩
  · exact mixed fun d member => uniform d (split ▸ List.mem_append_left _ member)
  · cases between with
    | nil =>
        rw [List.append_nil] at split
        exact mixed fun d member => uniform d (split ▸ member)
    | cons d more =>
        obtain rfl : c = d := (List.cons.inj behind).1
        exact unlike (split ▸ List.mem_append_right _ List.mem_cons_self)

theorem listed_told {nodes nodes' : List Node} (each : ∀ node ∈ nodes, Told indent node)
    (legible : ∀ node ∈ nodes, Legible node) (legible' : ∀ node ∈ nodes', Legible node)
    (ends : Tail tail) (role : Role) {below below' : List Char}
    (same : listed indent (level + 1)
        (margin indent level ++ listClosing role :: (tail ++ '\n' :: below)) nodes =
      listed indent (level + 1)
        (margin indent level ++ listClosing role :: (tail ++ '\n' :: below')) nodes') :
    nodes.map Node.withoutSpans = nodes'.map Node.withoutSpans ∧ below = below' := by
  -- The list ends with the closing line, and no item begins as that line does.
  have unlike {node : Node} (legible : Legible node) (rest more : List Char) :
      margin indent level ++ listClosing role :: (tail ++ rest) ≠
        margin indent (level + 1) ++ (shown indent (level + 1) node ++ more) := by
    obtain ⟨c, others, split, begins⟩ := legible.begins indent (level + 1)
    rw [split]
    exact closing_ne_item ends role begins
  induction nodes generalizing nodes' with
  | nil =>
      cases nodes' with
      | nil =>
          have behind := List.append_cancel_left same
          have behind := List.append_cancel_left (List.cons.inj behind).2
          exact ⟨rfl, (List.cons.inj behind).2⟩
      | cons node' more' => exact absurd same (unlike (legible' _ List.mem_cons_self) _ _)
  | cons node more ih =>
      cases nodes' with
      | nil => exact absurd same.symm (unlike (legible _ List.mem_cons_self) _ _)
      | cons node' more' =>
          have item := List.append_cancel_left same
          obtain ⟨first, behind⟩ := each node List.mem_cons_self
            (legible' node' List.mem_cons_self) .comma item
          obtain ⟨others, rfl⟩ := ih (fun node member => each node (List.mem_cons_of_mem _ member))
            (fun node member => legible node (List.mem_cons_of_mem _ member))
            (fun node member => legible' node (List.mem_cons_of_mem _ member)) behind
          exact ⟨by rw [List.map_cons, List.map_cons, first, others], rfl⟩

theorem opening_told {role role' : Role} (same : opening role ++ rest = opening role' ++ others) :
    role = role' ∧ rest = others := by
  cases role <;> cases role' <;> cases same <;> exact ⟨rfl, rfl⟩

theorem beside_ne_below {child : Node} (legible : Legible child) (role : Role) :
    shown indent level child ++ rest ≠ listOpening role ++ '\n' :: others := by
  obtain ⟨c, more, split, begins⟩ := legible.begins indent level
  rw [split]
  intro same
  cases role with
  | element | property =>
      obtain rfl := (List.cons.inj same).1
      cases begins

theorem parent_told {role role' : Role} {name name' : String} {span span' : Text.Span}
    {children children' : List Node} (some : children ≠ []) (some' : children' ≠ [])
    (legible : Legible (.parent role name span children))
    (legible' : Legible (.parent role' name' span' children'))
    (each : ∀ child ∈ children, Told indent child) (ends : Tail tail) {below below' : List Char}
    (same : shown indent level (.parent role name span children) ++ (tail ++ '\n' :: below) =
      shown indent level (.parent role' name' span' children') ++ (tail ++ '\n' :: below')) :
    (Node.parent role name span children).withoutSpans =
        (Node.parent role' name' span' children').withoutSpans ∧ below = below' := by
  obtain ⟨isWord, inside⟩ := legible.parent
  obtain ⟨isWord', inside'⟩ := legible'.parent
  have headers {text text' : List Char}
      (same : name.toList ++ (opening role ++ text) = name'.toList ++ (opening role' ++ text')) :
      role = role' ∧ name = name' ∧ text = text' := by
    obtain ⟨names, others⟩ := split_run isWord.2 isWord'.2 (lacks_opening role _)
      (lacks_opening role' _) same
    obtain ⟨roles, texts⟩ := opening_told others
    exact ⟨roles, String.toList_inj.mp names, texts⟩
  suffices parts : role = role' ∧ name = name' ∧
      children.map Node.withoutSpans = children'.map Node.withoutSpans ∧ below = below' by
    obtain ⟨rfl, rfl, alike, rfl⟩ := parts
    rw [Node.withoutSpans_parent, Node.withoutSpans_parent, alike]
    exact ⟨rfl, rfl⟩
  cases found : beside? role children with
  | some child =>
      obtain ⟨rfl, -⟩ := beside?_eq_some found
      have here := inside child (List.mem_singleton_self child)
      rw [shown_beside found] at same
      simp only [List.append_assoc] at same
      cases found' : beside? role' children' with
      | some child' =>
          obtain ⟨rfl, -⟩ := beside?_eq_some found'
          rw [shown_beside found'] at same
          simp only [List.append_assoc] at same
          obtain ⟨rfl, rfl, text⟩ := headers same
          rw [← List.append_assoc (closing role), ← List.append_assoc (closing role)] at text
          obtain ⟨alike, rfl⟩ := each child (List.mem_singleton_self child)
            (inside' child' (List.mem_singleton_self child')) (ends.closing role) text
          exact ⟨rfl, rfl, by rw [List.map_singleton, List.map_singleton, alike], rfl⟩
      | none =>
          rw [shown_below found' some'] at same
          exact absurd (headers same).2.2 (beside_ne_below here role')
  | none =>
      rw [shown_below found some] at same
      cases found' : beside? role' children' with
      | some child' =>
          obtain ⟨rfl, -⟩ := beside?_eq_some found'
          rw [shown_beside found'] at same
          simp only [List.append_assoc] at same
          exact absurd (headers same).2.2.symm
            (beside_ne_below (inside' child' (List.mem_singleton_self child')) role)
      | none =>
          rw [shown_below found' some'] at same
          obtain ⟨rfl, rfl, text⟩ := headers same
          have items := (List.cons.inj (List.append_cancel_left text)).2
          obtain ⟨alike, rfl⟩ := listed_told each inside inside' ends role items
          exact ⟨rfl, rfl, alike, rfl⟩

theorem Legible.told {node : Node} (legible : Legible node) (indent : Indent) :
    Told indent node := by
  obtain ⟨regular, writable⟩ := legible
  induction regular with
  | leaf leaf value span =>
      intro other legible' level tail below below' ends same
      obtain ⟨regular', writable'⟩ := legible'
      cases regular' with
      | leaf leaf' value' span' =>
          obtain ⟨rfl, rfl, rfl⟩ := leaf_told writable writable' ends.unbroken same
          exact ⟨rfl, rfl⟩
      | parent role name span some all =>
          obtain ⟨isWord, inside⟩ := Legible.parent ⟨.parent role name span some all, writable'⟩
          have opens := opening_leafText writable
          obtain ⟨c, more, split, bracket⟩ := exists_inside some inside (tail ++ '\n' :: below')
          rw [split] at same
          exact absurd same (opening_ne_parent opens ends isWord bracket)
  | parent role name span some all ih =>
      intro other legible' level tail below below' ends same
      have legible : Legible (.parent role name span _) :=
        ⟨.parent role name span some all, writable⟩
      obtain ⟨isWord, inside⟩ := legible.parent
      obtain ⟨regular', writable'⟩ := legible'
      cases regular' with
      | leaf leaf' value' span' =>
          have opens := opening_leafText writable'
          obtain ⟨c, more, split, bracket⟩ := exists_inside some inside (tail ++ '\n' :: below)
          rw [split] at same
          exact absurd same.symm (opening_ne_parent opens ends isWord bracket)
      | parent role' name' span' some' all' =>
          exact parent_told some some' legible ⟨.parent role' name' span' some' all', writable'⟩
            (fun child member => ih child member (inside child member).writable) ends same

end Telling

end WidgetTree.Dart
