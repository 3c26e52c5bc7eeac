import WidgetTree.Proofs.Offside.Rows

namespace WidgetTree.Offside

open Grammar
open Lexeme (Indents Kind Token)
open WidgetTree.Tree (Node)

section Families

variable {p : Node × Node → Prop} {node : Node} {nodes more : List Node}

theorem families_eq (node : Node) :
    families node = node.children.map (node, ·) ++ familiesOf node.children := by
  cases node with
  | leaf kind value span => rfl
  | single role name child span => simp [families, familiesOf, Node.children]
  | many role name children span => rfl

theorem forall_families_iff :
    (∀ family ∈ familiesOf [node], p family) ↔
      (∀ child ∈ node.children, p (node, child)) ∧
        ∀ family ∈ familiesOf node.children, p family := by
  rw [familiesOf, familiesOf, List.append_nil, families_eq, List.forall_mem_append,
    List.forall_mem_map]

theorem familiesOf_append (nodes more : List Node) :
    familiesOf (nodes ++ more) = familiesOf nodes ++ familiesOf more := by
  induction nodes with
  | nil => rfl
  | cons node nodes ih => rw [List.cons_append, familiesOf, familiesOf, ih, List.append_assoc]

end Families

section Children

variable {row front tokens : List Token} {view parent child node : Node} {part : Part}
  {indent : Nat}

theorem before_of_begins (laid : Laid row) (begins : Begins part indent tokens node)
    (split : row = front ++ tokens) :
    ∃ gap, before row node.span.start = front ++ gap ∧ Leads indent tokens gap part := by
  rcases begins with ⟨gap, first, others, inside, start, leads⟩
  have whole : row = (front ++ gap) ++ first :: others := by
    rw [split, inside, List.append_assoc]
  refine ⟨gap, ?_, leads⟩
  rw [← start, before_eq laid whole]

/-- The child is read from its parent's line, going by what it stands behind. -/
def Beside (row : List Token) (parent child : Node) : Prop :=
  ∃ first more, before row child.span.start = before row parent.span.start ++ first :: more ∧
    first.kind ≠ .indentation ∧ Closed (first :: more)

/-- The line on which the node begins is indented no deeper than its rule was told, unless that is
the view's own line. -/
def Held (row : List Token) (view : Node) (indent : Nat) (node : Node) : Prop :=
  level row node ≤ indent ∨ ¬ Breaks (between row view node)

theorem Beside.unbroken (beside : Beside row parent child)
    (uncarried : ¬ Carried row parent child) : ¬ Breaks (between row parent child) := by
  rcases beside with ⟨first, more, behind, -, closed⟩
  intro breaks
  exact uncarried ⟨breaks, opening_of_closed closed (List.cons_ne_nil first more) behind⟩

theorem Held.beside (held : Held row view indent parent) (beside : Beside row parent child)
    (unbroken : ¬ Breaks (between row parent child)) : Held row view indent child := by
  rcases beside with ⟨first, more, behind, solid, -⟩
  rw [between_eq behind] at unbroken
  rcases held with shallow | viewLine
  · exact .inl ((level_eq_of_unbroken solid behind unbroken).trans_le shallow)
  · apply Or.inr
    rw [between, behind, List.drop_append, breaks_append]
    intro breaks
    rcases breaks with inside | after
    · exact viewLine inside
    · exact unbroken after.of_drop

theorem Held.below (held : Held row view indent parent) (below : Deeper row indent child)
    (deeper : ¬ Undercut row view parent child) : InPlace row parent child := by
  rcases below with ⟨indentation, opening, exceeds⟩
  by_cases breaks : Breaks (between row parent child)
  · refine .inr ⟨indentation, opening, ?_⟩
    rcases held with shallow | viewLine
    · exact Nat.lt_of_le_of_lt shallow exceeds
    · by_contra undercut
      exact deeper ⟨viewLine, breaks, indentation, opening, Nat.le_of_not_lt undercut⟩
  · exact .inl breaks

theorem beside_of_begins (laid : Laid row) {first : Token} {more : List Token}
    (split : row = (front ++ first :: more) ++ tokens)
    (place : before row parent.span.start = front) (solid : Solid first.kind)
    (closed : Closed (first :: more)) (leads : ∀ gap, Leads indent tokens gap part → Closed gap)
    (begins : Begins part indent tokens child) : Beside row parent child := by
  obtain ⟨gap, behind, led⟩ := before_of_begins laid begins split
  refine ⟨first, more ++ gap, ?_, solid.ne (.inl rfl), closed.append (leads gap led)⟩
  rw [behind, place, List.append_assoc, List.cons_append]

theorem beside_of_arguments {options : Options} {name : Token} {left : List Token}
    {inline : List Node} (laid : Laid row) (split : row = (front ++ [name]) ++ tokens)
    (place : before row parent.span.start = front) (header : IsHeader name)
    (beside : Derives options .arguments indent tokens inline left) :
    ∀ child ∈ inline, Beside row parent child := by
  intro child member
  have solid := solid_of_header header
  exact beside_of_begins laid split place solid (closed_singleton solid) (fun _ => id)
    (beside.begins child member)

theorem deeper_of_block {options : Options} {left : List Token} {below : List Node}
    (laid : Laid row) (split : row = front ++ tokens)
    (under : Derives options .block indent tokens below left) :
    ∀ child ∈ below, Deeper row indent child := by
  intro child member
  obtain ⟨gap, behind, lines, indentation, rfl, kind, deeper⟩ :=
    before_of_begins laid (under.begins child member) split
  rw [← List.append_assoc] at behind
  exact ⟨indentation, opening_of_indentation kind behind, deeper⟩

theorem not_indentation_of_isChain {gap : List Token} (indents : (gap ++ tokens).IsChain Indents)
    (some : gap ≠ []) (unbroken : ¬ Breaks gap) : (current tokens).kind ≠ .indentation := by
  intro indentation
  cases tokens with
  | nil => cases indentation
  | cons first others =>
      have newLine := indents.rel_getLast_head_of_append some (List.cons_ne_nil first others)
        indentation
      exact unbroken ⟨gap.getLast some, List.getLast_mem some, newLine⟩

theorem not_indentation_behind (laid : Laid row) {gap : List Token}
    (split : row = (front ++ gap) ++ tokens) (some : gap ≠ []) (unbroken : ¬ Breaks gap) :
    (current tokens).kind ≠ .indentation := by
  have indents := laid.indents
  rw [split, List.append_assoc] at indents
  exact not_indentation_of_isChain indents.right_of_append some unbroken

theorem beside_of_value {options : Options} {dot name : Token} {colons left : List Token}
    {children : List Node} (laid : Laid row)
    (split : row = (front ++ dot :: name :: colons) ++ tokens)
    (place : before row parent.span.start = front) (marked : dot.kind = .dot)
    (named : name.kind = .identifier) (kinds : ∀ token ∈ colons, token.kind = .colon)
    (held : Derives options .node indent tokens children left) :
    (current tokens).kind ≠ .indentation ∧ ∀ child ∈ children, Beside row parent child := by
  have unbroken : ¬ Breaks (dot :: name :: colons) := unbroken_cons (solid_of_dot marked)
    (unbroken_cons (solid_of_name named) (unbroken_of_kind kinds (by decide)))
  have closed : Closed (dot :: name :: colons) := .cons (solid_of_dot marked)
    (.cons (solid_of_name named) (closed_of_kind kinds (by decide)))
  have other := not_indentation_behind laid split (List.cons_ne_nil dot _) unbroken
  refine ⟨other, fun child member => ?_⟩
  exact beside_of_begins laid split place (solid_of_dot marked) closed
    (fun gap leads => leads_of_ne other leads ▸ closed_nil) (held.begins child member)

end Children

section Kept

variable {options : Options} {row tokens rest front : List Token} {view node : Node} {part : Part}
  {indent : Nat} {nodes : List Node}

theorem children_elementNode (name : Token) (inline : List Node) (colon : Option Token)
    (below : List Node) : (elementNode name inline colon below).children = inline ++ below := by
  rw [elementNode, Node.children_element]

def Holds (row : List Token) (view : Node) (indent : Nat) (tokens : List Token)
    (nodes : List Node) : Part → Prop
  | .content | .arguments => ∀ node ∈ nodes, Held row view indent node
  | .node => ∀ node ∈ nodes, Held row view (lineIndent indent tokens) node
  | .block => True

theorem before_elementNode {name : Token} (laid : Laid row) (split : row = front ++ name :: rest)
    (inline : List Node) (colon : Option Token) (below : List Node) :
    before row (elementNode name inline colon below).span.start = front := by
  rw [elementNode, start_element]
  exact before_eq laid split

/-- Wherever the rule reads in the row, its nodes keep their children in place, if none is carried
over a line break and none is undercut. -/
def Keeps (row : List Token) (view : Node) (part : Part) (indent : Nat) (tokens : List Token)
    (nodes : List Node) : Prop :=
  ∀ front, row = front ++ tokens →
    (∀ family ∈ familiesOf nodes,
      ¬ Carried row family.1 family.2 ∧ ¬ Undercut row view family.1 family.2) →
    Holds row view indent tokens nodes part →
    ∀ family ∈ familiesOf nodes, InPlace row family.1 family.2

section Rules

variable {dot name : Token} {next after left : List Token}
  {inline below children more : List Node} {colon : Option Token}

theorem keeps_node
    (inner : Keeps row view .content (lineIndent indent tokens) (skipIndentation tokens) nodes) :
    Keeps row view .node indent tokens nodes := by
  intro front split free holds
  obtain ⟨lead, whole, -⟩ := takes_indentation tokens
  exact inner (front ++ lead) (split_behind split whole) free holds

/-- On the line of the header what was told holds on only as long as no child is carried. -/
theorem keeps_element (laid : Laid row) (header : IsHeader name)
    (beside : Derives options .arguments indent rest inline next)
    (ended : Yields (headerColon? options inline next) colon after)
    (under : Derives options .block indent after below left)
    (besideKeeps : Keeps row view .arguments indent rest inline)
    (underKeeps : Keeps row view .block indent after below) :
    Keeps row view .content indent (name :: rest) [elementNode name inline colon below] := by
  intro front split free holds
  have held := holds _ List.mem_cons_self
  rw [forall_families_iff, children_elementNode, familiesOf_append, List.forall_mem_append,
    List.forall_mem_append] at free ⊢
  rcases free with ⟨⟨inlineFree, belowFree⟩, inlineRest, belowRest⟩
  have behindName : row = (front ++ [name]) ++ rest := split_behind split rfl
  obtain ⟨taken, inside, -⟩ := beside.takes
  obtain ⟨colons, divided, -⟩ := takes_headerColon ended
  have lines := split_behind (split_behind behindName inside) divided
  have besides := beside_of_arguments laid behindName
    (before_elementNode laid split inline colon below) header beside
  have belows := deeper_of_block laid lines under
  have unbroken := fun child member =>
    (besides child member).unbroken (inlineFree child member).1
  refine ⟨⟨fun child member => .inl (unbroken child member), fun child member => ?_⟩, ?_, ?_⟩
  · exact held.below (belows child member) (belowFree child member).2
  · apply besideKeeps _ behindName inlineRest
    intro child member
    exact held.beside (besides child member) (unbroken child member)
  · exact underKeeps _ lines belowRest trivial

theorem keeps_property (laid : Laid row) (marked : dot.kind = .dot)
    (named : name.kind = .identifier) (ended : Yields (colon? options rest) colon next)
    (held : Derives options (valuesPart next) indent next children left)
    (built : propertyNode dot name colon children = .ok node)
    (heldKeeps : Keeps row view (valuesPart next) indent next children) :
    Keeps row view .content indent (dot :: name :: rest) [node] := by
  intro front split free holds
  obtain ⟨start, own⟩ := of_propertyNode built
  have place : before row node.span.start = front := start ▸ before_eq laid split
  have kept := holds _ List.mem_cons_self
  rw [forall_families_iff, own] at free ⊢
  rcases free with ⟨childrenFree, restFree⟩
  obtain ⟨colons, divided, kinds⟩ := takes_colon ended
  have lines : row = (front ++ dot :: name :: colons) ++ next :=
    split_behind split (by rw [divided]; rfl)
  by_cases newLine : (current next).kind = .newLine
  · rw [valuesPart, if_pos newLine] at held heldKeeps
    have belows := deeper_of_block laid lines held
    refine ⟨fun child member => ?_, heldKeeps _ lines restFree trivial⟩
    exact kept.below (belows child member) (childrenFree child member).2
  · rw [valuesPart, if_neg newLine] at held heldKeeps
    obtain ⟨other, besides⟩ := beside_of_value laid lines place marked named kinds held
    have unbroken := fun child member =>
      (besides child member).unbroken (childrenFree child member).1
    refine ⟨fun child member => .inl (unbroken child member), ?_⟩
    apply heldKeeps _ lines restFree
    intro child member
    rw [lineIndent, if_neg other]
    exact kept.beside (besides child member) (unbroken child member)

theorem keeps_argument (goes : endsArguments (current tokens).kind = false)
    (first : Derives options .node indent tokens nodes rest)
    (firstKeeps : Keeps row view .node indent tokens nodes)
    (othersKeep : Keeps row view .arguments indent (skipComma rest) more) :
    Keeps row view .arguments indent tokens (nodes ++ more) := by
  intro front split free holds
  rw [familiesOf_append, List.forall_mem_append] at free ⊢
  obtain ⟨firstHolds, othersHold⟩ := List.forall_mem_append.mp holds
  obtain ⟨taken, inside, -⟩ := first.takes
  obtain ⟨comma, skipped, -⟩ := takes_comma rest
  constructor
  · apply firstKeeps front split free.1
    intro node member
    rw [lineIndent, if_neg (not_indentation_of_goes goes)]
    exact firstHolds node member
  · exact othersKeep _ (split_behind (split_behind split inside) skipped) free.2 othersHold

theorem keeps_line (laid : Laid row) (deeper : opensDeeper indent (skipNewLines tokens) = true)
    (first : Derives options .node indent (skipNewLines tokens) nodes rest)
    (firstKeeps : Keeps row view .node indent (skipNewLines tokens) nodes)
    (othersKeep : Keeps row view .block indent rest more) :
    Keeps row view .block indent tokens (nodes ++ more) := by
  intro front split free _
  rw [familiesOf_append, List.forall_mem_append] at free ⊢
  obtain ⟨breaks, newLines, -⟩ := takes_newLines tokens
  obtain ⟨taken, inside, -⟩ := first.takes
  have lines := split_behind split newLines
  constructor
  -- A block needs to be told nothing: its nodes bring the indentation of their own lines.
  · apply firstKeeps _ lines free.1
    intro node member
    apply Or.inl
    obtain ⟨gap, behind, leads⟩ := before_of_begins laid (first.begins node member) lines
    obtain ⟨indentation, rfl, kind, indents, -⟩ := leads_of_opensDeeper deeper leads
    rw [level_of_indentation laid kind behind, indents]
  · exact othersKeep _ (split_behind lines inside) free.2 trivial

end Rules

theorem keeps_of_derives (laid : Laid row)
    (derives : Derives options part indent tokens nodes rest) :
    Keeps row view part indent tokens nodes := by
  induction derives with
  | node inner ih => exact keeps_node ih
  | constant | reference | name | argumentsEnd | blockEnd =>
      exact fun _ _ _ _ => List.forall_mem_nil _
  | element header parent beside ended under besideIh underIh =>
      exact keeps_element laid header beside ended under besideIh underIh
  | property marked named ended held built ih =>
      exact keeps_property laid marked named ended held built ih
  | argument goes first others firstIh othersIh =>
      exact keeps_argument goes first firstIh othersIh
  | line deeper first others firstIh othersIh =>
      exact keeps_line laid deeper first firstIh othersIh

theorem inPlace_of_derives (laid : Laid row)
    (derives : Derives options part indent tokens nodes rest) (front : List Token)
    (split : row = front ++ tokens)
    (free : ∀ family ∈ familiesOf nodes,
      ¬ Carried row family.1 family.2 ∧ ¬ Undercut row view family.1 family.2)
    (holds : Holds row view indent tokens nodes part) :
    ∀ family ∈ familiesOf nodes, InPlace row family.1 family.2 :=
  keeps_of_derives laid derives front split free holds

end Kept

end WidgetTree.Offside
