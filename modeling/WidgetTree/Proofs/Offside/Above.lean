import WidgetTree.Proofs.Grammar.Follows
import WidgetTree.Proofs.Offside.Nearest
import WidgetTree.Proofs.Offside.Opened

namespace WidgetTree.Offside

open Grammar
open Lexeme (Indents Kind Token)
open WidgetTree.Tree (Leaf Node)

def StartsOn (line : List Token) (node : Node) : Prop :=
  ∃ token ∈ line, token.span.start = node.span.start

instance (line : List Token) (node : Node) : Decidable (StartsOn line node) :=
  inferInstanceAs (Decidable (∃ token ∈ line, _))

/-- The line belongs to a node that takes no lines below: a constant, a call or a callback, behind
the names of properties or not, all of it on the line. -/
def Shut (line : List Token) : Node → Prop
  | .leaf leaf value span => leaf ≠ .identifier ∧ StartsOn line (.leaf leaf value span)
  | .single .property name child span =>
      StartsOn line (.single .property name child span) ∧ Shut line child
  | .single .element .. | .many .. => False

section Shut

variable {options : Options} {part : Part} {indent : Nat} {tokens rest : List Token}
  {nodes : List Node}

theorem solid_of_content (derives : Derives options .content indent tokens nodes rest) :
    ∃ first others, tokens = first :: others ∧ Solid first.kind := by
  cases derives with
  | constant literal => exact ⟨_, _, rfl, solid_of_constant literal⟩
  | reference marked named => exact ⟨_, _, rfl, solid_of_marked marked⟩
  | name header alone => exact ⟨_, _, rfl, solid_of_header header⟩
  | element header parent beside ended under => exact ⟨_, _, rfl, solid_of_header header⟩
  | property marked named ended held built => exact ⟨_, _, rfl, solid_of_dot marked⟩

theorem ends_of_block (derives : Derives options part indent tokens nodes rest)
    (block : part = .block) : opensDeeper indent (skipNewLines rest) = false := by
  induction derives with
  | @blockEnd indent tokens ends => rwa [skipNewLines_skipNewLines]
  | line deeper first others firstIh othersIh => exact othersIh block
  | node | constant | reference | name | element | property | argumentsEnd | argument => cases block

theorem not_standsAlone (deeper : opensDeeper indent (skipNewLines rest) = true) :
    standsAlone indent rest = false := by
  have front : (current rest).kind ≠ .newLine → (current rest).kind = .indentation := by
    intro other
    rw [skipNewLines_of_ne other, opensDeeper, Bool.and_eq_true] at deeper
    exact of_decide_eq_true deeper.1
  rw [standsAlone]
  split
  · next comma => exact absurd (front (by simp [comma])) (by simp [comma])
  · next ends => exact absurd (front (by simp [ends])) (by simp [ends])
  · rw [deeper]
    rfl
  · rfl

theorem propertyNode_single {dot name : Token} {colon : Option Token} {child node : Node}
    (built : propertyNode dot name colon [child] = .ok node) :
    node = .single .property name.value child ⟨dot.span.start, child.span.stop⟩ := by
  cases built
  rfl

theorem not_identifier_of_marked {leaf : Leaf} {kind : Kind}
    (marked : markedLeaf? kind = some leaf) : leaf ≠ .identifier := by
  rintro rfl
  cases kind <;> cases marked

theorem shut_of_derives (derives : Derives options part indent tokens nodes rest)
    (indents : tokens.IsChain Indents)
    (deeper : opensDeeper indent (skipNewLines rest) = true)
    (single : part = .content ∨ part = .node ∧ (current tokens).kind ≠ .indentation) :
    ∃ taken, tokens = taken ++ rest ∧ ¬ Breaks taken ∧
      ∀ line, taken ⊆ line → ∀ node ∈ nodes, Shut line node := by
  induction derives with
  | @node indent tokens rest nodes inner ih =>
      obtain other | ⟨-, solid⟩ := single
      · cases other
      have skipped : skipIndentation tokens = tokens := if_neg solid
      have indented : lineIndent indent tokens = indent := if_neg solid
      rw [skipped, indented] at ih
      exact ih indents deeper (.inl rfl)
  | @constant _ token _ _ literal =>
      refine ⟨[token], rfl, unbroken_cons (solid_of_constant literal) unbroken_nil, ?_⟩
      intro line inside node member
      rw [List.mem_singleton.mp member]
      exact ⟨by simp, token, inside List.mem_cons_self, rfl⟩
  | @reference _ mark name _ leaf marked named =>
      refine ⟨[mark, name], rfl, unbroken_cons (solid_of_marked marked)
        (unbroken_cons (solid_of_name named) unbroken_nil), ?_⟩
      intro line inside node member
      rw [List.mem_singleton.mp member]
      exact ⟨not_identifier_of_marked marked, mark, inside List.mem_cons_self, rfl⟩
  | name header alone =>
      rw [not_standsAlone deeper] at alone
      cases alone
  | element header parent beside ended under => 
      rw [ends_of_block under rfl] at deeper
      cases deeper
  | @property indent dot name rest next left children colon node marked named ended held built
      ih =>
      by_cases newLine : (current next).kind = .newLine
      · rw [valuesPart, if_pos newLine] at held
        rw [ends_of_block held rfl] at deeper
        cases deeper
      · rw [valuesPart, if_neg newLine] at held ih
        have other := not_indentation_behind_colon indents marked named ended
        have behindColon := indents.tail.tail.suffix (takes_colon ended).suffix
        obtain ⟨child, rfl, -⟩ := held.reads
        obtain ⟨taken, rfl, unbroken, shut⟩ := ih behindColon deeper (.inr ⟨rfl, other⟩)
        obtain ⟨colons, divided, -, header⟩ := unbroken_header marked named ended
        refine ⟨dot :: name :: colons ++ taken, by rw [divided, ← List.append_assoc]; rfl, ?_, ?_⟩
        · exact breaks_append.not.mpr (not_or.mpr ⟨header, unbroken⟩)
        · intro line inside node member
          rw [List.mem_singleton.mp member, propertyNode_single built]
          refine ⟨⟨dot, inside List.mem_cons_self, rfl⟩, ?_⟩
          have behind : taken ⊆ line := fun token later => inside (List.mem_append_right _ later)
          exact shut line behind child List.mem_cons_self
  | argumentsEnd | argument | blockEnd | line => simp at single

end Shut

section Below

variable {options : Options} {part : Part} {indent least : Nat}
  {row tokens rest gap others under taken breaks : List Token} {nodes more : List Node}
  {indentation lead : Token}

theorem deeper_of_content (derives : Derives options .content indent tokens nodes rest)
    (indents : tokens.IsChain Indents) (inside : tokens = taken ++ rest) :
    ∀ token ∈ taken, token.kind = .indentation → indent < token.span.length := by
  intro token member kind
  obtain ⟨behind, later, rfl⟩ := List.append_of_mem member
  have suffix : token :: (later ++ rest) <:+ tokens := by
    rw [inside, List.append_assoc, List.cons_append]
    exact List.suffix_append _ _
  exact (opens_of_derives derives indents suffix (List.suffix_append _ _) kind).2

theorem exists_lead (deeper : opensDeeper indent tokens = true)
    (first : Derives options .node indent tokens nodes rest) :
    ∃ lead under, tokens = lead :: under ∧ lead.kind = .indentation ∧
      Derives options .content lead.span.length under nodes rest := by
  simp only [opensDeeper, Bool.and_eq_true, decide_eq_true_eq] at deeper
  cases tokens with
  | nil => cases deeper.1
  | cons lead under =>
      cases first with
      | node inner =>
          have skipped : skipIndentation (lead :: under) = under := if_pos deeper.1
          have indented : lineIndent indent (lead :: under) = lead.span.length := if_pos deeper.1
          rw [skipped, indented] at inner
          exact ⟨lead, under, rfl, deeper.1, inner⟩

theorem opensDeeper_of_deep
    (opens : opensDeeper indent (skipNewLines (gap ++ indentation :: others)) = true)
    (kind : indentation.kind = .indentation)
    (deep : ∀ token ∈ gap, token.kind = .indentation → indentation.span.length ≤ token.span.length)
    (less : least < indentation.span.length) :
    opensDeeper least (skipNewLines (gap ++ indentation :: others)) = true := by
  induction gap with
  | nil =>
      have other : indentation.kind ≠ .newLine := by simp [kind]
      rw [List.nil_append, skipNewLines_cons_of_ne other, opensDeeper]
      simp [current, kind, less]
  | cons token gap ih =>
      rw [List.forall_mem_cons] at deep
      rw [List.cons_append] at opens ⊢
      by_cases newLine : token.kind = .newLine
      · rw [skipNewLines_cons_of_eq newLine] at opens ⊢
        exact ih opens deep.2
      · rw [skipNewLines_cons_of_ne newLine] at opens ⊢
        rw [opensDeeper, Bool.and_eq_true, decide_eq_true_eq, decide_eq_true_eq] at opens ⊢
        exact ⟨opens.1, less.trans_le (deep.1 opens.1)⟩

def Above (gap : List Token) (indent : Nat) (siblings : List Node) : Prop :=
  (∀ token ∈ gap, token.kind = .indentation → indent ≤ token.span.length) ∨
    ∃ line ∈ shallower? indent gap, ∃ sibling ∈ siblings, Shut line sibling

theorem shallower?_lead (kind : lead.kind = .indentation)
    (inner : Derives options .content lead.span.length under nodes rest)
    (inside : under = taken ++ rest) (unbroken : ¬ Breaks taken)
    (kinds : ∀ token ∈ breaks, token.kind = .newLine) (less : lead.span.length < least) :
    shallower? least (breaks ++ lead :: taken) = some (lead :: taken) := by
  have whole : ¬ Breaks (lead :: taken) := by
    rintro ⟨token, member, newLine⟩
    rcases List.mem_cons.mp member with rfl | own
    · rw [kind] at newLine
      cases newLine
    · exact unbroken ⟨token, own, newLine⟩
  obtain ⟨own, same, closed, nonempty⟩ := inner.takes
  obtain rfl : own = taken := List.append_cancel_right (same.symm.trans inside)
  have last := List.getLast?_eq_some_getLast (nonempty rfl)
  have solid : ∃ token ∈ lead :: own, token.kind ≠ .indentation :=
    ⟨_, List.mem_cons_of_mem lead (List.getLast_mem (nonempty rfl)), closed _ last⟩
  have indented : lineIndent 0 (lead :: own) < least := by
    rw [lineIndent, current, if_pos kind]
    exact less
  have ends : ∀ token ∈ breaks.getLast?, token.kind = .newLine := fun token last =>
    kinds token (List.mem_of_getLast? last)
  have found := shallower?_line ends whole solid (List.forall_mem_nil _) indented
  rwa [List.append_nil] at found

theorem Above.line (above : Above gap indentation.span.length more)
    (inner : Derives options .content lead.span.length under nodes rest)
    (inside : under = taken ++ rest) (divided : rest = gap ++ indentation :: others)
    (opens : opensDeeper indent (skipNewLines rest) = true)
    (kinds : ∀ token ∈ breaks, token.kind = .newLine) (leadKind : lead.kind = .indentation)
    (kind : indentation.kind = .indentation)
    (indents : (breaks ++ lead :: under).IsChain Indents) (edge : Edge gap)
    (hangs : gap.IsChain Hangs) :
    Above (breaks ++ lead :: taken ++ gap) indentation.span.length (nodes ++ more) := by
  have underIndents : under.IsChain Indents := indents.right_of_append.tail
  have whole : breaks ++ lead :: under =
      (breaks ++ lead :: taken ++ gap) ++ indentation :: others := by
    rw [inside, divided]
    simp only [List.append_assoc, List.cons_append]
  rw [whole] at indents
  have cut := indents.left_of_append
  rcases above with deep | ⟨line, found, sibling, member, shut⟩
  · by_cases less : lead.span.length < indentation.span.length
    · -- The node stands in front of a deeper line, so it takes no lines and is all of its own.
      obtain ⟨node, rfl, -⟩ := inner.reads
      rw [divided] at opens
      have next := opensDeeper_of_deep opens kind deep less
      rw [← divided] at next
      obtain ⟨own, same, unbroken, shut⟩ := shut_of_derives inner underIndents next (.inl rfl)
      obtain rfl : own = taken := List.append_cancel_right (same.symm.trans inside)
      refine .inr ⟨lead :: own, ?_, node, List.mem_append_left more List.mem_cons_self,
        shut _ (List.subset_cons_self lead own) node List.mem_cons_self⟩
      rw [shallower?_append cut edge, shallower?_eq_none hangs edge deep, Option.none_or]
      exact shallower?_lead leadKind inner inside unbroken kinds less
    · apply Or.inl
      have deeper := deeper_of_content inner underIndents inside
      have atLeast : indentation.span.length ≤ lead.span.length := Nat.le_of_not_lt less
      intro token member same
      simp only [List.mem_append, List.mem_cons, or_assoc] at member
      rcases member with front | rfl | own | behind
      · rw [kinds token front] at same
        cases same
      · exact atLeast
      · exact atLeast.trans (deeper token own same).le
      · exact deep token behind same
  · refine .inr ⟨line, ?_, sibling, List.mem_append_right nodes member, shut⟩
    rw [shallower?_append cut edge, found]
    rfl

/-- What stands above a line of a block, down from the block's header. -/
theorem above_of_block (laid : Laid row) (derives : Derives options part indent tokens nodes rest)
    (block : part = .block) (front : List Token) (split : row = front ++ tokens) :
    ∀ child ∈ nodes, opensDeeper indent (skipNewLines tokens) = true ∧
      ∃ gap indentation others, tokens = gap ++ indentation :: others ∧
        before row child.span.start = front ++ (gap ++ [indentation]) ∧
        indentation.kind = .indentation ∧ Edge gap ∧
        (gap.IsChain Hangs → Above gap indentation.span.length nodes) := by
  induction derives generalizing front with
  | node | constant | reference | name | element | property | argumentsEnd | argument => cases block
  | blockEnd ends => exact List.forall_mem_nil _
  | @line indent tokens rest left nodes more deeper first others firstIh othersIh =>
      obtain ⟨breaks, newLines, kinds⟩ := takes_newLines tokens
      obtain ⟨lead, under, opens, leadKind, inner⟩ := exists_lead deeper first
      rw [opens] at newLines
      intro child member
      refine ⟨deeper, ?_⟩
      -- In the block a child of this line has only line breaks above it, a later one this line too.
      rcases List.mem_append.mp member with own | later
      · obtain ⟨_, first, others, inside, start, rfl⟩ := inner.begins child own
        rw [List.nil_append] at inside
        have passed : tokens = (breaks ++ [lead]) ++ first :: others := by
          rw [newLines, inside, List.append_assoc, List.singleton_append]
        refine ⟨breaks, lead, under, newLines, ?_, leadKind, ?_, fun _ => .inl ?_⟩
        · rw [← start, before_eq laid (split_behind split passed)]
        · exact edge_of_newLines kinds
        · intro token inner same
          rw [kinds token inner] at same
          cases same
      · obtain ⟨taken, inside, -⟩ := inner.takes
        have passed : tokens = (breaks ++ lead :: taken) ++ rest := by
          rw [newLines, inside, List.append_assoc, List.cons_append]
        obtain ⟨opensNext, gap, indentation, behind, divided, place, kind, edge, above⟩ :=
          othersIh block _ (split_behind split passed) child later
        refine ⟨(breaks ++ lead :: taken) ++ gap, indentation, behind, ?_, ?_, kind, ?_, ?_⟩
        · rw [passed, divided, ← List.append_assoc]
        · rw [place]
          simp only [List.append_assoc]
        · exact ((edge_of_newLines kinds).append (edge_cons leadKind taken)).append edge
        · intro hangs
          have indents := laid.indents
          rw [split, newLines] at indents
          exact (above hangs.right_of_append).line inner inside divided opensNext kinds leadKind
            kind indents.right_of_append edge hangs.right_of_append

end Below

end WidgetTree.Offside
