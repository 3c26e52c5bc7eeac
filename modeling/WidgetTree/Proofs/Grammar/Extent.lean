import WidgetTree.Proofs.Grammar.Follows
import WidgetTree.Proofs.Grammar.Spread

/-!
What a rule reads and what it only skips behind. Main statement: `Derives.extent`, the nodes stand
one behind the other in the tokens that the rule needs, the layout behind these plays no part, and
the same tokens are read as the same nodes where they end the file.
-/

namespace WidgetTree.Grammar

open Lexeme (Kind Token)
open WidgetTree.Tree (Node)

def Arranged (core : List Token) (nodes : List Node) : Part → Prop
  | .content => ∃ node, nodes = [node] ∧ Covers core node
  | .node | .arguments | .block => Lays Covers core nodes

theorem Arranged.lays {part : Part} {core : List Token} {nodes : List Node}
    (arranged : Arranged core nodes part)
    (other : part ≠ .content) : Lays Covers core nodes := by
  cases part with
  | content => exact absurd rfl other
  | node | arguments | block => exact arranged

/-- The rule needs the first tokens for the nodes and skips the gap behind them; with whatever may
follow it reads the same nodes again. -/
structure Extent (options : Options) (part : Part) (indent : Nat) (core gap : List Token)
    (nodes : List Node) (rest : List Token) : Prop where
  arranged : Arranged core nodes part
  again : ∀ tokens left, Follows gap rest tokens left →
    Derives options part indent (core ++ tokens) nodes left

section Rules

variable {options : Options} {indent : Nat} {tokens rest core gap left : List Token}
  {nodes more : List Node}

theorem extent_constant {token : Token} {kind : Tree.ConstantKind}
    (literal : constant? token = some kind) :
    Extent options .content indent [token] [] [.leaf (.constant kind) token.value token.span]
      rest where
  arranged := by
    have solid := solid_of_constant literal
    refine ⟨_, rfl, ⟨⟨token, rfl, solid, rfl⟩, token, rfl, solid, rfl⟩, ?_⟩
    exact ⟨[token], [], [], rfl, List.cons_ne_nil token [], .nil⟩
  again tokens left follows := by
    rw [follows.nil]
    exact .constant literal

theorem extent_reference {mark name : Token} {leaf : Tree.Leaf}
    (marked : markedLeaf? mark.kind = some leaf) (named : name.kind = .identifier) :
    Extent options .content indent [mark, name] []
      [.leaf leaf name.value ⟨mark.span.start, name.span.stop⟩] rest where
  arranged := by
    have first := solid_of_marked marked
    have last := solid_of_name named
    refine ⟨_, rfl, ⟨⟨mark, rfl, first, rfl⟩, name, rfl, last, rfl⟩, ?_⟩
    exact ⟨[mark, name], [], [], rfl, List.cons_ne_nil mark [name], .nil⟩
  again tokens left follows := by
    rw [follows.nil]
    exact .reference marked named

theorem extent_name {name : Token} (header : IsHeader name)
    (alone : standsAlone indent rest = true) :
    Extent options .content indent [name] [] [.leaf .identifier name.value name.span] rest where
  arranged := by
    have solid := solid_of_header header
    refine ⟨_, rfl, ⟨⟨name, rfl, solid, rfl⟩, name, rfl, solid, rfl⟩, ?_⟩
    exact ⟨[name], [], [], rfl, List.cons_ne_nil name [], .nil⟩
  again tokens left follows := by
    have stands := follows.standsAlone alone
    rw [follows.nil] at stands ⊢
    exact .name header stands

theorem extent_element {name : Token} {next after core gap colons under skipped : List Token}
    {inline below : List Node} {colon : Option Token} (header : IsHeader name)
    (parent : standsAlone indent (core ++ (gap ++ next)) = false)
    (beside : Extent options .arguments indent core gap inline next)
    (ended : Colons (fun tokens => Yields (headerColon? options inline tokens) colon) colon next
      after colons)
    (lines : Extent options .block indent under skipped below left)
    (split : after = under ++ (skipped ++ left))
    (some : colons ≠ [] ∨ below ≠ [])
    (ordered : Ordered (name :: (core ++ ((gap ++ colons) ++ under)))) :
    Extent options .content indent (name :: (core ++ ((gap ++ colons) ++ under))) skipped
      [elementNode name inline colon below] left where
  arranged := by
    refine ⟨_, rfl, covers_elementNode header beside.arranged lines.arranged rfl ?_⟩
    by_cases lined : below = []
    · subst lined
      have colonned : colons ≠ [] := some.resolve_right (fun other => other rfl)
      rcases colon with _ | token
      · exact absurd ended.same colonned
      · have none : under = [] := lines.arranged.eq_nil
        obtain rfl := none
        obtain rfl := ended.same
        rw [List.append_nil] at ordered ⊢
        have kind := ended.kind token (List.mem_singleton_self token)
        exact last_of_colon kind beside.arranged ordered
    · exact last_of_below beside.arranged lines.arranged lined ended.same ordered
  again tokens rest follows := by
    have solid : ∃ token ∈ colons ++ under, Solid token.kind := by
      rcases some with colonned | lined
      · obtain ⟨token, others, rfl⟩ := List.exists_cons_of_ne_nil colonned
        have kind := ended.kind token List.mem_cons_self
        exact ⟨token, List.mem_append_left _ List.mem_cons_self, kind ▸ .inr (.inr rfl)⟩
      · obtain ⟨token, member, solid⟩ := lines.arranged.exists_solid lined
        exact ⟨token, List.mem_append_right _ member, solid⟩
    have front : SameFront next (colons ++ (under ++ tokens)) := by
      rw [ended.split, split, ← List.append_assoc, ← List.append_assoc colons]
      exact .of_solid solid _ _
    have parent' : standsAlone indent (core ++ (gap ++ (colons ++ (under ++ tokens)))) = false := by
      rw [← standsAlone_congr ((front.append gap).append core), parent]
    have ended' := ended.again (under ++ tokens) fun none => by
      rw [none, List.nil_append] at solid
      rw [split]
      exact .inl (current_append solid _ _)
    have whole := Derives.element header parent' (beside.again _ _ (.same front)) ended'
      (lines.again _ _ follows)
    simpa only [List.cons_append, List.append_assoc] using whole

theorem extent_header {name : Token} {after core gap skipped : List Token}
    {inline : List Node} (header : IsHeader name)
    (parent : standsAlone indent (core ++ (gap ++ after)) = false)
    (beside : Extent options .arguments indent core gap inline after)
    (ended : Colons (fun tokens => Yields (headerColon? options inline tokens) none) none after
      after [])
    (lines : Extent options .block indent [] skipped [] left)
    (split : after = skipped ++ left) :
    Extent options .content indent (name :: core) (gap ++ skipped)
      [elementNode name inline none []] left where
  arranged := by
    have last := last_of_header header beside.arranged
    have split : core = core ++ ([] ++ []) := (List.append_nil core).symm
    exact ⟨_, rfl, covers_elementNode header beside.arranged .nil split last⟩
  again tokens rest follows := by
    by_cases alone : standsAlone indent (core ++ tokens) = true
    · cases follows with
      | same front =>
          rw [split, standsAlone_congr (((front.append skipped).append gap).append core),
            ← List.append_assoc gap, alone] at parent
          cases parent
      | @ended last ends =>
          by_cases some : inline = []
          · -- The name is read as a leaf now, which is what an element without children is.
            subst some
            obtain rfl : core = [] := beside.arranged.eq_nil
            exact .name header alone
          · have solid := beside.arranged.exists_solid some
            rw [standsAlone_congr (SameFront.of_solid solid _ [last]), alone] at parent
            cases parent
    · obtain ⟨middle, first, second⟩ := follows.split
      rw [← split] at first
      have ended' := ended.again middle fun _ => first.current_or
      exact .element header (Bool.eq_false_iff.mpr alone) (beside.again _ _ first) ended'
        (lines.again _ _ second)

theorem extent_property {dot name : Token} {next colons : List Token} {colon : Option Token}
    {node : Node} (marked : dot.kind = .dot) (named : name.kind = .identifier)
    (ended : Colons (fun tokens => Yields (colon? options tokens) colon) colon tokens next colons)
    (held : Extent options (valuesPart next) indent core gap nodes left)
    (built : propertyNode dot name colon nodes = .ok node)
    (split : next = core ++ (gap ++ left)) :
    Extent options .content indent (dot :: name :: (colons ++ core)) gap [node] left := by
  have some : nodes ≠ [] := by
    rintro rfl
    cases built
  have other : valuesPart next ≠ .content := by
    rw [valuesPart]
    split
    · simp
    · simp
  have lays := held.arranged.lays other
  have solid := lays.exists_solid some
  have covers := covers_propertyNode marked built lays some colons
  refine ⟨⟨node, rfl, covers⟩, fun tokens rest follows => ?_⟩
  have same : current (core ++ tokens) = current next := by
    rw [split]
    exact current_append solid _ _
  have ended' := ended.again (core ++ tokens) fun _ => .inl same
  have part : valuesPart (core ++ tokens) = valuesPart next := by
    rw [valuesPart, valuesPart, same]
  have held' := held.again tokens rest follows
  rw [← part] at held'
  have whole := Derives.property marked named ended' held' built
  simpa only [List.cons_append, List.append_assoc] using whole

theorem extent_node (inner : Extent options .content (lineIndent indent tokens) core gap nodes left)
    (split : skipIndentation tokens = core ++ (gap ++ left)) :
    ∃ lead, tokens = lead ++ (core ++ (gap ++ left)) ∧
      Extent options .node indent (lead ++ core) gap nodes left := by
  obtain ⟨node, rfl, covers⟩ := inner.arranged
  have solid := covers.exists_solid
  by_cases indentation : (current tokens).kind = .indentation
  · cases tokens with
    | nil => cases indentation
    | cons token others =>
        have skipped : skipIndentation (token :: others) = others := if_pos indentation
        rw [skipped] at split
        have lays := Lays.single covers [token]
        refine ⟨[token], by rw [split]; rfl, lays, fun more rest follows => .node ?_⟩
        have skipped' : skipIndentation ([token] ++ core ++ more) = core ++ more :=
          if_pos indentation
        have indented : lineIndent indent ([token] ++ core ++ more) =
            lineIndent indent (token :: others) := rfl
        rw [skipped', indented]
        exact inner.again more rest follows
  · have skipped : skipIndentation tokens = tokens := if_neg indentation
    rw [skipped] at split
    refine ⟨[], split, Lays.single covers [], fun more rest follows => .node ?_⟩
    have same : current (core ++ more) = current tokens := by
      rw [split]
      exact current_append solid _ _
    have indentation' : (current (core ++ more)).kind ≠ .indentation := by rwa [same]
    have indented : lineIndent indent (core ++ more) = lineIndent indent tokens := by
      rw [lineIndent, lineIndent, if_neg indentation, if_neg indentation']
    rw [List.nil_append, skipIndentation, if_neg indentation', indented]
    exact inner.again more rest follows

theorem extent_argument {under skipped : List Token}
    (goes : endsArguments (current tokens).kind = false)
    (first : Extent options .node indent core gap nodes rest)
    (split : tokens = core ++ (gap ++ rest)) (some : nodes ≠ [])
    (others : Extent options .arguments indent under skipped more left)
    (behind : skipComma rest = under ++ (skipped ++ left)) :
    ∃ inner outer, tokens = inner ++ (outer ++ left) ∧
      Extent options .arguments indent inner outer (nodes ++ more) left := by
  have solid := first.arranged.exists_solid some
  obtain ⟨commas, commad, kinds, again⟩ := skipComma_commas rest
  have goes' : ∀ tokens, endsArguments (current (core ++ tokens)).kind = false := by
    intro tokens
    rwa [current_append solid tokens (gap ++ rest), ← split]
  by_cases none : more = []
  · subst none
    obtain rfl : under = [] := others.arranged.eq_nil
    rw [List.nil_append] at behind
    refine ⟨core, gap ++ (commas ++ skipped), ?_, ?_, fun tokens left' follows => ?_⟩
    · rw [split, commad, behind]
      simp only [List.append_assoc]
    · rw [List.append_nil]
      exact first.arranged
    · obtain ⟨middle, beside, rear⟩ := follows.split
      obtain ⟨inner, comma, last⟩ := rear.split
      rw [List.append_assoc, ← behind, ← commad] at beside
      rw [← behind] at comma
      have skip := again middle inner comma
      refine .argument (goes' _) (first.again _ _ beside) ?_
      rw [skip]
      exact others.again inner left' last
  · have solid' := others.arranged.exists_solid none
    refine ⟨core ++ ((gap ++ commas) ++ under), skipped, ?_, ?_, fun tokens left' follows => ?_⟩
    · rw [split, commad, behind]
      simp only [List.append_assoc]
    · exact first.arranged.append others.arranged none (gap ++ commas)
    · have front : SameFront rest (commas ++ (under ++ tokens)) := by
        rw [commad, behind]
        exact (SameFront.of_solid solid' _ _).append commas
      have skip : skipComma (commas ++ (under ++ tokens)) = under ++ tokens := by
        refine again _ _ (.same ?_)
        rw [behind]
        exact .of_solid solid' _ _
      have whole := Derives.argument (goes' _) (first.again _ _ (.same front))
        (skip ▸ others.again tokens left' follows)
      simpa only [List.append_assoc] using whole

theorem extent_blockEnd (ends : opensDeeper indent (skipNewLines tokens) = false) :
    ∃ gap, tokens = [] ++ (gap ++ skipNewLines tokens) ∧
      Extent options .block indent [] gap [] (skipNewLines tokens) := by
  obtain ⟨breaks, split, newLines⟩ := takes_newLines tokens
  refine ⟨breaks, split, .nil, fun more left follows => ?_⟩
  have found : skipNewLines more = left ∧ opensDeeper indent left = false := by
    cases follows with
    | same front =>
        have other : (current left).kind ≠ .newLine := by
          rw [← front.here]
          exact current_skipNewLines_ne tokens
        exact ⟨skipNewLines_append newLines other, opensDeeper_congr front.here indent ▸ ends⟩
    | ended ends =>
        exact ⟨skipNewLines_cons_of_ne (by simp [ends]), by simp [opensDeeper, current, ends]⟩
  have whole : Derives options .block indent more [] (skipNewLines more) :=
    .blockEnd (by rw [found.1]; exact found.2)
  rwa [found.1] at whole

theorem extent_line {under skipped : List Token}
    (deeper : opensDeeper indent (skipNewLines tokens) = true)
    (first : Extent options .node indent core gap nodes rest)
    (split : skipNewLines tokens = core ++ (gap ++ rest)) (some : nodes ≠ [])
    (others : Extent options .block indent under skipped more left)
    (behind : rest = under ++ (skipped ++ left)) :
    ∃ inner outer, tokens = inner ++ (outer ++ left) ∧
      Extent options .block indent inner outer (nodes ++ more) left := by
  have solid := first.arranged.exists_solid some
  obtain ⟨breaks, broken, newLines⟩ := takes_newLines tokens
  have skip : ∀ tokens, skipNewLines (breaks ++ (core ++ tokens)) = core ++ tokens := by
    intro others
    refine skipNewLines_append newLines ?_
    rw [current_append solid others (gap ++ rest), ← split]
    exact current_skipNewLines_ne tokens
  have deeper' : ∀ tokens,
      opensDeeper indent (skipNewLines (breaks ++ (core ++ tokens))) = true := by
    intro tokens
    rwa [skip, opensDeeper_congr (current_append solid tokens (gap ++ rest)), ← split]
  by_cases none : more = []
  · subst none
    obtain rfl : under = [] := others.arranged.eq_nil
    rw [List.nil_append] at behind
    refine ⟨breaks ++ core, gap ++ skipped, ?_, ?_, fun tokens left' follows => ?_⟩
    · rw [broken, split, behind]
      simp only [List.append_assoc]
    · rw [List.append_nil]
      exact first.arranged.lead some breaks
    · obtain ⟨middle, beside, rear⟩ := follows.split
      rw [← behind] at beside
      rw [List.append_assoc]
      refine .line (deeper' _) ?_ (others.again middle left' rear)
      rw [skip]
      exact first.again _ _ beside
  · have solid' := others.arranged.exists_solid none
    refine ⟨breaks ++ (core ++ (gap ++ under)), skipped, ?_, ?_, fun tokens left' follows => ?_⟩
    · rw [broken, split, behind]
      simp only [List.append_assoc]
    · exact (first.arranged.append others.arranged none gap).lead (by simp [some]) breaks
    · have front : SameFront rest (under ++ tokens) := by
        rw [behind]
        exact .of_solid solid' _ _
      have whole := Derives.line (deeper' (gap ++ (under ++ tokens)))
        (by rw [skip]; exact first.again _ _ (.same front)) (others.again tokens left' follows)
      simpa only [List.append_assoc] using whole

end Rules

section Extents

variable {options : Options} {part : Part} {indent : Nat} {tokens rest : List Token}
  {nodes : List Node}

/-- Where the nodes of a rule stand in what it reads, and what it skips behind them. -/
theorem Derives.extent (derives : Derives options part indent tokens nodes rest)
    (ordered : Ordered tokens) : ∃ core gap, tokens = core ++ (gap ++ rest) ∧
      Extent options part indent core gap nodes rest := by
  induction derives with
  | @node indent tokens rest nodes inner ih =>
      obtain ⟨lead, taken, -⟩ := takes_indentation tokens
      rw [taken] at ordered
      obtain ⟨core, gap, split, extent⟩ := ih ordered.right
      obtain ⟨lead, whole, extent⟩ := extent_node extent split
      refine ⟨lead ++ core, gap, ?_, extent⟩
      rw [List.append_assoc]
      exact whole
  | constant literal => exact ⟨[_], [], rfl, extent_constant literal⟩
  | reference marked named => exact ⟨[_, _], [], rfl, extent_reference marked named⟩
  | name header alone => exact ⟨[_], [], rfl, extent_name header alone⟩
  | @element indent name tokens next after left inline below colon header parent beside ended
      under besideIh underIh =>
      have behind : Ordered tokens := ordered.sublist (List.sublist_cons_self name tokens)
      obtain ⟨core, gap, split, inlineExtent⟩ := besideIh behind
      obtain ⟨colons, colonExtent⟩ := headerColon?_colons ended
      have rear : Ordered after := by
        rw [split, colonExtent.split] at behind
        exact behind.right.right.right
      obtain ⟨lines, skipped, splitLines, linesExtent⟩ := underIh rear
      rw [split] at parent ordered ⊢
      by_cases some : colons ≠ [] ∨ below ≠ []
      · refine ⟨name :: (core ++ ((gap ++ colons) ++ lines)), skipped, ?_,
          extent_element header parent inlineExtent colonExtent linesExtent splitLines some ?_⟩
        · rw [colonExtent.split, splitLines]
          simp only [List.cons_append, List.append_assoc]
        · refine ordered.sublist (.cons_cons name ?_)
          rw [colonExtent.split, splitLines, List.append_assoc]
          refine .append_left (.append_left (.append_left ?_ colons) gap) core
          exact List.sublist_append_left lines (skipped ++ left)
      · obtain ⟨rfl, rfl⟩ : colons = [] ∧ below = [] := by simpa using some
        obtain rfl : lines = [] := linesExtent.arranged.eq_nil
        obtain rfl : colon = none := by simpa using colonExtent.same.symm
        obtain rfl : next = after := colonExtent.split
        refine ⟨name :: core, gap ++ skipped, ?_,
          extent_header header parent inlineExtent colonExtent linesExtent splitLines⟩
        rw [splitLines]
        simp only [List.cons_append, List.append_assoc, List.nil_append]
  | @property indent dot name tokens next left children colon node marked named ended held built
      ih =>
      obtain ⟨colons, colonExtent⟩ := colon?_colons ended
      have behind : Ordered next := by
        rw [colonExtent.split] at ordered
        exact ordered.sublist ((List.sublist_append_right colons next).cons name |>.cons dot)
      obtain ⟨core, gap, split, extent⟩ := ih behind
      refine ⟨dot :: name :: (colons ++ core), gap, ?_,
        extent_property marked named colonExtent extent built split⟩
      rw [colonExtent.split, split]
      simp only [List.cons_append, List.append_assoc]
  | argumentsEnd ends =>
      refine ⟨[], [], rfl, .nil, fun tokens left follows => ?_⟩
      have ends' : endsArguments (current left).kind = true := by
        rcases follows.current_or with same | ended
        · rwa [same]
        · rw [ended]
          rfl
      rw [follows.nil]
      exact .argumentsEnd ends'
  | @argument indent tokens rest left nodes more goes first others firstIh othersIh =>
      obtain ⟨core, gap, split, extent⟩ := firstIh ordered
      obtain ⟨commas, skipped, -⟩ := takes_comma rest
      have behind : Ordered (skipComma rest) := by
        rw [split, skipped] at ordered
        exact ordered.right.right.right
      obtain ⟨under, outer, splitOthers, extentOthers⟩ := othersIh behind
      obtain ⟨child, rfl, -⟩ := first.reads
      exact extent_argument goes extent split (List.cons_ne_nil child []) extentOthers splitOthers
  | @blockEnd indent tokens ends =>
      obtain ⟨gap, split, extent⟩ := extent_blockEnd ends
      exact ⟨[], gap, split, extent⟩
  | @line indent tokens rest left nodes more deeper first others firstIh othersIh =>
      obtain ⟨breaks, skipped, -⟩ := takes_newLines tokens
      rw [skipped] at ordered
      obtain ⟨core, gap, split, extent⟩ := firstIh ordered.right
      have behind : Ordered rest := by
        rw [split] at ordered
        exact ordered.right.right.right
      obtain ⟨under, outer, splitOthers, extentOthers⟩ := othersIh behind
      obtain ⟨child, rfl, -⟩ := first.reads
      exact extent_line deeper extent split (List.cons_ne_nil child []) extentOthers splitOthers

end Extents

end WidgetTree.Grammar
