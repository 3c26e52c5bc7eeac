import WidgetTree.Proofs.Grammar.Reported

/-!
Reading comes to an end on every row of tokens, lexed or not. Main definitions: `Proceeds`, a rule
comes to an end, never moves back and takes so many tokens, and `Progresses`, every loop and every
rule of the cursor does so. Main statement: `parse_ends`, they do from every place of a row, and
neither parse leaves the cursor further than behind the last token.
-/

namespace WidgetTree.Grammar

open Lexeme (Kind Token)
open WidgetTree.Tree (Leaf Node)

namespace Cursor

structure Inside (cursor : Cursor) : Prop where
  shut : cursor.row.getLast? = some cursor.last
  ends : cursor.last.kind = .endOfFile
  before : cursor.position < cursor.row.length

structure Onward (cursor after : Cursor) (least : Nat) : Prop where
  row : after.row = cursor.row
  last : after.last = cursor.last
  moves : cursor.position + least ≤ after.position
  bounded : after.position ≤ cursor.row.length

/-- The rule comes to an end. With a value it has taken at least so many tokens and stands in front
of another one. Where it fails it has not moved back and stands behind the last one at most. -/
inductive Proceeds {α : Type} (cursor : Cursor) (rule : Rule α) (least : Nat) : Prop
  | value {value : α} {after : Cursor} (runs : Runs rule cursor (.ok value) after)
      (onward : Onward cursor after least) (inside : after.Inside)
  | failure {problem : Problem} {after : Cursor} (runs : Runs rule cursor (.error problem) after)
      (onward : Onward cursor after 0)

/-- From here both loops over line breaks find another token, and every rule comes to an end. A node
takes a token, so that a list of nodes goes on only as long as there are some. -/
structure Progresses (cursor : Cursor) : Prop where
  newLines : ∃ after, cursor.pastNewLines = some after ∧ (after.look 0).kind ≠ .newLine ∧
    cursor.position ≤ after.position ∧ after.position < cursor.row.length
  ahead : ∀ offset : Nat, ∃ token, cursor.lookPast offset = some token ∧ token.kind ≠ .newLine
  expect : ∀ kinds, .endOfFile ∉ kinds → cursor.Proceeds (expect kinds) 1
  node : ∀ level, cursor.Proceeds (Level.node level) 1
  content : ∀ level, cursor.Proceeds (Level.content level) 1
  element : ∀ level, cursor.Proceeds (Level.element level) 1
  property : ∀ level, cursor.Proceeds (Level.property level) 1
  values : ∀ level, cursor.Proceeds (Level.values level) 0
  arguments : ∀ level, cursor.Proceeds (Level.arguments level) 0
  block : ∀ level, cursor.Proceeds (Level.block level) 0

def left (cursor : Cursor) : Nat := cursor.row.length - cursor.position

variable {α β : Type} {least more : Nat} {cursor later after : Cursor} {rule : Rule α}
  {next : α → Rule β}

section Judgement

namespace Onward

theorem refl (inside : cursor.Inside) : Onward cursor cursor 0 :=
  ⟨rfl, rfl, Nat.le_refl _, inside.before.le⟩

theorem trans (first : Onward cursor later least) (second : Onward later after more) :
    Onward cursor after (least + more) where
  row := second.row.trans first.row
  last := second.last.trans first.last
  moves := by
    have := first.moves
    have := second.moves
    omega
  bounded := by
    rw [← first.row]
    exact second.bounded

theorem weaken (onward : Onward cursor after least) : Onward cursor after 0 :=
  ⟨onward.row, onward.last, (Nat.add_le_add_left (Nat.zero_le least) _).trans onward.moves,
    onward.bounded⟩

theorem left_le (onward : Onward cursor after least) : after.left + least ≤ cursor.left := by
  have := onward.moves
  have := onward.bounded
  rw [left, left, onward.row]
  omega

theorem inside (onward : Onward cursor after least) (inside : cursor.Inside)
    (before : after.position < cursor.row.length) : after.Inside where
  shut := by rw [onward.row, onward.last, inside.shut]
  ends := by rw [onward.last, inside.ends]
  before := by rwa [onward.row]

end Onward

namespace Proceeds

theorem bind_add (first : Proceeds cursor rule least)
    (second : ∀ value after, Onward cursor after least → after.Inside →
      Proceeds after (next value) more) : Proceeds cursor (rule >>= next) (least + more) := by
  cases first with
  | value runs onward inside =>
      cases second _ _ onward inside with
      | value runs' onward' inside' => exact .value (runs.bind runs') (onward.trans onward') inside'
      | failure runs' onward' => exact .failure (runs.bind runs') (onward.trans onward').weaken
  | failure runs onward => exact .failure runs.bind_error onward

theorem bind (first : Proceeds cursor rule least)
    (second : ∀ value after, Onward cursor after least → after.Inside →
      Proceeds after (next value) 0) : Proceeds cursor (rule >>= next) least :=
  first.bind_add second

theorem onto (first : Proceeds cursor rule 0)
    (second : ∀ value after, Onward cursor after 0 → after.Inside →
      Proceeds after (next value) least) : Proceeds cursor (rule >>= next) least := by
  have both := first.bind_add second
  rwa [Nat.zero_add] at both

theorem returning (first : Proceeds cursor rule least) (result : α → β) :
    Proceeds cursor (rule >>= fun value => pure (result value)) least := by
  cases first with
  | value runs onward inside => exact .value (runs.bind (runs_pure _ _)) onward inside
  | failure runs onward => exact .failure runs.bind_error onward

theorem still {value : α} (runs : Runs rule cursor (.ok value) cursor)
    (second : Proceeds cursor (next value) least) : Proceeds cursor (rule >>= next) least := by
  cases second with
  | value runs' onward inside => exact .value (runs.bind runs') onward inside
  | failure runs' onward => exact .failure (runs.bind runs') onward

theorem weaken (proceeds : Proceeds cursor rule least) : Proceeds cursor rule 0 := by
  cases proceeds with
  | value runs onward inside => exact .value runs onward.weaken inside
  | failure runs onward => exact .failure runs onward

end Proceeds

end Judgement

section Tokens

variable (inside : cursor.Inside)
include inside

theorem proceeds_pure (value : α) : Proceeds cursor (pure value) 0 :=
  .value (runs_pure _ _) (.refl inside) inside

theorem proceeds_fail (problem : Problem) : Proceeds cursor (fail problem : Rule α) least :=
  .failure (runs_fail _ _) ⟨rfl, rfl, Nat.le_refl _, inside.before.le⟩

theorem before_last (going : (cursor.look 0).kind ≠ .endOfFile) :
    cursor.position + 1 < cursor.row.length := by
  rcases Nat.lt_or_eq_of_le (Nat.succ_le_of_lt inside.before) with before | final
  · exact before
  · have atEnd := inside.shut
    rw [List.getLast?_eq_getElem?, ← final, Nat.succ_sub_one] at atEnd
    rw [look_eq cursor.position (Int.add_zero _), atEnd] at going
    exact absurd inside.ends going

theorem onward_moved : Onward cursor cursor.moved 1 :=
  ⟨rfl, rfl, Nat.le_refl _, inside.before⟩

theorem inside_moved (going : (cursor.look 0).kind ≠ .endOfFile) : cursor.moved.Inside :=
  (onward_moved inside).inside inside (before_last inside going)

theorem proceeds_advance (going : (cursor.look 0).kind ≠ .endOfFile) :
    Proceeds cursor advance 1 :=
  .value (runs_advance _) (onward_moved inside) (inside_moved inside going)

theorem proceeds_bump (going : (cursor.look 0).kind ≠ .endOfFile) : Proceeds cursor bump 1 :=
  .still (runs_peek _ _) ((proceeds_advance inside going).returning _)

theorem proceeds_unexpected (expected : String) :
    Proceeds cursor (unexpected expected : Rule α) least :=
  .failure ((runs_advance _).bind ((runs_peek _ _).bind (runs_fail _ _)))
    ⟨rfl, rfl, Nat.le_succ _, inside.before⟩

theorem proceeds_expect {kinds : List Kind} (goes : .endOfFile ∉ kinds) :
    Proceeds cursor (expect kinds) 1 := by
  refine .still (runs_peek _ _) ?_
  split
  · next listed =>
      refine proceeds_bump inside fun stop => goes ?_
      rw [← stop]
      exact List.contains_iff_mem.mp listed
  · exact proceeds_unexpected inside _

theorem proceeds_colon? : Proceeds cursor colon? 0 := by
  refine .still (runs_get _) (.still (runs_peek _ _) ?_)
  split
  · exact ((proceeds_expect inside (by decide)).returning _).weaken
  · exact proceeds_pure inside _

theorem proceeds_headerColon? (inline : List Node) : Proceeds cursor (headerColon? inline) 0 := by
  refine .still (runs_peek _ _) ?_
  split
  · exact proceeds_pure inside _
  · exact proceeds_colon? inside

theorem proceeds_reference (leaf : Leaf) {mark : Kind} (goes : mark ≠ .endOfFile) :
    Proceeds cursor (reference leaf mark) 1 :=
  (proceeds_expect inside (by simpa using goes.symm)).bind fun _ _ _ inside =>
    ((proceeds_expect inside (by decide)).returning _).weaken

theorem proceeds_constant : Proceeds cursor constant 1 := by
  refine .still (runs_peek _ _) ?_
  split
  · next kind literal =>
      refine (proceeds_bump inside fun stop => ?_).returning _
      simp [constant?, stop] at literal
  · exact proceeds_unexpected inside _

theorem proceeds_skipComma : Proceeds cursor skipComma 0 := by
  refine .still (runs_peek _ _) ?_
  split
  · next comma => exact (proceeds_advance inside (by rw [comma]; decide)).weaken
  · exact proceeds_pure inside _

theorem proceeds_line (level : Level) : Proceeds cursor level.line 0 := by
  refine .still (runs_peek _ _) ?_
  split
  · next indentation =>
      exact ((proceeds_bump inside (by rw [indentation]; decide)).returning _).weaken
  · exact proceeds_pure inside _

end Tokens

section Loops

theorem pastNewLines_ends (cursor : Cursor) (inside : cursor.Inside) :
    ∃ after, cursor.pastNewLines = some after ∧ Onward cursor after 0 ∧ after.Inside ∧
      (after.look 0).kind ≠ .newLine := by
  rw [pastNewLines]
  split
  · next line =>
      have going : (cursor.look 0).kind ≠ .endOfFile := by rw [line]; decide
      have moves := onward_moved inside
      have := moves.left_le
      obtain ⟨after, passes, onward, inside', other⟩ :=
        pastNewLines_ends cursor.moved (inside_moved inside going)
      exact ⟨after, passes, (moves.trans onward).weaken, inside', other⟩
  · next other => exact ⟨cursor, rfl, .refl inside, inside, other⟩
termination_by cursor.left

theorem lookPast_ends (cursor : Cursor) (inside : cursor.Inside) (offset : Nat) :
    ∃ token, cursor.lookPast offset = some token ∧ token.kind ≠ .newLine := by
  rw [lookPast]
  split
  · next line =>
      have within : cursor.position + offset < cursor.row.length := by
        rw [look_eq (cursor.position + offset) (Int.natCast_add ..).symm] at line
        by_contra beyond
        rw [List.getElem?_eq_none (Nat.not_lt.mp beyond), Option.getD_none, inside.ends] at line
        cases line
      exact lookPast_ends cursor inside (offset + 1)
  · next other => exact ⟨_, rfl, other⟩
termination_by cursor.row.length - (cursor.position + offset)

variable (inside : cursor.Inside)
include inside

theorem proceeds_skipNewLines : Proceeds cursor skipNewLines 0 := by
  obtain ⟨after, passes, onward, inside', -⟩ := pastNewLines_ends cursor inside
  exact .value ((runs_get _).bind ((runs_lift passes).bind rfl)) onward inside'

theorem proceeds_standsAlone (level : Level) : Proceeds cursor level.standsAlone 0 := by
  refine .still (runs_peek _ _) ?_
  split
  · exact proceeds_pure inside true
  · exact proceeds_pure inside true
  · obtain ⟨token, seen, -⟩ := lookPast_ends cursor inside 1
    exact .still ((runs_get _).bind (runs_lift seen)) (proceeds_pure inside _)
  · exact proceeds_pure inside false

end Loops

section Rules

-- Less of the row is left each time, or as much and the rule is one that another one begins with.
mutual

theorem proceeds_node (cursor : Cursor) (inside : cursor.Inside) (level : Level) :
    Proceeds cursor level.node 1 := by
  rw [Level.node]
  refine (proceeds_line inside level).onto fun inner after onward inside => ?_
  have := onward.left_le
  exact proceeds_content after inside inner
termination_by 5 * cursor.left + 2

theorem proceeds_content (cursor : Cursor) (inside : cursor.Inside) (level : Level) :
    Proceeds cursor level.content 1 := by
  rw [Level.content]
  refine .still (runs_peek _ _) ?_
  split
  · exact proceeds_constant inside
  · split
    · exact proceeds_property cursor inside level
    · exact proceeds_reference inside .call (by decide)
    · exact proceeds_reference inside .callback (by decide)
    · exact proceeds_element cursor inside level
termination_by 5 * cursor.left + 1

theorem proceeds_element (cursor : Cursor) (inside : cursor.Inside) (level : Level) :
    Proceeds cursor level.element 1 := by
  have header : Proceeds cursor (expect [.identifier, .widget]) 1 :=
    proceeds_expect inside (by decide)
  rw [Level.element]
  refine header.bind fun name after onward inside => ?_
  have := onward.left_le
  refine (proceeds_standsAlone inside level).bind fun alone after onward inside => ?_
  have := onward.left_le
  split
  · exact proceeds_pure inside _
  · refine (proceeds_arguments after inside level).bind fun inline after onward inside => ?_
    have := onward.left_le
    refine .still (runs_peek _ _) ?_
    split
    · exact proceeds_pure inside _
    · refine (proceeds_headerColon? inside inline).bind fun colon after onward inside => ?_
      have := onward.left_le
      exact (proceeds_block after inside level).returning _
termination_by 5 * cursor.left

theorem proceeds_property (cursor : Cursor) (inside : cursor.Inside) (level : Level) :
    Proceeds cursor level.property 1 := by
  have mark : Proceeds cursor (expect [.dot]) 1 := proceeds_expect inside (by decide)
  rw [Level.property]
  refine mark.bind fun dot after onward inside => ?_
  have := onward.left_le
  have header : Proceeds after (expect [.identifier]) 1 := proceeds_expect inside (by decide)
  refine header.weaken.bind fun name after onward inside => ?_
  have := onward.left_le
  refine (proceeds_colon? inside).bind fun colon after onward inside => ?_
  have := onward.left_le
  refine (proceeds_values after inside level).bind fun children after onward inside => ?_
  split
  · exact proceeds_pure inside _
  · exact proceeds_fail inside _
termination_by 5 * cursor.left

theorem proceeds_values (cursor : Cursor) (inside : cursor.Inside) (level : Level) :
    Proceeds cursor level.values 0 := by
  rw [Level.values]
  refine .still (runs_peek _ _) ?_
  split
  · exact proceeds_block cursor inside level
  · exact ((proceeds_node cursor inside level).returning _).weaken
termination_by 5 * cursor.left + 4

theorem proceeds_arguments (cursor : Cursor) (inside : cursor.Inside) (level : Level) :
    Proceeds cursor level.arguments 0 := by
  rw [Level.arguments]
  refine .still (runs_peek _ _) ?_
  split
  · exact proceeds_pure inside _
  · refine ((proceeds_node cursor inside level).bind fun child after onward inside => ?_).weaken
    have := onward.left_le
    refine (proceeds_skipComma inside).bind fun _ after onward inside => ?_
    have := onward.left_le
    exact (proceeds_arguments after inside level).returning _
termination_by 5 * cursor.left + 3

theorem proceeds_block (cursor : Cursor) (inside : cursor.Inside) (level : Level) :
    Proceeds cursor level.block 0 := by
  rw [Level.block]
  refine (proceeds_skipNewLines inside).onto fun _ after onward inside => ?_
  have := onward.left_le
  refine .still (runs_peek _ _) ?_
  split
  · refine ((proceeds_node after inside level).bind fun child after onward inside => ?_).weaken
    have := onward.left_le
    exact (proceeds_block after inside level).returning _
  · exact proceeds_pure inside _
termination_by 5 * cursor.left + 3

end

theorem Inside.progresses (inside : cursor.Inside) : Progresses cursor where
  newLines := by
    obtain ⟨after, passes, onward, inside', other⟩ := pastNewLines_ends cursor inside
    exact ⟨after, passes, other, onward.moves, onward.row ▸ inside'.before⟩
  ahead := lookPast_ends cursor inside
  expect _ goes := proceeds_expect inside goes
  node level := proceeds_node cursor inside level
  content level := proceeds_content cursor inside level
  element level := proceeds_element cursor inside level
  property level := proceeds_property cursor inside level
  values level := proceeds_values cursor inside level
  arguments level := proceeds_arguments cursor inside level
  block level := proceeds_block cursor inside level

end Rules

end Cursor

/-- Both parses come to an end on every row of tokens and stop behind its last token at the latest.
So do all loops and rules, from wherever in the row they begin. -/
theorem parse_ends (text : String) (options : Options) (tokens : List Token) :
    (∀ log, ∃ outcome after, runDocument text options tokens log = some (outcome, after) ∧
      after.position ≤ (significant tokens).length) ∧
    (∃ outcome after, runFragment text options tokens = some (outcome, after) ∧
      after.position ≤ (significant tokens).length) ∧
    ∀ log place, place < (significant tokens).length →
      Cursor.Progresses { Cursor.start text options tokens log with position := place } := by
  refine ⟨fun log => ?_, ?_, fun log place inside => ?_⟩
  · obtain ⟨after, runs, stops, -⟩ := runDocument_ends text options tokens log
    exact ⟨_, after, runs, stops⟩
  · obtain ⟨after, runs, stops, -⟩ := runFragment_ends text options tokens
    exact ⟨_, after, runs, stops⟩
  · obtain ⟨last, atEnd, ends⟩ := exists_closed_getLast? (significantFrom none tokens)
    have seen : (Cursor.start text options tokens log).last = last := by
      simp only [Cursor.start, significant, atEnd, Option.getD_some]
    refine Cursor.Inside.progresses ⟨?_, ?_, inside⟩
    · rw [seen]
      exact atEnd
    · rw [seen]
      exact ends

/-- A row that no text gives: behind an end of the file stand an indentation and a mark. -/
theorem parse_ends_behind :
    ∃ tokens : List Token, (tokens.getLast?.any (·.kind = .endOfFile)) = false ∧
      2 < (significant tokens).length ∧
      (∃ outcome after, runFragment "" {} tokens = some (outcome, after) ∧
        after.position ≤ (significant tokens).length) ∧
      Cursor.Progresses { Cursor.start "" {} tokens [] with position := 2 } := by
  let tokens : List Token := [⟨.endOfFile, "", {}⟩, ⟨.indentation, "  ", {}⟩, ⟨.dot, ".", {}⟩]
  have inside : 2 < (significant tokens).length := by decide
  obtain ⟨-, fragment, places⟩ := parse_ends "" {} tokens
  exact ⟨tokens, rfl, inside, fragment, places [] 2 inside⟩

end WidgetTree.Grammar
