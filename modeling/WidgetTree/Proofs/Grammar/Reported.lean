import WidgetTree.Proofs.Grammar.Cursor

/-!
A failure is reported once, where it is found. Main definition: `ReportedOnce`, what a reading
leaves in the log and where its cursor stops. Main statement: `failure_reported_once`, the cursor
comes to the outcome of `parseDocument` or `parseFragment` on every row of tokens, and logs just
that.
-/

namespace WidgetTree.Grammar

open Lexeme (Token)
open WidgetTree.Tree (Document Node WidgetKind)

/-- The log that was there is kept as it is by a success, and a failure adds one report to it. Where
a token did not fit, the cursor has taken those in front of it, and the problem is with that one. -/
def ReportedOnce {α : Type} (row : List Token) (log : Log) (outcome : Except Problem α)
    (after : Cursor) : Prop :=
  match outcome with
  | .ok _ => after.log = log
  | .error problem =>
      (∃ report : Report, after.log = log ++ [report] ∧ report.message = problem.cause.message ∧
        report.severity = problem.severity ∧ report.span = problem.span) ∧
      ∀ found expected, problem.cause = .unexpectedToken found expected →
        ∃ taken token left, row = taken ++ token :: left ∧
          after.position = taken.length + 1 ∧ found = token.quote ∧ problem.span = token.span

namespace Cursor

def Concludes {α : Type} (cursor : Cursor) (rule : Rule α) (tokens : List Token) :
    Except Problem α → Prop
  | .ok value => ∃ left, Runs rule (cursor.facing tokens) (.ok value) (cursor.facing left)
  | .error problem =>
      ∃ left, Passed cursor.row problem left ∧
        Runs rule (cursor.facing tokens) (.error problem) ((cursor.facing left).noting problem)

variable {α β : Type} {bound : Nat} {cursor : Cursor} {tokens rest : List Token}
variable {problem : Problem} {rule : Rule α} {next : α → Rule β}

section Concludes

theorem skip_facing (suffix : tokens <:+ cursor.row) (ended : Ended tokens) :
    Grammar.skipNewLines tokens <:+ cursor.row ∧ Ended (Grammar.skipNewLines tokens) := by
  have leaves := (takes_newLines tokens).leaves (by decide)
  exact ⟨leaves.suffix.trans suffix, leaves.ended ended⟩

theorem Concludes.after {value : α} {outcome : Except Problem β}
    (first : Runs rule (cursor.facing tokens) (.ok value) (cursor.facing rest))
    (second : Concludes cursor (next value) rest outcome) :
    Concludes cursor (rule >>= next) tokens outcome := by
  cases outcome with
  | ok value =>
      obtain ⟨left, runs⟩ := second
      exact ⟨left, first.bind runs⟩
  | error problem =>
      obtain ⟨left, passed, runs⟩ := second
      exact ⟨left, passed, first.bind runs⟩

theorem Concludes.bind {first : Result α bound} {second : Reading α bound → Except Problem β}
    (reads : Reads cursor rule tokens first)
    (further : ∀ read, read.rest <:+ cursor.row → Ended read.rest →
      Concludes cursor (next read.value) read.rest (second read)) :
    Concludes cursor (rule >>= next) tokens (first >>= second) := by
  cases first with
  | ok read =>
      obtain ⟨suffix, ended, runs⟩ := reads
      exact .after runs (further read suffix ended)
  | error problem =>
      obtain ⟨left, passed, runs⟩ := reads
      exact ⟨left, passed, runs.bind_error⟩

theorem concludes_fail (other : ∀ found expected, problem.cause ≠ .unexpectedToken found expected) :
    Concludes cursor (fail problem : Rule α) tokens (.error problem) :=
  ⟨tokens, fun _ _ same => absurd same (other _ _), runs_fail _ _⟩

theorem concludes_end (value : α) (suffix : tokens <:+ cursor.row) (ended : Ended tokens) :
    Concludes cursor (skipNewLines >>= fun _ => expect [.endOfFile] >>= fun _ => pure value) tokens
      (expectEnd tokens >>= fun _ => pure value) := by
  refine .after (skipNewLines_facing suffix ended) ?_
  obtain ⟨suffix, ended⟩ := skip_facing suffix ended
  obtain ⟨token, rest, left⟩ := ended.exists_cons
  rw [left] at suffix ended
  rw [expectEnd, left, Grammar.expect]
  split
  · next listed => exact ⟨rest, (expect_facing listed suffix ended).bind (runs_pure _ _)⟩
  · next missing =>
      obtain ⟨past, passed, runs⟩ := expect_misfit 0 missing suffix ended
      exact ⟨past, passed, runs.bind_error⟩

end Concludes

section Documents

theorem concludes_document (cursor : Cursor) (suffix : tokens <:+ cursor.row)
    (ended : Ended tokens) :
    Concludes cursor document tokens (Grammar.document cursor.options tokens) := by
  refine .after (skipNewLines_facing suffix ended) ?_
  obtain ⟨suffix, ended⟩ := skip_facing suffix ended
  refine .bind (reads_expect _ (by decide) suffix ended) fun root suffix ended => ?_
  cases WidgetKind.ofName? root.value.value with
  | none => exact concludes_fail nofun
  | some kind =>
  refine .after (skipNewLines_facing suffix ended) ?_
  obtain ⟨suffix, ended⟩ := skip_facing suffix ended
  refine .bind (reads_property 0 _ suffix ended) fun first suffix ended => ?_
  cases viewModel? first.value with
  | none => exact concludes_fail nofun
  | some viewModel =>
  refine .bind (reads_expect _ (by decide) suffix ended) fun comma suffix ended => ?_
  refine .after (skipNewLines_facing suffix ended) ?_
  obtain ⟨suffix, ended⟩ := skip_facing suffix ended
  refine .bind (reads_property 0 _ suffix ended) fun second suffix ended => ?_
  cases view? second.value with
  | none => exact concludes_fail nofun
  | some view =>
  dsimp only
  split
  · exact concludes_end _ suffix ended
  · exact concludes_fail nofun

theorem concludes_fragment (cursor : Cursor) (suffix : tokens <:+ cursor.row)
    (ended : Ended tokens) :
    Concludes cursor fragment tokens (Grammar.fragment cursor.options tokens) := by
  refine .after (skipNewLines_facing suffix ended) ?_
  obtain ⟨suffix, ended⟩ := skip_facing suffix ended
  refine .bind (reads_node 0 _ suffix ended) fun read suffix ended => ?_
  refine .after (skipComma_facing suffix ended) ?_
  have leaves := (takes_comma read.rest).leaves (by decide)
  exact concludes_end _ (leaves.suffix.trans suffix) (leaves.ended ended)

end Documents

theorem Concludes.reportedOnce {outcome : Except Problem α}
    (concludes : Concludes cursor rule tokens outcome) :
    ∃ after, Runs rule (cursor.facing tokens) outcome after ∧
      ReportedOnce cursor.row cursor.log outcome after := by
  cases outcome with
  | ok value =>
      obtain ⟨left, runs⟩ := concludes
      exact ⟨_, runs, rfl⟩
  | error problem =>
      obtain ⟨left, passed, runs⟩ := concludes
      refine ⟨_, runs, ⟨problem.report cursor.text, rfl, rfl, rfl, rfl⟩, ?_⟩
      intro found expected same
      obtain ⟨token, ⟨taken, split⟩, quoted, place⟩ := passed found expected same
      refine ⟨taken, token, left, split.symm, ?_, quoted, place⟩
      simp [noting, facing, ← split]
      omega

theorem Concludes.ends {outcome : Except Problem α}
    (concludes : Concludes cursor rule tokens outcome) :
    ∃ after, Runs rule (cursor.facing tokens) outcome after ∧
      after.position ≤ cursor.row.length ∧
      after.log = cursor.log ++ reports cursor.text outcome := by
  cases outcome with
  | ok value =>
      obtain ⟨left, runs⟩ := concludes
      exact ⟨_, runs, Nat.sub_le .., (List.append_nil _).symm⟩
  | error problem =>
      obtain ⟨left, -, runs⟩ := concludes
      exact ⟨_, runs, Nat.sub_le .., rfl⟩

theorem start_facing (text : String) (options : Options) (tokens : List Token) (log : Log) :
    (start text options tokens log).facing (start text options tokens log).row =
      start text options tokens log := by
  simp [facing, start]

end Cursor

theorem exists_closed_getLast? (tokens : List Token) :
    ∃ last, (closed tokens).getLast? = some last ∧ last.kind = .endOfFile := by
  rw [closed]
  cases atEnd : tokens.getLast? with
  | none => exact ⟨endAfter none, by simp, rfl⟩
  | some last =>
      split
      · next ends => exact ⟨last, atEnd, of_decide_eq_true ends⟩
      · exact ⟨endAfter (some last), by simp, rfl⟩

theorem ended_closed (tokens : List Token) : Ended (closed tokens) := by
  obtain ⟨last, atEnd, ends⟩ := exists_closed_getLast? tokens
  exact ⟨last, List.mem_of_getLast? atEnd, ends⟩

theorem runDocument_ends (text : String) (options : Options) (tokens : List Token) (log : Log) :
    ∃ after, runDocument text options tokens log = some (parseDocument options tokens, after) ∧
      after.position ≤ (significant tokens).length ∧
      after.log = log ++ reports text (parseDocument options tokens) := by
  have concludes := (Cursor.concludes_document (.start text options tokens log) List.suffix_rfl
    (ended_closed _)).ends
  rw [Cursor.start_facing] at concludes
  exact concludes

theorem runFragment_ends (text : String) (options : Options) (tokens : List Token) :
    ∃ after, runFragment text options tokens = some (parseFragment options tokens, after) ∧
      after.position ≤ (significant tokens).length ∧
      after.log = reports text (parseFragment options tokens) := by
  have concludes := (Cursor.concludes_fragment (.start text options tokens []) List.suffix_rfl
    (ended_closed _)).ends
  rw [Cursor.start_facing] at concludes
  exact concludes

/-- On every row of tokens, lexed or not, the grammar comes to an end. A document or a node leaves
the log as it was; a failure adds one report, with the text, the severity and the place of the
problem that is handed out. Where a token does not fit, it is the first that was not taken. -/
theorem failure_reported_once (text : String) (options : Options) (tokens : List Token) :
    (∀ log, ∃ after,
      runDocument text options tokens log = some (parseDocument options tokens, after) ∧
      ReportedOnce (significant tokens) log (parseDocument options tokens) after) ∧
    ∃ after, runFragment text options tokens = some (parseFragment options tokens, after) ∧
      ReportedOnce (significant tokens) [] (parseFragment options tokens) after := by
  have start (log : Log) : (Cursor.start text options tokens log).facing
      (Cursor.start text options tokens log).row = Cursor.start text options tokens log := by
    simp [Cursor.facing, Cursor.start]
  constructor
  · intro log
    have concludes := (Cursor.concludes_document (.start text options tokens log)
      List.suffix_rfl (ended_closed _)).reportedOnce
    rw [start log] at concludes
    exact concludes
  · have concludes := (Cursor.concludes_fragment (.start text options tokens [])
      List.suffix_rfl (ended_closed _)).reportedOnce
    rw [start []] at concludes
    exact concludes

end WidgetTree.Grammar
