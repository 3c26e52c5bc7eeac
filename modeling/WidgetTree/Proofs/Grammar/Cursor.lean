import WidgetTree.Grammar.Cursor
import WidgetTree.Proofs.Grammar.Stuck

namespace WidgetTree.Grammar

open Lexeme (Kind Token)
open WidgetTree.Tree (Document Leaf Node Property WidgetKind)

theorem Ended.exists_cons {tokens : List Token} (ended : Ended tokens) :
    ∃ token rest, tokens = token :: rest := by
  obtain ⟨token, member, -⟩ := ended
  exact List.exists_cons_of_ne_nil (List.ne_nil_of_mem member)

namespace Cursor

/-- The cursor in front of the tokens that are left. -/
def facing (cursor : Cursor) (left : List Token) : Cursor :=
  { cursor with position := cursor.row.length - left.length }

def noting (cursor : Cursor) (problem : Problem) : Cursor :=
  { cursor with log := cursor.log ++ [problem.report cursor.text] }

def Runs {α : Type} (rule : Rule α) (cursor : Cursor) (outcome : Except Problem α)
    (after : Cursor) : Prop :=
  rule.run.run cursor = some (outcome, after)

def Passed (row : List Token) (problem : Problem) (left : List Token) : Prop :=
  ∀ found expected, problem.cause = .unexpectedToken found expected →
    ∃ token, token :: left <:+ row ∧ found = token.quote ∧ problem.span = token.span

/-- In front of the tokens, the rule comes to what is read of them. -/
def Reads {α : Type} {bound : Nat} (cursor : Cursor) (rule : Rule α) (tokens : List Token) :
    Result α bound → Prop
  | .ok read =>
      read.rest <:+ cursor.row ∧ Ended read.rest ∧
        Runs rule (cursor.facing tokens) (.ok read.value) (cursor.facing read.rest)
  | .error problem =>
      ∃ left, Passed cursor.row problem left ∧
        Runs rule (cursor.facing tokens) (.error problem) ((cursor.facing left).noting problem)

variable {α β : Type} {bound limit : Nat} {cursor later final : Cursor} {tokens rest : List Token}
variable {token : Token} {problem : Problem} {rule : Rule α} {next : α → Rule β}
variable {options : Options} {indent : Nat}

section Runs

theorem Runs.bind {value : α} {outcome : Except Problem β}
    (first : Runs rule cursor (.ok value) later)
    (second : Runs (next value) later outcome final) :
    Runs (rule >>= next) cursor outcome final := by
  unfold Runs at first second ⊢
  simp only [ExceptT.run_bind, StateT.run_bind, first, Option.bind_eq_bind, Option.bind_some]
  exact second

theorem Runs.bind_error (first : Runs rule cursor (.error problem) later) :
    Runs (rule >>= next) cursor (.error problem) later := by
  unfold Runs at first ⊢
  simp only [ExceptT.run_bind, StateT.run_bind, first, Option.bind_eq_bind, Option.bind_some]
  rfl

theorem runs_pure (cursor : Cursor) (value : α) : Runs (pure value) cursor (.ok value) cursor := rfl

theorem runs_get (cursor : Cursor) : Runs get cursor (.ok cursor) cursor := rfl

theorem runs_peek (cursor : Cursor) (offset : Int) :
    Runs (peek offset) cursor (.ok (cursor.look offset)) cursor := rfl

theorem runs_advance (cursor : Cursor) :
    Runs advance cursor (.ok ()) cursor.moved := rfl

theorem runs_lift {step : Option α} {value : α} (steps : step = some value) :
    Runs (liftM step) cursor (.ok value) cursor := by
  rw [steps]
  rfl

theorem runs_fail (cursor : Cursor) (problem : Problem) :
    Runs (fail problem : Rule α) cursor (.error problem) (cursor.noting problem) := rfl

end Runs

section Places

theorem facing_position (suffix : token :: rest <:+ cursor.row) :
    (cursor.facing (token :: rest)).position + 1 = (cursor.facing rest).position := by
  have := suffix.length_le
  simp only [facing, List.length_cons] at this ⊢
  omega

theorem moved_facing (suffix : token :: rest <:+ cursor.row) :
    (cursor.facing (token :: rest)).moved = cursor.facing rest := by
  rw [moved, facing_position suffix]
  rfl

theorem advance_facing (suffix : token :: rest <:+ cursor.row) :
    Runs advance (cursor.facing (token :: rest)) (.ok ()) (cursor.facing rest) := by
  have moves := runs_advance (cursor.facing (token :: rest))
  rw [moved_facing suffix] at moves
  exact moves

theorem look_eq {offset : Int} (place : Nat) (there : (cursor.position : Int) + offset = place) :
    cursor.look offset = cursor.row[place]?.getD cursor.last := by
  rw [look, there]

theorem look_facing (suffix : tokens <:+ cursor.row) {ahead : Nat}
    (inside : ahead < tokens.length) :
    (cursor.facing tokens).look ahead = current (tokens.drop ahead) := by
  obtain ⟨front, split⟩ := suffix
  have there : ((cursor.facing tokens).position : Int) + ahead = (front.length + ahead : Nat) := by
    simp [facing, ← split]
  rw [look_eq _ there]
  change cursor.row[front.length + ahead]?.getD _ = _
  rw [← split, List.getElem?_append_right (Nat.le_add_right ..), Nat.add_sub_cancel_left,
    List.drop_eq_getElem_cons inside, List.getElem?_eq_getElem inside]
  rfl

theorem look_zero (suffix : token :: rest <:+ cursor.row) :
    (cursor.facing (token :: rest)).look 0 = token :=
  look_facing suffix (Nat.succ_pos _)

theorem look_back (suffix : token :: rest <:+ cursor.row) :
    (cursor.facing rest).look (-1) = token := by
  have step := facing_position suffix
  have back : (cursor.facing rest).look (-1) = (cursor.facing (token :: rest)).look 0 := by
    rw [look_eq (cursor.facing (token :: rest)).position (by omega),
      look_eq (cursor.facing (token :: rest)).position (by omega)]
    rfl
  rw [back, look_zero suffix]

end Places

section Reads

theorem Reads.after {value : α} {result : Result β bound}
    (first : Runs rule (cursor.facing tokens) (.ok value) (cursor.facing rest))
    (second : Reads cursor (next value) rest result) :
    Reads cursor (rule >>= next) tokens result := by
  cases result with
  | ok read => exact ⟨second.1, second.2.1, first.bind second.2.2⟩
  | error problem =>
      obtain ⟨left, passed, runs⟩ := second
      exact ⟨left, passed, first.bind runs⟩

theorem Reads.ok {first : Result α bound} {second : Result β limit} {read : Reading α bound}
    (reads : Reads cursor rule tokens first) (ran : first = .ok read)
    (further : read.rest <:+ cursor.row → Ended read.rest →
      Reads cursor (next read.value) read.rest second) :
    Reads cursor (rule >>= next) tokens second := by
  subst ran
  exact .after reads.2.2 (further reads.1 reads.2.1)

theorem Reads.error {first : Result α bound} (reads : Reads cursor rule tokens first)
    (failed : first = .error problem) :
    Reads cursor (rule >>= next) tokens (.error problem : Result β limit) := by
  subst failed
  obtain ⟨left, passed, runs⟩ := reads
  exact ⟨left, passed, runs.bind_error⟩

theorem Reads.bounded {first : Result α bound} {read : Reading α bound}
    {shorter : read.rest.length < limit} (reads : Reads cursor rule tokens first)
    (ran : first = .ok read) :
    Reads cursor rule tokens (.ok ⟨read.value, read.rest, shorter⟩ : Result α limit) := by
  subst ran
  exact reads

theorem Reads.failed {first : Result α bound} (reads : Reads cursor rule tokens first)
    (failed : first = .error problem) :
    Reads cursor rule tokens (.error problem : Result α limit) := by
  subst failed
  exact reads

theorem reads_pure {value : α} {shorter : rest.length < bound} (suffix : rest <:+ cursor.row)
    (ended : Ended rest) : Reads cursor (pure value) rest (.ok ⟨value, rest, shorter⟩) :=
  ⟨suffix, ended, runs_pure _ _⟩

theorem reads_fail (other : ∀ found expected, problem.cause ≠ .unexpectedToken found expected) :
    Reads cursor (fail problem : Rule α) tokens (.error problem : Result α bound) :=
  ⟨tokens, fun _ _ same => absurd same (other _ _), runs_fail _ _⟩

theorem reads_unexpected (expected : String) (suffix : tokens <:+ cursor.row)
    (ended : Ended tokens) :
    Reads cursor (unexpected expected : Rule α) tokens
      (.error (Grammar.unexpected expected tokens) : Result α bound) := by
  obtain ⟨token, rest, rfl⟩ := ended.exists_cons
  refine ⟨rest, fun found _ same => ?_, ?_⟩
  · cases same
    exact ⟨token, suffix, rfl, rfl⟩
  · have peeked := runs_peek (cursor.facing rest) (-1)
    rw [look_back suffix] at peeked
    exact (advance_facing suffix).bind (peeked.bind (runs_fail _ _))

theorem peek_facing (suffix : tokens <:+ cursor.row) (ended : Ended tokens) :
    Runs (peek 0) (cursor.facing tokens) (.ok (current tokens)) (cursor.facing tokens) := by
  obtain ⟨token, rest, rfl⟩ := ended.exists_cons
  have peeked := runs_peek (cursor.facing (token :: rest)) 0
  rw [look_zero suffix] at peeked
  exact peeked

theorem bump_facing (suffix : token :: rest <:+ cursor.row) :
    Runs bump (cursor.facing (token :: rest)) (.ok token) (cursor.facing rest) := by
  have peeked := runs_peek (cursor.facing (token :: rest)) 0
  rw [look_zero suffix] at peeked
  exact peeked.bind ((advance_facing suffix).bind (runs_pure _ _))

end Reads

section Steps

theorem pastNewLines_facing (suffix : tokens <:+ cursor.row) (ended : Ended tokens) :
    (cursor.facing tokens).pastNewLines = some (cursor.facing (Grammar.skipNewLines tokens)) := by
  induction tokens with
  | nil => exact absurd ended (by simp [Ended])
  | cons token rest ih =>
      rw [pastNewLines, look_zero suffix, Grammar.skipNewLines]
      by_cases line : token.kind = .newLine
      · have leaves := (Takes.one line rest).leaves (by decide)
        rw [if_pos line, List.dropWhile_cons_of_pos (by simp [line]), moved_facing suffix]
        exact ih (leaves.suffix.trans suffix) (leaves.ended ended)
      · rw [if_neg line, List.dropWhile_cons_of_neg (by simp [line])]

theorem skipNewLines_facing (suffix : tokens <:+ cursor.row) (ended : Ended tokens) :
    Runs skipNewLines (cursor.facing tokens) (.ok ())
      (cursor.facing (Grammar.skipNewLines tokens)) :=
  (runs_get _).bind ((runs_lift (pastNewLines_facing suffix ended)).bind rfl)

theorem skipComma_facing (suffix : tokens <:+ cursor.row) (ended : Ended tokens) :
    Runs skipComma (cursor.facing tokens) (.ok ()) (cursor.facing (Grammar.skipComma tokens)) := by
  obtain ⟨token, rest, rfl⟩ := ended.exists_cons
  refine (peek_facing suffix ended).bind ?_
  rw [current, Grammar.skipComma]
  split
  · exact advance_facing suffix
  · exact runs_pure _ _

theorem line_facing (indent : Nat) (suffix : tokens <:+ cursor.row) (ended : Ended tokens) :
    Runs (Level.line ⟨indent⟩) (cursor.facing tokens) (.ok ⟨lineIndent indent tokens⟩)
      (cursor.facing (skipIndentation tokens)) := by
  obtain ⟨token, rest, rfl⟩ := ended.exists_cons
  refine (peek_facing suffix ended).bind ?_
  rw [lineIndent, skipIndentation]
  split
  · exact (bump_facing suffix).bind (runs_pure _ _)
  · exact runs_pure _ _

theorem lookPast_facing (suffix : tokens <:+ cursor.row) (front : List Token) {left : List Token}
    (split : tokens = front ++ left) (ended : Ended left) :
    (cursor.facing tokens).lookPast front.length = some (current (Grammar.skipNewLines left)) := by
  induction left generalizing front with
  | nil => exact absurd ended (by simp [Ended])
  | cons token rest ih =>
      have seen : (cursor.facing tokens).look front.length = token := by
        rw [look_facing suffix (by simp [split]), split, List.drop_left, current]
      rw [lookPast, seen, Grammar.skipNewLines]
      by_cases line : token.kind = .newLine
      · have leaves := (Takes.one line rest).leaves (by decide)
        have further := ih (front ++ [token]) (by simp [split]) (leaves.ended ended)
        rw [List.length_append, List.length_singleton, Int.natCast_add] at further
        rw [if_pos line, List.dropWhile_cons_of_pos (by simp [line])]
        exact further
      · rw [if_neg line, List.dropWhile_cons_of_neg (by simp [line]), current]

theorem standsAlone_facing (indent : Nat) (suffix : tokens <:+ cursor.row) (ended : Ended tokens) :
    Runs (Level.standsAlone ⟨indent⟩) (cursor.facing tokens)
      (.ok (Grammar.standsAlone indent tokens)) (cursor.facing tokens) := by
  obtain ⟨token, rest, rfl⟩ := ended.exists_cons
  refine (peek_facing suffix ended).bind ?_
  rw [Grammar.standsAlone, current]
  cases line : token.kind
  case newLine =>
    have leaves := (Takes.one line rest).leaves (by decide)
    have seen := lookPast_facing suffix [token] rfl (leaves.ended ended)
    have past : Runs (peekPast 1) _ _ _ := (runs_get _).bind (runs_lift seen)
    rw [Grammar.skipNewLines, List.dropWhile_cons_of_pos (by simpa using line)]
    exact past.bind (runs_pure _ _)
  all_goals exact runs_pure _ _

end Steps

section Tokens

theorem expect_facing {kinds : List Kind} (listed : kinds.contains token.kind = true)
    (suffix : token :: rest <:+ cursor.row) (ended : Ended (token :: rest)) :
    Runs (expect kinds) (cursor.facing (token :: rest)) (.ok token) (cursor.facing rest) := by
  refine (peek_facing suffix ended).bind ?_
  rw [current, if_pos listed]
  exact bump_facing suffix

theorem expect_misfit (bound : Nat) {kinds : List Kind}
    (missing : ¬kinds.contains token.kind = true) (suffix : token :: rest <:+ cursor.row)
    (ended : Ended (token :: rest)) :
    Reads cursor (expect kinds) (token :: rest)
      (.error (Grammar.unexpected (namesOf kinds) (token :: rest)) : Result Token bound) := by
  refine .after (peek_facing suffix ended) ?_
  rw [current, if_neg missing]
  exact reads_unexpected _ suffix ended

theorem reads_expect (kinds : List Kind) (goes : .endOfFile ∉ kinds)
    (suffix : tokens <:+ cursor.row) (ended : Ended tokens) :
    Reads cursor (expect kinds) tokens (Grammar.expect kinds tokens) := by
  obtain ⟨token, rest, rfl⟩ := ended.exists_cons
  rw [Grammar.expect]
  split
  · next listed =>
      have leaves := leaves_of_expect
        (expect_cons rest (List.contains_iff_mem.mp listed)) goes
      exact ⟨leaves.suffix.trans suffix, leaves.ended ended, expect_facing listed suffix ended⟩
  · next missing => exact expect_misfit _ missing suffix ended

theorem reads_colon? (suffix : tokens <:+ cursor.row) (ended : Ended tokens) :
    Reads cursor colon? tokens (Grammar.colon? cursor.options tokens) := by
  have colon := reads_expect [.colon] (by decide) suffix ended
  refine .after (runs_get _) (.after (peek_facing suffix ended) ?_)
  change Reads cursor (if cursor.options.enforceColons || _ then _ else _) tokens _
  rw [Grammar.colon?]
  split
  · split
    · next failed => exact colon.error failed
    · next ran => exact colon.ok ran reads_pure
  · exact reads_pure suffix ended

theorem reads_headerColon? (inline : List Node) (suffix : tokens <:+ cursor.row)
    (ended : Ended tokens) (going : (current tokens).kind ≠ .endOfFile) :
    Reads cursor (headerColon? inline) tokens
      (Grammar.headerColon? cursor.options inline tokens) := by
  refine .after (peek_facing suffix ended) ?_
  rw [Grammar.headerColon?]
  simp only [going, decide_false, Bool.false_or]
  split
  · exact reads_pure suffix ended
  · exact reads_colon? suffix ended

theorem reads_reference (leaf : Leaf) {mark : Token} (goes : mark.kind ≠ .endOfFile)
    (suffix : mark :: rest <:+ cursor.row) (ended : Ended (mark :: rest)) :
    Reads cursor (reference leaf mark.kind) (mark :: rest) (Grammar.reference leaf mark rest) := by
  have marks := reads_expect [mark.kind] (by simpa using goes.symm) suffix ended
  obtain ⟨_, marked⟩ := expect_cons rest (List.mem_singleton_self mark.kind)
  refine marks.ok marked fun suffix ended => ?_
  have names := reads_expect [.identifier] (by decide) suffix ended
  rw [Grammar.reference]
  split
  · next failed => exact names.error failed
  · next ran => exact names.ok ran reads_pure

theorem constant?_isSome (token : Token) : (constant? token).isSome =
    (token.category = .constant || (token.kind = .identifier && token.value = "null")) := by
  rw [constant?, Token.category]
  cases token.kind <;> simp [Kind.category]
  split <;> simp [*]

theorem reads_constant {kind : Tree.ConstantKind} {shorter : rest.length < bound}
    (literal : constant? token = some kind) (suffix : token :: rest <:+ cursor.row)
    (ended : Ended (token :: rest)) (left : Ended rest) :
    Reads cursor constant (token :: rest)
      (.ok ⟨.leaf (.constant kind) token.value token.span, rest, shorter⟩) := by
  refine .after (peek_facing suffix ended) ?_
  rw [current, literal]
  exact .after (bump_facing suffix) (reads_pure ((List.suffix_cons ..).trans suffix) left)

end Tokens

section Rules

theorem propertyNode_ne_unexpected {dot name : Token} {colon : Option Token} {children : List Node}
    (failed : propertyNode dot name colon children = .error problem) (found expected : String) :
    problem.cause ≠ .unexpectedToken found expected := by
  rw [propertyNode] at failed
  split at failed
  · cases failed
  · cases failed
    intro same
    cases same

theorem block_of_endOfFile (stop : (current tokens).kind = .endOfFile) :
    Grammar.block options indent tokens = .ok ⟨[], tokens, Nat.lt_succ_self _⟩ := by
  have here : Grammar.skipNewLines tokens = tokens := by
    cases tokens with
    | nil => rfl
    | cons token rest => exact List.dropWhile_cons_of_neg (by simp [show token.kind = _ from stop])
  rw [Grammar.block]
  simp [here, opensDeeper, stop]

theorem headerColon?_of_endOfFile {inline : List Node}
    (stop : (current tokens).kind = .endOfFile) :
    Grammar.headerColon? options inline tokens = .ok (.leaving none tokens) := by
  rw [Grammar.headerColon?, if_pos (by simp [stop])]

mutual

theorem reads_node (indent : Nat) (tokens : List Token) (suffix : tokens <:+ cursor.row)
    (ended : Ended tokens) :
    Reads cursor (Level.node ⟨indent⟩) tokens (Grammar.node cursor.options indent tokens) := by
  have := skipIndentation_length_le tokens
  have leaves := (takes_indentation tokens).leaves (by decide)
  rw [Level.node, Grammar.node]
  refine .after (line_facing indent suffix ended) ?_
  have inner := reads_content (lineIndent indent tokens) (skipIndentation tokens)
    (leaves.suffix.trans suffix) (leaves.ended ended)
  split
  · next failed => exact inner.failed failed
  · next ran => exact inner.bounded ran
termination_by 5 * tokens.length + 2

theorem reads_content (indent : Nat) (tokens : List Token) (suffix : tokens <:+ cursor.row)
    (ended : Ended tokens) :
    Reads cursor (Level.content ⟨indent⟩) tokens
      (Grammar.content cursor.options indent tokens) := by
  obtain ⟨token, rest, rfl⟩ := ended.exists_cons
  rw [Level.content, Grammar.content]
  refine .after (peek_facing suffix ended) ?_
  rw [current, ← constant?_isSome]
  cases literal : constant? token with
  | some kind =>
      have goes : token.kind ≠ .endOfFile := by
        intro stop
        simp [constant?, stop] at literal
      exact reads_constant literal suffix ended ((Takes.one rfl rest).leaves goes |>.ended ended)
  | none =>
      rw [Option.isSome_none, if_neg Bool.false_ne_true]
      cases kind : token.kind
      case dot => exact reads_property indent (token :: rest) suffix ended
      case dollarSign =>
        have calls := reads_reference .call (by simp [kind]) suffix ended
        rw [kind] at calls
        dsimp only
        split
        · next failed => exact calls.failed failed
        · next ran => exact calls.bounded ran
      case ampersand =>
        have calls := reads_reference .callback (by simp [kind]) suffix ended
        rw [kind] at calls
        dsimp only
        split
        · next failed => exact calls.failed failed
        · next ran => exact calls.bounded ran
      all_goals exact reads_element indent (token :: rest) suffix ended
termination_by 5 * tokens.length + 1

theorem reads_element (indent : Nat) (tokens : List Token) (suffix : tokens <:+ cursor.row)
    (ended : Ended tokens) :
    Reads cursor (Level.element ⟨indent⟩) tokens
      (Grammar.element cursor.options indent tokens) := by
  have names := reads_expect [.identifier, .widget] (by decide) suffix ended
  rw [Level.element, Grammar.element]
  split
  · next failed => exact names.error failed
  · next name ran =>
      have := name.shorter
      refine names.ok ran fun suffix ended => .after (standsAlone_facing indent suffix ended) ?_
      split
      · exact reads_pure suffix ended
      · have beside := reads_arguments indent name.rest suffix ended
        split
        · next failed => exact beside.error failed
        · next inline ran =>
            have := inline.shorter
            refine beside.ok ran fun suffix ended => .after (peek_facing suffix ended) ?_
            by_cases stop : (current inline.rest).kind = .endOfFile
            · rw [if_pos stop, headerColon?_of_endOfFile stop]
              dsimp only [Reading.leaving]
              rw [block_of_endOfFile stop]
              exact reads_pure suffix ended
            · rw [if_neg stop]
              have colons := reads_headerColon? inline.value suffix ended stop
              split
              · next failed => exact colons.error failed
              · next colon ran =>
                  have := colon.shorter
                  refine colons.ok ran fun suffix ended => ?_
                  have below := reads_block indent colon.rest suffix ended
                  split
                  · next failed => exact below.error failed
                  · next ran => exact below.ok ran reads_pure
termination_by 5 * tokens.length + 0

theorem reads_property (indent : Nat) (tokens : List Token) (suffix : tokens <:+ cursor.row)
    (ended : Ended tokens) :
    Reads cursor (Level.property ⟨indent⟩) tokens
      (Grammar.property cursor.options indent tokens) := by
  have dots := reads_expect [.dot] (by decide) suffix ended
  rw [Level.property, Grammar.property]
  split
  · next failed => exact dots.error failed
  · next dot ran =>
      have := dot.shorter
      refine dots.ok ran fun suffix ended => ?_
      have names := reads_expect [.identifier] (by decide) suffix ended
      split
      · next failed => exact names.error failed
      · next name ran =>
          have := name.shorter
          refine names.ok ran fun suffix ended => ?_
          have colons := reads_colon? suffix ended
          split
          · next failed => exact colons.error failed
          · next colon ran =>
              have := colon.shorter
              refine colons.ok ran fun suffix ended => ?_
              have children := reads_values indent colon.rest suffix ended
              split
              · next failed => exact children.error failed
              · next below ran =>
                  refine children.ok ran fun suffix ended => ?_
                  cases made : propertyNode dot.value name.value colon.value below.value with
                  | ok node => exact reads_pure suffix ended
                  | error problem => exact reads_fail (propertyNode_ne_unexpected made)
termination_by 5 * tokens.length + 0

theorem reads_values (indent : Nat) (tokens : List Token) (suffix : tokens <:+ cursor.row)
    (ended : Ended tokens) :
    Reads cursor (Level.values ⟨indent⟩) tokens (Grammar.values cursor.options indent tokens) := by
  rw [Level.values, Grammar.values]
  refine .after (peek_facing suffix ended) ?_
  split
  · exact reads_block indent tokens suffix ended
  · have child := reads_node indent tokens suffix ended
    split
    · next failed => exact child.error failed
    · next ran => exact child.ok ran reads_pure
termination_by 5 * tokens.length + 4

theorem reads_arguments (indent : Nat) (tokens : List Token) (suffix : tokens <:+ cursor.row)
    (ended : Ended tokens) :
    Reads cursor (Level.arguments ⟨indent⟩) tokens
      (Grammar.arguments cursor.options indent tokens) := by
  rw [Level.arguments, Grammar.arguments]
  refine .after (peek_facing suffix ended) ?_
  split
  · exact reads_pure suffix ended
  · have first := reads_node indent tokens suffix ended
    split
    · next failed => exact first.error failed
    · next child ran =>
        have := child.shorter
        have := skipComma_length_le child.rest
        refine first.ok ran fun suffix ended => .after (skipComma_facing suffix ended) ?_
        have leaves := (takes_comma child.rest).leaves (by decide)
        have further := reads_arguments indent _ (leaves.suffix.trans suffix) (leaves.ended ended)
        split
        · next failed => exact further.error failed
        · next more ran => exact further.ok ran reads_pure
termination_by 5 * tokens.length + 3

theorem reads_block (indent : Nat) (tokens : List Token) (suffix : tokens <:+ cursor.row)
    (ended : Ended tokens) :
    Reads cursor (Level.block ⟨indent⟩) tokens (Grammar.block cursor.options indent tokens) := by
  have := skipNewLines_length_le tokens
  have leaves := (takes_newLines tokens).leaves (by decide)
  have suffix' := leaves.suffix.trans suffix
  have ended' := leaves.ended ended
  rw [Level.block, Grammar.block]
  refine .after (skipNewLines_facing suffix ended) (.after (peek_facing suffix' ended') ?_)
  change Reads cursor (if opensDeeper indent (Grammar.skipNewLines tokens) then _ else _) _ _
  split
  · have first := reads_node indent _ suffix' ended'
    split
    · next failed => exact first.error failed
    · next child ran =>
        have := child.shorter
        refine first.ok ran fun suffix ended => ?_
        have further := reads_block indent child.rest suffix ended
        split
        · next failed => exact further.error failed
        · next more ran => exact further.ok ran reads_pure
  · exact reads_pure suffix' ended'
termination_by 5 * tokens.length + 3

end

end Rules

end Cursor

end WidgetTree.Grammar
