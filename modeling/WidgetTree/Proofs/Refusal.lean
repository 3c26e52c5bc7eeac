import WidgetTree.Compilation
import WidgetTree.Proofs.Grammar.Conservation
import WidgetTree.Proofs.Grammar.Significant

/-!
The signs of a refused text. Main statement: `compile_refuses`, a text without a document has a
finding that says so and a text with one has none, and no document comes of a malformed token.
-/

namespace WidgetTree

open Grammar (Options Problem readTokens significant_tokens parseDocument_conserves)
open Lexeme (Token tokens)
open WidgetTree.Tree (Document)

def Fails {α : Type} (outcome : Except Problem α) : Prop := ∃ problem, outcome = .error problem

def Log.Refuses (log : Log) : Prop :=
  ∃ report ∈ log, report.severity = .error ∨ report.severity = .fatal

/-- There is a malformed token in the row. -/
def Malformed (tokens : List Token) : Prop := ∃ token ∈ tokens, token.kind = .error

instance (tokens : List Token) : Decidable (Malformed tokens) :=
  inferInstanceAs (Decidable (∃ token ∈ tokens, token.kind = .error))

theorem Severity.isError_iff (severity : Severity) :
    severity.isError = true ↔ severity = .error ∨ severity = .fatal := by
  simp [Severity.isError]

theorem Log.hasErrors_iff (log : Log) : log.hasErrors = true ↔ log.Refuses := by
  simp only [Log.hasErrors, Log.Refuses, List.any_eq_true, Severity.isError_iff]

theorem Log.refuses_append (log more : Log) :
    Log.Refuses (log ++ more) ↔ log.Refuses ∨ Log.Refuses more := by
  simp only [Log.Refuses, List.mem_append, or_and_right, exists_or]

theorem Grammar.Problem.severity_isError (problem : Problem) :
    problem.severity.isError = true := by
  rcases problem with ⟨cause, span⟩
  cases cause <;> rfl

theorem Grammar.reports_refuse_iff {α : Type} (text : String) (outcome : Except Problem α) :
    Log.Refuses (Grammar.reports text outcome) ↔ Fails outcome := by
  cases outcome with
  | error problem =>
      have serious := (Severity.isError_iff _).mp problem.severity_isError
      exact iff_of_true ⟨problem.report text, List.mem_singleton_self _, serious⟩ ⟨problem, rfl⟩
  | ok value =>
      refine iff_of_false ?_ ?_
      · intro refuses
        rcases refuses with ⟨report, member, -⟩
        cases member
      · intro fails
        rcases fails with ⟨problem, same⟩
        cases same

theorem Lexeme.reports_refuse_iff (text : String) :
    Log.Refuses (Lexeme.reports text (Lexeme.row text)) ↔ Malformed (tokens text) := by
  constructor
  · intro refuses
    rcases refuses with ⟨report, member, serious⟩
    obtain ⟨lexeme, inside, found⟩ := List.mem_filterMap.mp member
    obtain ⟨fault, faulty, rfl⟩ := Option.map_eq_some_iff.mp found
    have serious : fault.severity.isError = true := (Severity.isError_iff _).mpr serious
    exact ⟨lexeme.token, List.mem_map_of_mem inside,
      (Lexeme.error_iff_serious inside).mpr ⟨fault, faulty, serious⟩⟩
  · intro malformed
    rcases malformed with ⟨token, member, failed⟩
    obtain ⟨lexeme, inside, rfl⟩ := List.mem_map.mp member
    obtain ⟨fault, faulty, serious⟩ := (Lexeme.error_iff_serious inside).mp failed
    refine ⟨Report.on text fault.severity fault.message lexeme.token.span, ?_,
      (Severity.isError_iff _).mp serious⟩
    exact List.mem_filterMap.mpr ⟨lexeme, inside, by rw [Lexeme.report?, faulty]; rfl⟩

/-- The grammar reads up to the end of the file, so no malformed token escapes it. -/
theorem not_malformed_of_parse {options : Options} {text : String} {document : Document}
    (parsed : Grammar.parseDocument options (tokens text) = .ok document) :
    ¬ Malformed (tokens text) := by
  intro malformed
  rcases malformed with ⟨token, member, failed⟩
  obtain ⟨kept, last, split, ends, -, goes, all⟩ := significant_tokens text
  have read : readTokens (tokens text) = kept := by
    rw [readTokens, split, List.takeWhile_append_of_pos fun token member => by
      simpa using goes token member]
    simp [ends]
  have inside : token ∈ kept := by
    have present := all token member (by rw [failed]; decide)
    rcases List.mem_append.mp present with inside | atEnd
    · exact inside
    · rw [List.mem_singleton.mp atEnd, ends] at failed
      cases failed
  have sound := (parseDocument_conserves parsed).1 token (read ▸ inside)
  exact sound failed

theorem fails_iff_not_isOk {α : Type} (outcome : Except Problem α) :
    Fails outcome ↔ outcome.isOk = false := by
  cases outcome with
  | error problem => exact iff_of_true ⟨problem, rfl⟩ rfl
  | ok value =>
      constructor
      · intro fails
        rcases fails with ⟨problem, same⟩
        cases same
      · intro failed
        cases failed

theorem fails_of_malformed {options : Options} {text : String}
    (malformed : Malformed (tokens text)) : Fails (compile options text).outcome := by
  cases parsed : (compile options text).outcome with
  | error problem => exact ⟨problem, rfl⟩
  | ok document => exact absurd malformed (not_malformed_of_parse parsed)

theorem log_refuses_iff (options : Options) (text : String) :
    (compile options text).log.Refuses ↔ Fails (compile options text).outcome := by
  rw [compile, Log.refuses_append, Lexeme.reports_refuse_iff, Grammar.reports_refuse_iff]
  constructor
  · intro refused
    rcases refused with malformed | fails
    · exact fails_of_malformed malformed
    · exact fails
  · exact .inr

theorem hasErrors_iff (options : Options) (text : String) :
    (compile options text).hasErrors = true ↔ Fails (compile options text).outcome := by
  rw [Compilation.hasErrors, Bool.or_eq_true, Log.hasErrors_iff, log_refuses_iff,
    fails_iff_not_isOk, Bool.not_eq_true', or_self]

/-- All signs of a refused text agree; what is found on a lexeme refuses the text just where there
is a malformed token, and from a malformed token no document comes. -/
theorem compile_refuses (options : Options) (text : String) :
    (Fails (compile options text).outcome ↔ (compile options text).log.Refuses) ∧
      (Fails (compile options text).outcome ↔ (compile options text).hasErrors = true) ∧
      (Malformed (compile options text).tokens ↔
        Log.Refuses (Lexeme.reports text (Lexeme.row text))) ∧
      (Malformed (compile options text).tokens →
        Fails (compile options text).outcome ∧ Fails (documentOf text)) := by
  refine ⟨(log_refuses_iff options text).symm, (hasErrors_iff options text).symm,
    (Lexeme.reports_refuse_iff text).symm, fun malformed => ?_⟩
  exact ⟨fails_of_malformed malformed, fails_of_malformed malformed⟩

/-- A stray character behind a view that is complete, and the same text without it. -/
theorem compile_refuses_stray :
    (Malformed (compile {} "Stateless .viewModel: Home, .view: Text\n#").tokens ∧
        Fails (documentOf "Stateless .viewModel: Home, .view: Text\n#")) ∧
      (compile {} "Stateless .viewModel: Home, .view: Text\n").outcome.isOk = true ∧
        ¬ (compile {} "Stateless .viewModel: Home, .view: Text\n").log.Refuses ∧
        ¬ (compile {} "Stateless .viewModel: Home, .view: Text\n").hasErrors = true ∧
        ¬ Malformed (compile {} "Stateless .viewModel: Home, .view: Text\n").tokens := by
  have malformed : Malformed (compile {} "Stateless .viewModel: Home, .view: Text\n#").tokens := by
    decide +kernel
  have read : (compile {} "Stateless .viewModel: Home, .view: Text\n").outcome.isOk = true := by
    decide +kernel
  have sound : ¬ Fails (compile {} "Stateless .viewModel: Home, .view: Text\n").outcome := by
    rw [fails_iff_not_isOk, read]
    exact Bool.noConfusion
  obtain ⟨log, signal, -, tokens⟩ := compile_refuses {} "Stateless .viewModel: Home, .view: Text\n"
  exact ⟨⟨malformed, ((compile_refuses {} _).2.2.2 malformed).2⟩, read, mt log.mpr sound,
    mt signal.mpr sound, fun stray => sound (tokens stray).1⟩

end WidgetTree
