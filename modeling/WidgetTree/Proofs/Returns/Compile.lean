import WidgetTree.Compilation
import WidgetTree.Proofs.Dart.Alike
import WidgetTree.Proofs.Returns.Row

/-!
A text and the same text with returns, taken through both stages. Main statement:
`compile_withReturns`, the tokens, the outcome and all findings stand on the same lines and in the
same columns, and the generated code is the same.
-/

namespace WidgetTree.Returns

open Grammar
open Lexeme (Fault Kind Token)
open Text (Location Span)
open WidgetTree.Tree (Document)

def likeness (text : List Char) : Likeness where
  place := Widened text
  level := Eq
  later first second := later_of_behind (first.behind second) first second
  deeper := deeper_of_eq

def returnedCause : Cause → Cause
  | .unexpectedToken found expected => .unexpectedToken (withReturns found) expected
  | cause => cause

/-- The same problem, with returns in what it quotes. -/
structure SameProblem (place : Location → Location → Prop) (problem other : Problem) : Prop where
  cause : other.cause = returnedCause problem.cause
  spanned : Spanned place problem.span other.span

section Problems

variable {text : List Char} {token other : Token} {tokens others : List Token}

theorem withReturns_eq_empty_iff {value : String} : withReturns value = "" ↔ value = "" := by
  rw [← String.toList_eq_nil_iff, withReturns, String.toList_ofList, returned_eq_nil_iff,
    String.toList_eq_nil_iff]

theorem withReturns_name (kind : Kind) : withReturns kind.name = kind.name := by
  cases kind <;> decide

theorem quote_withReturns (kind : token.kind = other.kind)
    (value : other.value = withReturns token.value) : other.quote = withReturns token.quote := by
  by_cases empty : token.value = ""
  · rw [empty] at value
    have empty' : other.value = "" := value
    rw [Token.quote, Token.quote, if_pos (by rw [empty']; rfl), if_pos (by rw [empty]; rfl), ← kind,
      withReturns_name]
  · have filled : other.value ≠ "" := by
      rw [value]
      exact fun none => empty (withReturns_eq_empty_iff.mp none)
    rw [Token.quote, Token.quote, if_neg (by simpa using filled), if_neg (by simpa using empty),
      value]

theorem unexpected_withReturns (expected : String)
    (row : List.Forall₂ (Matches text) tokens others) :
    SameProblem (Widened text) (unexpected expected tokens) (unexpected expected others) := by
  cases row with
  | nil =>
      have start : Widened text {} {} := ⟨⟨rfl, rfl⟩, Nat.zero_le _, rfl⟩
      exact ⟨rfl, start, start⟩
  | @cons token other tokens others same rest =>
      refine ⟨?_, same.spanned⟩
      have quote := quote_withReturns same.kind same.value
      simp only [unexpected, current, returnedCause, quote]

def pairing (text : List Char) : Pairing :=
  .ofTokens (likeness text)
    (fun _ _ (same : Matches text _ _) => ⟨same.kind, fun solid =>
      ⟨same.kind, same.solid solid, fun _ => same.spanned, same.level⟩, same.level⟩)
    (SameProblem (Widened text)) unexpected_withReturns
    (fun cause apart spanned => ⟨by
      cases cause with
      | unexpectedToken found expected => exact absurd rfl (apart found expected)
      | _ => rfl, spanned⟩)

end Problems

section Outcomes

structure SameToken (token other : Token) : Prop where
  kind : other.kind = token.kind
  value : other.value = withReturns token.value
  spanned : Spanned Aligned token.span other.span

/-- The same finding on the same lines; the words in which it is put are left out. -/
structure SameReport (report other : Report) : Prop where
  severity : other.severity = report.severity
  spanned : Spanned Aligned report.span other.span
  lines : other.lines = report.lines

/-- The same document, from which the same code is generated, or the same problem. -/
inductive SameOutcome : Except Problem Document → Except Problem Document → Prop
  | compiled {document other : Document} (alike : AlikeDocuments Aligned document other)
      (view : ∀ indent, Dart.view indent other = Dart.view indent document)
      (viewModel : ∀ indent, Dart.viewModel indent other = Dart.viewModel indent document) :
      SameOutcome (.ok document) (.ok other)
  | failed {problem other : Problem} (same : SameProblem Aligned problem other) :
      SameOutcome (.error problem) (.error other)

structure SameCompilation (compilation other : Compilation) : Prop where
  tokens : List.Forall₂ SameToken compilation.tokens other.tokens
  outcome : SameOutcome compilation.outcome other.outcome
  log : List.Forall₂ SameReport compilation.log other.log

variable {text : String} {options : Options}

theorem significant_withReturns (text : String) :
    List.Forall₂ (Matches text.toList) (significant (Lexeme.tokens text))
      (significant (Lexeme.tokens (withReturns text))) := by
  rw [significant_eq, significant_eq]
  exact significantFrom_related (fun _ _ same => same.kind) (tokens_withReturns text) rfl

theorem outcome_withReturns (options : Options) (text : String) :
    SameOutcome (compile options text).outcome (compile options (withReturns text)).outcome := by
  have agrees : Agrees (pairing text.toList) options options
      (AlikeDocuments (Widened text.toList)) (compile options text).outcome
      (compile options (withReturns text)).outcome :=
    document_agrees id rfl (significant_withReturns text)
  have aligned : ∀ a b, Widened text.toList a b → Aligned a b := fun _ _ widened =>
    widened.aligned
  generalize (compile options text).outcome = outcome,
    (compile options (withReturns text)).outcome = outcome' at agrees
  cases agrees with
  | read alike =>
      exact .compiled (alike.imp aligned) (fun indent => (Dart.view_alike indent alike).symm)
        fun indent => (Dart.viewModel_alike indent alike).symm
  | stopped same asked => exact .failed ⟨same.cause, same.spanned.imp aligned⟩
  | refused lax strict wants => exact absurd (lax.symm.trans strict) Bool.false_ne_true

end Outcomes

section Logs

variable {text : String}

theorem report_withReturns (clean : Unreturned text) {severity : Severity}
    {message message' : String} {span other : Span} (spanned : Spanned Aligned span other) :
    SameReport (Report.on text severity message span)
      (Report.on (withReturns text) severity message' other) := by
  refine ⟨rfl, spanned, ?_⟩
  rw [Report.on, Report.on, linesBetween_withReturns clean, spanned.start.line, spanned.stop.line]

theorem lexeme_reports_withReturns (clean : Unreturned text) {lexemes others : List Lexeme}
    (same : List.Forall₂ (SameLexeme text.toList) lexemes others) :
    List.Forall₂ SameReport (Lexeme.reports text lexemes)
      (Lexeme.reports (withReturns text) others) := by
  induction same with
  | nil => exact .nil
  | @cons lexeme other lexemes others same rest ih =>
      have spanned : Spanned Aligned lexeme.token.span other.token.span :=
        same.token.spanned.imp fun _ _ widened => widened.aligned
      rw [Lexeme.reports, Lexeme.reports, List.filterMap_cons, List.filterMap_cons,
        Lexeme.report?, Lexeme.report?, same.fault]
      cases lexeme.fault with
      | none => exact ih
      | some fault => exact .cons (report_withReturns clean spanned) ih

theorem returnedCause_severity (cause : Cause) :
    (returnedCause cause).severity = cause.severity := by
  cases cause <;> rfl

theorem grammar_reports_withReturns (clean : Unreturned text)
    {outcome outcome' : Except Problem Document} (same : SameOutcome outcome outcome') :
    List.Forall₂ SameReport (Grammar.reports text outcome)
      (Grammar.reports (withReturns text) outcome') := by
  cases same with
  | compiled => exact .nil
  | @failed problem other same =>
      have severity : other.severity = problem.severity := by
        rw [Problem.severity, same.cause, returnedCause_severity, Problem.severity]
      refine .cons ?_ .nil
      rw [Problem.report, Problem.report, severity]
      exact report_withReturns clean same.spanned

/-- A carriage return in front of every line feed changes nothing but the indices. -/
theorem compile_withReturns (options : Options) (text : String) (clean : Unreturned text) :
    SameCompilation (compile options text) (compile options (withReturns text)) := by
  have outcome := outcome_withReturns options text
  refine ⟨(tokens_withReturns text).imp fun token other same => ?_, outcome, ?_⟩
  · exact ⟨same.kind.symm, same.value, same.spanned.imp fun _ _ widened => widened.aligned⟩
  · have found := lexeme_reports_withReturns clean (row_withReturns text)
    exact List.rel_append found (grammar_reports_withReturns clean outcome)

/-- Blank lines, an indented block and a string that the line breaks off; with the string closed
there is a document. -/
theorem compile_withReturns_broken :
    (Unreturned "Stateless .viewModel: V,\n\n.view: Column\n\tText \x22a\n" ∧
      SameCompilation
        (compile .strict "Stateless .viewModel: V,\n\n.view: Column\n\tText \x22a\n")
        (compile .strict
          "Stateless .viewModel: V,\r\n\r\n.view: Column\r\n\tText \x22a\r\n")) ∧
      Unreturned "Stateless .viewModel: V,\n\n.view: Column:\n\tText \x22a\x22\n" ∧
      SameCompilation
        (compile {} "Stateless .viewModel: V,\n\n.view: Column:\n\tText \x22a\x22\n")
        (compile {}
          "Stateless .viewModel: V,\r\n\r\n.view: Column:\r\n\tText \x22a\x22\r\n") ∧
      (compile {}
          "Stateless .viewModel: V,\n\n.view: Column:\n\tText \x22a\x22\n").outcome.isOk =
        true := by
  have clean : Unreturned "Stateless .viewModel: V,\n\n.view: Column\n\tText \x22a\n" := by decide
  have closed : Unreturned "Stateless .viewModel: V,\n\n.view: Column:\n\tText \x22a\x22\n" := by
    decide
  exact ⟨⟨clean, compile_withReturns .strict _ clean⟩, closed, compile_withReturns {} _ closed,
    by decide +kernel⟩

end Logs

end WidgetTree.Returns
