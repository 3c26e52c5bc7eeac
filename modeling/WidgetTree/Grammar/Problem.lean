import WidgetTree.Lexeme.Token
import WidgetTree.Report

namespace WidgetTree.Grammar

open Text (Span)

inductive Cause
  | unexpectedToken (found expected : String)
  | invalidRootKind (found : String)
  | missingViewModel
  | missingView
  | viewNotWidget
  | emptyProperty (name : String)
  deriving DecidableEq, Repr

namespace Cause

/-- A text that is no document at all is worse than one with a misplaced token. -/
def severity : Cause → Severity
  | invalidRootKind _ | missingViewModel | missingView | viewNotWidget => .fatal
  | unexpectedToken _ _ | emptyProperty _ => .error

def message : Cause → String
  | unexpectedToken found expected =>
      "Unexpected '" ++ found ++ "'. Expected '" ++ expected ++ "'."
  | invalidRootKind _ =>
      "Root node identifier must indicate a widget type (e.g. Stateful, Stateless)"
  | missingViewModel =>
      "Root node must have a specified `viewModel` attribute with a single identifier as a value"
  | missingView =>
      "Root node must have a specified `view` attribute with a single child widget as a value"
  | viewNotWidget =>
      "The `view` attribute of the root node must have a single widget as a child"
  | emptyProperty name => "Attribute '" ++ name ++ "' must have at least one value"

end Cause

structure Problem where
  cause : Cause
  span : Span
  deriving DecidableEq, Repr

namespace Problem

def severity (problem : Problem) : Severity := problem.cause.severity

def summary (problem : Problem) : String := located problem.cause.message problem.span

def report (text : String) (problem : Problem) : Report :=
  Report.on text problem.severity problem.cause.message problem.span

end Problem

end WidgetTree.Grammar
