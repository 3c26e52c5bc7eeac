import WidgetTree.Text.Lines

namespace WidgetTree

open Text (Span)

inductive Severity
  | none
  | message
  | warning
  | error
  | fatal
  deriving DecidableEq, Repr, Inhabited

namespace Severity

def rank : Severity → Nat
  | none => 0
  | message => 1
  | warning => 2
  | error => 3
  | fatal => 4

instance : LT Severity := ⟨fun a b => a.rank < b.rank⟩

instance (a b : Severity) : Decidable (a < b) := inferInstanceAs (Decidable (a.rank < b.rank))

def worse (a b : Severity) : Severity := if a < b then b else a

/-- Whether a finding of this severity refuses the text. -/
def isError (severity : Severity) : Bool := severity = .error || severity = .fatal

def label : Severity → String
  | none => "None"
  | message => "Message"
  | warning => "Warning"
  | error => "Error"
  | fatal => "Fatal"

def name : Severity → String
  | none => "none"
  | message => "message"
  | warning => "warning"
  | error => "error"
  | fatal => "fatal"

end Severity

structure Report where
  severity : Severity
  message : String
  span : Span
  lines : List String
  deriving DecidableEq, Repr

def Report.on (text : String) (severity : Severity) (message : String) (span : Span) : Report :=
  ⟨severity, message, span, Text.linesBetween text span.start.line span.stop.line⟩

def located (message : String) (span : Span) : String :=
  message ++ " at line " ++ toString span.start.line ++ ", column " ++ toString span.start.column

def Report.summary (report : Report) : String :=
  report.severity.name ++ ": " ++ located report.message report.span

abbrev Log := List Report

def Log.hasErrors (log : Log) : Bool := log.any (·.severity.isError)

def Log.worst? : Log → Option Severity
  | [] => none
  | report :: log => some (log.foldl (fun worst r => worst.worse r.severity) report.severity)

end WidgetTree
