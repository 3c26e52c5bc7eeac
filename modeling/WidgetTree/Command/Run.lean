import WidgetTree.Command.Arguments
import WidgetTree.Command.Files
import WidgetTree.Command.Listing
import WidgetTree.Compilation
import WidgetTree.Dart.ViewModel
import WidgetTree.Lexeme.Reader

/-!
The tasks of the command. What a task prints depends on the text alone; only `build` changes files,
and it does so after the text is found free of errors.
-/

namespace WidgetTree.Command

open Grammar (Options)

structure Outcome where
  success : Bool
  out : String := ""
  err : String := ""
  deriving DecidableEq, Repr

namespace Outcome

def exitCode (outcome : Outcome) : Nat := if outcome.success then 0 else 1

def append (a b : Outcome) : Outcome := ⟨a.success && b.success, a.out ++ b.out, a.err ++ b.err⟩

instance : Append Outcome := ⟨append⟩

end Outcome

def misuseExitCode : Nat := 2

def reportText (path : String) (report : Report) : String :=
  path ++ ":" ++ toString report.span.start.line ++ ":" ++ toString report.span.start.column ++
    ": " ++ report.severity.name ++ ": " ++ report.message ++ "\n" ++
    String.join (report.lines.map fun line => "    " ++ line ++ "\n")

def logText (path : String) (log : Log) : String := String.join (log.map (reportText path))

def failure (path : String) (failure : Failure) : Outcome :=
  ⟨false, "", path ++ ": " ++ failure.message ++ "\n"⟩

def validText (path : String) (document : Tree.Document) : String :=
  path ++ ": valid (" ++ document.kind.name ++ " " ++ document.viewClass ++ ", view model " ++
    document.viewModelClass ++ ")\n"

def checkText (options : Options) (path text : String) : Outcome :=
  let compilation := compile options text
  let findings := logText path compilation.log
  match compilation.outcome with
  | .ok document =>
      if compilation.log.hasErrors then ⟨false, "", findings⟩
      else ⟨true, "", findings ++ validText path document⟩
  | .error _ => ⟨false, "", findings⟩

def tokensText (text : String) : Outcome :=
  let (tokens, log) := Lexeme.tokenize text []
  ⟨!log.hasErrors, (lexemesListing tokens log).pretty 0 ++ "\n", ""⟩

/-- The tree, even of a text whose lexemes have errors. The findings of the two stages, each with a
log of its own, go to the other stream. -/
def treeText (options : Options) (path text : String) : Outcome :=
  let (tokens, log) := Lexeme.tokenize text []
  let outcome := Grammar.parseDocument options tokens
  let findings := logText path log ++ logText path (Grammar.reports text outcome)
  match outcome with
  | .ok document => ⟨!log.hasErrors, (documentListing document).pretty 0 ++ "\n", findings⟩
  | .error _ => ⟨false, "", findings⟩

variable {m : Type → Type} [Monad m]

def withText (files : Files m) (path : String) (go : String → m Outcome) : m Outcome := do
  match ← files.read path with
  | .error why => return failure path why
  | .ok text => go text

def writeFile (files : Files m) (path text : String) : m Outcome := do
  match ← files.write path text with
  | .error why => return failure path why
  | .ok () => return ⟨true, "", "wrote " ++ path ++ "\n"⟩

/-- Writes the view and then the view model, which is left out where the view fails. -/
def writeDocument (files : Files m) (directory : String) (indent : Dart.Indent)
    (document : Tree.Document) : m Outcome := do
  match ← files.makeAll directory with
  | .error why => return failure directory why
  | .ok () =>
      let view ← writeFile files (join directory (Dart.fileName document.viewClass))
        (Dart.view indent document)
      if view.success then
        let viewModel ← writeFile files (join directory (Dart.fileName document.viewModelClass))
          (Dart.viewModel indent document)
        return view ++ viewModel
      else return view

def buildText (files : Files m) (options : Options) (path directory : String)
    (indent : Dart.Indent) (text : String) : m Outcome := do
  let compilation := compile options text
  let findings := logText path compilation.log
  match compilation.outcome with
  | .ok document =>
      if compilation.log.hasErrors then return ⟨false, "", findings⟩
      else return ⟨true, "", findings⟩ ++ (← writeDocument files directory indent document)
  | .error _ => return ⟨false, "", findings⟩

/-- Checks the files in their order; a failure does not stop the others. -/
def checkAll (files : Files m) (options : Options) : List String → m Outcome
  | [] => return ⟨true, "", ""⟩
  | path :: rest => do
      let first ← withText files path fun text => return checkText options path text
      let others ← checkAll files options rest
      return first ++ others

def perform (files : Files m) (invocation : Invocation) : m Outcome :=
  match invocation.task with
  | .check paths => checkAll files invocation.options paths
  | .tokens path => withText files path fun text => return tokensText text
  | .tree path => withText files path fun text => return treeText invocation.options path text
  | .build path directory indent =>
      withText files path (buildText files invocation.options path directory indent)

/-- Runs the command; there is no outcome where its arguments are misused. -/
def run (files : Files m) (arguments : List String) : m (Option Outcome) :=
  match invocation? arguments with
  | none => return none
  | some invocation => do return some (← perform files invocation)

end WidgetTree.Command
