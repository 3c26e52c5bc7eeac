import WidgetTree.Proofs.Command.Listing
import WidgetTree.Proofs.Command.Recording
import WidgetTree.Proofs.Lexeme.Findings
import WidgetTree.Proofs.Refusal

/-!
The tasks of the command agree on which texts are valid. Main definitions: `Agreement`, what the
tasks have to do with each other on one text, and `Summed`, what the check of many files has to do
with the checks of each. Main statement: `tasks_agree`.
-/

namespace WidgetTree.Command

open Grammar (Options)
open Lexeme (tokenize_eq)
open WidgetTree.Tree (Document)

def outcomeOf (disk : Disk) (options : Options) (task : Task) : Outcome :=
  ((perform Disk.files ⟨options, task⟩).run disk).1

/-- What the tasks have to do with each other on a file that holds the text. -/
structure Agreement (disk : Disk) (options : Options) (path text : String) : Prop where
  verdict : (outcomeOf disk options (.check [path])).exitCode = 0 ↔
    (outcomeOf disk options (.tree path)).exitCode = 0
  /-- All that a check writes goes to the one stream. -/
  quiet : (outcomeOf disk options (.check [path])).out = ""
  /-- A finding has its place, its severity and its message on one line, and below that the lines it
  lies on. -/
  findings : (outcomeOf disk options (.tree path)).err =
    String.join ((compile options text).log.map fun report =>
      path ++ ":" ++ toString report.span.start.line ++ ":" ++ toString report.span.start.column ++
        ": " ++ report.severity.name ++ ": " ++ report.message ++ "\n" ++
        String.join (report.lines.map ("    " ++ · ++ "\n")))
  /-- The check of a valid text has one line more than the findings, and the tree that is printed is
  that of the text. -/
  accepted : (outcomeOf disk options (.check [path])).exitCode = 0 →
    ∃ document, (compile options text).outcome = .ok document ∧
      (outcomeOf disk options (.check [path])).err =
        (outcomeOf disk options (.tree path)).err ++
          (path ++ ": valid (" ++
            (match document.kind with
              | .stateless => "Stateless"
              | .stateful => "Stateful") ++
            " " ++ document.viewClass ++ ", view model " ++ document.viewModelClass ++ ")\n") ∧
      (outcomeOf disk options (.tree path)).out = (documentListing document).pretty 0 ++ "\n" ∧
      printedTree? (outcomeOf disk options (.tree path)).out = some document.withoutSpans
  refused : (outcomeOf disk options (.check [path])).exitCode ≠ 0 →
    (outcomeOf disk options (.check [path])).err = (outcomeOf disk options (.tree path)).err ∧
      (outcomeOf disk options (.tree path)).out = ""
  shown : (∃ document, printedTree? (outcomeOf disk options (.tree path)).out = some document) ↔
    (outcomeOf disk options (.tree path)).exitCode = 0
  tokens : (outcomeOf disk options (.check [path])).exitCode = 0 →
    (outcomeOf disk options (.tokens path)).exitCode = 0
  malformed : (outcomeOf disk options (.tokens path)).exitCode = 0 ↔
    ¬ Malformed (Lexeme.tokens text)
  builds : ∀ directory indent, attempts disk options (.build path directory indent) ≠ [] →
    (outcomeOf disk options (.check [path])).exitCode = 0

/-- The check of many files is the checks of each, one after the other. -/
structure Summed (disk : Disk) (options : Options) (paths : List String) : Prop where
  out : (outcomeOf disk options (.check paths)).out =
    String.join (paths.map fun path => (outcomeOf disk options (.check [path])).out)
  err : (outcomeOf disk options (.check paths)).err =
    String.join (paths.map fun path => (outcomeOf disk options (.check [path])).err)
  verdict : (outcomeOf disk options (.check paths)).exitCode = 0 ↔
    ∀ path ∈ paths, (outcomeOf disk options (.check [path])).exitCode = 0

section Outcomes

theorem exitCode_eq_zero_iff (outcome : Outcome) :
    outcome.exitCode = 0 ↔ outcome.success = true := by
  rw [Outcome.exitCode]
  cases outcome.success <;> decide

theorem foldr_append_eq (outcomes : List Outcome) :
    outcomes.foldr (· ++ ·) ⟨true, "", ""⟩ =
      ⟨outcomes.all (·.success), String.join (outcomes.map (·.out)),
        String.join (outcomes.map (·.err))⟩ := by
  induction outcomes with
  | nil => rfl
  | cons outcome rest ih =>
      rw [List.foldr_cons, ih, List.all_cons, List.map_cons, List.map_cons, String.join_cons,
        String.join_cons]
      rfl

end Outcomes

section Checks

variable {disk : Disk} {options : Options} (paths : List String)

theorem outcomeOf_check : outcomeOf disk options (.check paths) =
    (paths.map (checkFile disk options)).foldr (· ++ ·) ⟨true, "", ""⟩ := by
  rw [List.foldr_map]
  exact congrArg Prod.fst (run_checkAll paths)

theorem outcomeOf_check_one (path : String) :
    outcomeOf disk options (.check [path]) = checkFile disk options path := by
  rw [outcomeOf_check, foldr_append_eq]
  simp

theorem summed_check : Summed disk options paths := by
  constructor <;>
    simp only [outcomeOf_check_one, exitCode_eq_zero_iff] <;>
    rw [outcomeOf_check, foldr_append_eq]
  case verdict => simp
  all_goals exact congrArg String.join List.map_map

end Checks

section Texts

variable {options : Options} {path text : String}

theorem logText_append (path : String) (log more : Log) :
    logText path (log ++ more) = logText path log ++ logText path more := by
  rw [logText, List.map_append, String.join_append]
  rfl

theorem validText_eq (path : String) (document : Document) :
    validText path document =
      path ++ ": valid (" ++
        (match document.kind with
          | .stateless => "Stateless"
          | .stateful => "Stateful") ++
        " " ++ document.viewClass ++ ", view model " ++ document.viewModelClass ++ ")\n" := by
  rw [validText]
  cases document.kind <;> rfl

theorem lexemes_sound_of_parse {document : Document}
    (compiled : (compile options text).outcome = .ok document) :
    Log.hasErrors (Lexeme.reports text (Lexeme.row text)) = false := by
  rw [← Bool.not_eq_true, Log.hasErrors_iff, Lexeme.reports_refuse_iff]
  exact not_malformed_of_parse compiled

theorem checkText_eq : checkText options path text =
    match (compile options text).outcome with
    | .ok document => ⟨true, "", logText path (compile options text).log ++ validText path document⟩
    | .error _ => ⟨false, "", logText path (compile options text).log⟩ := by
  rw [checkText]
  cases compiled : (compile options text).outcome with
  | error problem => rfl
  | ok document =>
      have sound : ¬ (compile options text).log.hasErrors = true := by
        rw [Log.hasErrors_iff, log_refuses_iff, fails_iff_not_isOk, compiled]
        exact Bool.noConfusion
      exact if_neg sound

theorem treeText_eq : treeText options path text =
    match (compile options text).outcome with
    | .ok document =>
        ⟨true, (documentListing document).pretty 0 ++ "\n",
          logText path (compile options text).log⟩
    | .error _ => ⟨false, "", logText path (compile options text).log⟩ := by
  have findings : logText path (compile options text).log =
      logText path (Lexeme.reports text (Lexeme.row text)) ++
        logText path (Grammar.reports text (compile options text).outcome) :=
    logText_append path _ _
  rw [findings, treeText, tokenize_eq, List.nil_append]
  cases compiled : (compile options text).outcome with
  | error problem =>
      replace compiled : Grammar.parseDocument options (Lexeme.tokens text) = .error problem :=
        compiled
      simp only [compiled]
  | ok document =>
      have sound := lexemes_sound_of_parse compiled
      replace compiled : Grammar.parseDocument options (Lexeme.tokens text) = .ok document :=
        compiled
      simp only [compiled, sound, Bool.not_false]

theorem tokensText_success_iff :
    (tokensText text).success = true ↔ ¬ Malformed (Lexeme.tokens text) := by
  rw [tokensText, tokenize_eq, ← Lexeme.reports_refuse_iff, ← Log.hasErrors_iff]
  simp

variable {disk : Disk}

theorem run_recorded_withText (read : disk.read path = .ok text)
    (go : String → StateT (List String) (StateM Disk) Outcome) (record : List String) :
    ((withText Disk.files.recorded path go).run record).run disk =
      ((go text).run record).run disk := by
  have began : ((Disk.files.recorded.read path).run record).run disk =
      ((.ok text, record), disk) := congrArg (fun given => ((given, record), disk)) read
  rw [withText, StateT.run_bind, StateT.run_bind, began]
  rfl

theorem attempts_of_refused (read : disk.read path = .ok text) (directory : String)
    (indent : Dart.Indent) (errors : (compile options text).hasErrors = true) :
    attempts disk options (.build path directory indent) = [] := by
  rw [attempts, perform, run_recorded_withText read, buildText_refused _ errors]
  rfl

theorem agreement_of_read (read : disk.read path = .ok text) :
    Agreement disk options path text := by
  have check : outcomeOf disk options (.check [path]) = checkText options path text := by
    rw [outcomeOf_check_one, checkFile, read]
  have tree : outcomeOf disk options (.tree path) = treeText options path text :=
    congrArg Prod.fst ((run_withText_of_ok read).trans rfl)
  have tokens : outcomeOf disk options (.tokens path) = tokensText text :=
    congrArg Prod.fst ((run_withText_of_ok read).trans rfl)
  cases compiled : (compile options text).outcome with
  | ok document =>
      constructor <;>
        simp only [check, tree, tokens, checkText_eq, treeText_eq, compiled, exitCode_eq_zero_iff,
          ne_eq]
      case findings => rfl
      case accepted =>
        exact fun _ => ⟨document, rfl, congrArg _ (validText_eq path document), rfl,
          printedTree?_documentListing document⟩
      case refused => exact fun bad => absurd trivial bad
      case shown => simp [printedTree?_documentListing]
      case tokens => exact fun _ => tokensText_success_iff.mpr (not_malformed_of_parse compiled)
      case malformed => exact tokensText_success_iff
      case builds => exact fun _ _ _ => trivial
  | error problem =>
      have errors : (compile options text).hasErrors = true :=
        (hasErrors_iff options text).mpr ⟨problem, compiled⟩
      constructor <;>
        simp only [check, tree, tokens, checkText_eq, treeText_eq, compiled, exitCode_eq_zero_iff,
          ne_eq]
      case findings => rfl
      case accepted => exact fun good => Bool.noConfusion good
      case refused => exact fun _ => ⟨trivial, trivial⟩
      case shown => simp [printedTree?_empty]
      case tokens => exact fun good => Bool.noConfusion good
      case malformed => exact tokensText_success_iff
      case builds =>
        exact fun directory indent tried =>
          absurd (attempts_of_refused read directory indent errors) tried

end Texts

/-- On a file that can be read the tasks agree, whatever the options; the check of many files, of
which some may be missing, is that of each. -/
theorem tasks_agree (disk : Disk) (options : Options) :
    (∀ path text, disk.read path = .ok text → Agreement disk options path text) ∧
      ∀ paths, Summed disk options paths :=
  ⟨fun _ _ read => agreement_of_read read, summed_check⟩

def mixed : Disk :=
  ⟨[(["a.flui"], .file (.text "Stateless .viewModel: Vm, .view: Text")),
    (["b.flui"], .file (.text "Stateless .viewModel: Vm"))]⟩

/-- The build of the first file goes as far as the disk; the second fails the check of both. -/
theorem tasks_agree_mixed :
    (outcomeOf mixed {} (.check ["a.flui"])).exitCode = 0 ∧
      (outcomeOf mixed {} (.tree "a.flui")).exitCode = 0 ∧
      (∃ document, printedTree? (outcomeOf mixed {} (.tree "a.flui")).out = some document) ∧
      (outcomeOf mixed {} (.tokens "b.flui")).exitCode = 0 ∧
      (outcomeOf mixed {} (.tree "b.flui")).exitCode ≠ 0 ∧
      (outcomeOf mixed {} (.tree "b.flui")).out = "" ∧
      (outcomeOf mixed {} (.check ["a.flui", "b.flui"])).exitCode ≠ 0 := by
  have readFirst : mixed.read "a.flui" = .ok "Stateless .viewModel: Vm, .view: Text" := by
    decide +kernel
  have readSecond : mixed.read "b.flui" = .ok "Stateless .viewModel: Vm" := by decide +kernel
  have tried : attempts mixed {} (.build "a.flui" "." .tabs) ≠ [] := by decide +kernel
  have broken : (outcomeOf mixed {} (.check ["b.flui"])).exitCode ≠ 0 := by decide +kernel
  have sound : ¬ Malformed (Lexeme.tokens "Stateless .viewModel: Vm") := by decide +kernel
  obtain ⟨each, all⟩ := tasks_agree mixed {}
  have first := each "a.flui" _ readFirst
  have second := each "b.flui" _ readSecond
  have checked := first.builds "." .tabs tried
  have printed := first.verdict.mp checked
  refine ⟨checked, printed, first.shown.mpr printed, second.malformed.mpr sound,
    fun shown => broken (second.verdict.mpr shown), (second.refused broken).2, fun both => ?_⟩
  exact broken ((all ["a.flui", "b.flui"]).verdict.mp both "b.flui" (by simp))

end WidgetTree.Command
