import WidgetTree.Proofs.Command.Build

/-!
What a command that fails leaves behind. Main definition: `Interrupted`, the view is written and the
view model is not. Main statement: `sameFiles_or_interrupted`, a command that fails has changed no
file, unless it is a build that was interrupted by a directory where the view model belongs.
-/

namespace WidgetTree.Command

open Grammar (Options)
open Outline (printable_of_parse)
open WidgetTree.Tree (Document)

def exitCodeOf : Option Outcome → Nat
  | none => misuseExitCode
  | some outcome => outcome.exitCode

/-- There are the same files with the same contents. Directories may differ. -/
def SameFiles (disk after : Disk) : Prop :=
  ∀ place contents,
    after.find? place = some (.file contents) ↔ disk.find? place = some (.file contents)

/-- What a build of the document leaves behind that has come as far as the view. -/
structure Interrupted (disk after : Disk) (directory : String) (indent : Dart.Indent)
    (document : Document) : Prop where
  view : after.read (join directory (Dart.fileName document.viewClass)) =
    .ok (Dart.view indent document)
  /-- The view model could not be written, since a directory has its name. -/
  viewModel : after.isDirectory (join directory (Dart.fileName document.viewModelClass)) = true
  /-- Wherever else a file was there is the same file, and there are no others. -/
  others : ∀ place contents,
    after.resolve (join directory (Dart.fileName document.viewClass)) ≠ .ok place →
      (after.find? place = some (.file contents) ↔ disk.find? place = some (.file contents))

section Failures

variable {disk made after : Disk} {directory : String} {indent : Dart.Indent}
  {document : Document}

theorem SameFiles.refl (disk : Disk) : SameFiles disk disk := fun _ _ => .rfl

theorem Grown.sameFiles (grown : Grown disk after) : SameFiles disk after := grown.file_iff

theorem isDirectory_of_write {path text : String} {why : Failure} {place : Place}
    (resolved : disk.resolve path = .ok place)
    (failed : disk.write path text = (.error why, after)) : disk.isDirectory path = true := by
  rw [Disk.write, resolved] at failed
  rw [Disk.isDirectory, resolved]
  simp only at failed ⊢
  split at failed
  · next directory => simp [directory]
  · cases (Prod.mk.inj failed).1

theorem exists_resolve_join {name other : String} (isName : IsFileName name)
    (isOther : IsFileName other) {place : Place}
    (resolved : disk.resolve (join directory name) = .ok place) :
    ∃ place, disk.resolve (join directory other) = .ok place := by
  obtain ⟨around, led, found, -⟩ := (resolve_join_eq_ok_iff isName).mp resolved
  exact ⟨around ++ [other], (resolve_join_eq_ok_iff isOther).mpr ⟨around, led, found, rfl⟩⟩

theorem interrupted_of_writes {why : Failure} {last : Disk}
    (viewName : IsFileName (Dart.fileName document.viewClass))
    (viewModelName : IsFileName (Dart.fileName document.viewModelClass))
    (grown : Grown disk made)
    (wroteView : made.write (join directory (Dart.fileName document.viewClass))
      (Dart.view indent document) = (.ok (), after))
    (failed : after.write (join directory (Dart.fileName document.viewModelClass))
      (Dart.viewModel indent document) = (.error why, last)) :
    Interrupted disk after directory indent document := by
  obtain ⟨place, resolved, free, rfl⟩ := write_eq_ok_iff.mp wroteView
  have kept := resolve_put free (.file (.text (Dart.view indent document))) resolved
  obtain ⟨spot, found⟩ := exists_resolve_join viewName viewModelName kept
  refine ⟨read_put resolved free _, isDirectory_of_write found failed,
    fun other contents elsewhere => ?_⟩
  have different : other ≠ place := by
    rintro rfl
    exact elsewhere kept
  rw [find?_put_other free _ different]
  exact grown.file_iff other contents

theorem sameFiles_or_interrupted_of_buildText {options : Options} {path text : String}
    {outcome : Outcome}
    (ran : (buildText Disk.files options path directory indent text).run disk = (outcome, after))
    (fails : outcome.success = false) :
    SameFiles disk after ∨
      ∃ document, (compile options text).outcome = .ok document ∧
        (compile options text).hasErrors = false ∧
        Interrupted disk after directory indent document := by
  cases errors : (compile options text).hasErrors with
  | true =>
      rw [buildText_refused Disk.files errors] at ran
      obtain ⟨-, rfl⟩ := Prod.mk.inj ran
      exact .inl (.refl disk)
  | false =>
      obtain ⟨document, compiled, -⟩ := exists_document errors
      have came := run_buildText_accepted compiled errors ran
      rw [fails] at came
      cases came with
      | nowhere grown => exact .inl grown.sameFiles
      | halfway grown view viewModel =>
          have printable := printable_of_parse compiled
          have interrupted := interrupted_of_writes
            (isFileName_fileName (Dart.isWord_viewClass printable))
            (isFileName_fileName (Dart.isWord_viewModelClass printable)) grown view viewModel
          exact .inr ⟨document, compiled, rfl, interrupted⟩

end Failures

/-- A command that fails has changed no file, whatever its arguments and the disk, unless it is a
build of a text without errors that found a directory in the place of the view model's file. Such a
build has written the view, and changed no other file. -/
theorem sameFiles_or_interrupted {arguments : List String} {disk after : Disk}
    {outcome : Option Outcome} (ran : (run Disk.files arguments).run disk = (outcome, after))
    (fails : exitCodeOf outcome ≠ 0) :
    SameFiles disk after ∨
      ∃ options path directory indent text document,
        invocation? arguments = some ⟨options, .build path directory indent⟩ ∧
        disk.read path = .ok text ∧ (compile options text).outcome = .ok document ∧
        (compile options text).hasErrors = false ∧
        Interrupted disk after directory indent document := by
  rcases run_cases ran with ⟨-, -, rfl⟩ | ⟨invocation, performed, asked, rfl, performs⟩
  · exact .inl (.refl after)
  · have failed : performed.success = false := by
      simpa [exitCodeOf, Outcome.exitCode] using fails
    by_cases builds : ∃ path directory indent, invocation.task = .build path directory indent
    · obtain ⟨path, directory, indent, task⟩ := builds
      have whole : invocation = ⟨invocation.options, .build path directory indent⟩ := by rw [← task]
      rw [perform, task] at performs
      cases read : disk.read path with
      | error why =>
          obtain ⟨-, rfl⟩ := Prod.mk.inj ((run_withText_of_error read).symm.trans performs)
          exact .inl (.refl disk)
      | ok text =>
          have built := (run_withText_of_ok read).symm.trans performs
          refine (sameFiles_or_interrupted_of_buildText built failed).imp_right ?_
          rintro ⟨document, compiled, sound, interrupted⟩
          exact ⟨_, path, directory, indent, text, document, asked.trans (congrArg some whole),
            read, compiled, sound, interrupted⟩
    · have reads : ∀ path directory indent, invocation.task ≠ .build path directory indent :=
        fun path directory indent task => builds ⟨path, directory, indent, task⟩
      have same : ((perform Disk.files invocation).run disk).2 = disk := perform_reading reads
      rw [performs] at same
      exact .inl (same ▸ .refl _)

section Blocked

def blocked : Disk :=
  ⟨[(["a.flui"], .file (.text "Stateless .viewModel: Vm, .view: Text 'a'")),
    (["vm.dart"], .directory)]⟩

theorem blocked_asked : invocation? ["build", "a.flui"] = some ⟨{}, .build "a.flui" "." .tabs⟩ := by
  decide +kernel

theorem blocked_fails :
    exitCodeOf ((run Disk.files ["build", "a.flui"]).run blocked).1 = 1 ∧
      (((run Disk.files ["build", "a.flui"]).run blocked).2.find? ["text.dart"]).any
        (· ≠ .directory) = true := by
  decide +kernel

theorem exitCodeOf_blocked_ne_zero :
    exitCodeOf ((run Disk.files ["build", "a.flui"]).run blocked).1 ≠ 0 := by
  rw [blocked_fails.1]
  decide

theorem blocked_not_sameFiles :
    ¬ SameFiles blocked ((run Disk.files ["build", "a.flui"]).run blocked).2 := by
  intro same
  have there := blocked_fails.2
  cases found : ((run Disk.files ["build", "a.flui"]).run blocked).2.find? ["text.dart"] with
  | none => simp [found] at there
  | some entry =>
      cases entry with
      | directory => simp [found] at there
      | file contents =>
          have before : blocked.find? ["text.dart"] = none := by decide
          have kept := (same ["text.dart"] contents).mp found
          rw [before] at kept
          cases kept

/-- A build that fails may have changed a file. -/
theorem not_sameFiles_of_failure :
    ¬ ∀ (arguments : List String) (options : Options) (path directory : String)
      (indent : Dart.Indent) (disk after : Disk) (outcome : Option Outcome),
      invocation? arguments = some ⟨options, .build path directory indent⟩ →
      (run Disk.files arguments).run disk = (outcome, after) → exitCodeOf outcome ≠ 0 →
      SameFiles disk after := by
  intro traceless
  exact blocked_not_sameFiles
    (traceless ["build", "a.flui"] {} "a.flui" "." .tabs blocked _ _ blocked_asked rfl
      exitCodeOf_blocked_ne_zero)

/-- The build stops at the directory, and leaves the view. -/
theorem sameFiles_or_interrupted_blocked :
    ∃ outcome after document, (run Disk.files ["build", "a.flui"]).run blocked = (outcome, after) ∧
      exitCodeOf outcome = 1 ∧ ¬ SameFiles blocked after ∧
      (compile {} "Stateless .viewModel: Vm, .view: Text 'a'").outcome = .ok document ∧
      Interrupted blocked after "." .tabs document := by
  have reads : blocked.read "a.flui" = .ok "Stateless .viewModel: Vm, .view: Text 'a'" := by
    decide +kernel
  have ran : (run Disk.files ["build", "a.flui"]).run blocked =
      (((run Disk.files ["build", "a.flui"]).run blocked).1,
        ((run Disk.files ["build", "a.flui"]).run blocked).2) := rfl
  rcases sameFiles_or_interrupted ran exitCodeOf_blocked_ne_zero with
    same | ⟨options, path, directory, indent, text, document, asked, read, compiled, -, stopped⟩
  · exact absurd same blocked_not_sameFiles
  · cases blocked_asked.symm.trans asked
    cases reads.symm.trans read
    exact ⟨_, _, document, ran, blocked_fails.1, blocked_not_sameFiles, compiled, stopped⟩

end Blocked

end WidgetTree.Command
