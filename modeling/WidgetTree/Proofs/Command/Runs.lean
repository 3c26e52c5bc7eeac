import WidgetTree.Command.Run
import WidgetTree.Proofs.Command.Disk

namespace WidgetTree.Command

open Grammar (Options)
open WidgetTree.Tree (Document)

section Parts

variable {α β : Type} {disk after : Disk} {path text : String} {why : Failure}

theorem run_bind_eq_iff {first : StateM Disk α} {next : α → StateM Disk β} {value : β} :
    (first >>= next).run disk = (value, after) ↔
      ∃ given middle, first.run disk = (given, middle) ∧
        (next given).run middle = (value, after) := by
  constructor
  · intro ran
    exact ⟨_, _, rfl, ran⟩
  · rintro ⟨given, middle, began, went⟩
    rw [StateT.run_bind, began]
    exact went

theorem run_withText_of_error {go : String → StateM Disk Outcome}
    (failed : disk.read path = .error why) :
    (withText Disk.files path go).run disk = (failure path why, disk) := by
  rw [withText, run_bind_eq_iff]
  exact ⟨disk.read path, disk, rfl, by rw [failed]; rfl⟩

theorem run_withText_of_ok {go : String → StateM Disk Outcome} (read : disk.read path = .ok text) :
    (withText Disk.files path go).run disk = (go text).run disk := by
  have began : (Disk.files.read path).run disk = (.ok text, disk) := congrArg (·, disk) read
  rw [withText, StateT.run_bind, began]
  rfl

theorem write_error_eq (wrote : disk.write path text = (.error why, after)) : after = disk := by
  rw [Disk.write] at wrote
  split at wrote
  · exact (Prod.mk.inj wrote).2.symm
  · split at wrote
    · exact (Prod.mk.inj wrote).2.symm
    · cases (Prod.mk.inj wrote).1

theorem writeFile_cases {outcome : Outcome}
    (ran : (writeFile Disk.files path text).run disk = (outcome, after)) :
    (outcome.success = true ∧ disk.write path text = (.ok (), after)) ∨
      (outcome.success = false ∧ after = disk ∧
        ∃ why, disk.write path text = (.error why, disk)) := by
  rw [writeFile, run_bind_eq_iff] at ran
  obtain ⟨given, middle, wrote, went⟩ := ran
  replace wrote : disk.write path text = (given, middle) := wrote
  cases given with
  | ok value =>
      obtain ⟨rfl, rfl⟩ := Prod.mk.inj went
      exact .inl ⟨rfl, wrote⟩
  | error why =>
      obtain ⟨rfl, rfl⟩ := Prod.mk.inj went
      obtain rfl := write_error_eq wrote
      exact .inr ⟨rfl, rfl, why, wrote⟩

end Parts

section Reading

variable {disk : Disk} {options : Options}

def checkFile (disk : Disk) (options : Options) (path : String) : Outcome :=
  match disk.read path with
  | .error why => failure path why
  | .ok text => checkText options path text

theorem run_withText_pure (path : String) (go : String → Outcome) :
    (withText Disk.files path fun text => return go text).run disk =
      (match disk.read path with
        | .error why => failure path why
        | .ok text => go text, disk) := by
  cases read : disk.read path with
  | error why => exact run_withText_of_error read
  | ok text => exact run_withText_of_ok read

theorem run_checkAll (paths : List String) :
    (checkAll Disk.files options paths).run disk =
      (paths.foldr (checkFile disk options · ++ ·) ⟨true, "", ""⟩, disk) := by
  induction paths with
  | nil => rfl
  | cons path rest ih =>
      rw [checkAll, run_bind_eq_iff]
      refine ⟨_, _, run_withText_pure path _, ?_⟩
      rw [run_bind_eq_iff]
      exact ⟨_, _, ih, rfl⟩

theorem perform_reading {invocation : Invocation}
    (reads : ∀ path directory indent, invocation.task ≠ .build path directory indent) :
    ((perform Disk.files invocation).run disk).2 = disk := by
  obtain ⟨options, task⟩ := invocation
  cases task with
  | check paths => exact congrArg Prod.snd (run_checkAll paths)
  | tokens path | tree path => exact congrArg Prod.snd (run_withText_pure path _)
  | build path directory indent => exact absurd rfl (reads path directory indent)

end Reading

section Building

variable {options : Options} {path directory text : String} {indent : Dart.Indent}
  {document : Document}

theorem exists_document (sound : (compile options text).hasErrors = false) :
    ∃ document, (compile options text).outcome = .ok document ∧
      (compile options text).log.hasErrors = false := by
  rw [Compilation.hasErrors, Bool.or_eq_false_iff] at sound
  cases compiled : (compile options text).outcome with
  | error problem =>
      rw [compiled] at sound
      cases sound.1
  | ok document => exact ⟨document, rfl, sound.2⟩

theorem buildText_refused {m : Type → Type} [Monad m] (files : Files m)
    (errors : (compile options text).hasErrors = true) :
    buildText files options path directory indent text =
      pure ⟨false, "", logText path (compile options text).log⟩ := by
  rw [buildText]
  split
  · next compiled =>
      have found : (compile options text).log.hasErrors = true := by
        simpa [Compilation.hasErrors, compiled, Except.isOk, Except.toBool] using errors
      rw [if_pos found]
  · rfl

theorem buildText_accepted {m : Type → Type} [Monad m] (files : Files m)
    (compiled : (compile options text).outcome = .ok document)
    (sound : (compile options text).hasErrors = false) :
    buildText files options path directory indent text = (do
      let written ← writeDocument files directory indent document
      return ⟨true, "", logText path (compile options text).log⟩ ++ written) := by
  have none : ¬ (compile options text).log.hasErrors = true := by
    simpa [Compilation.hasErrors, compiled, Except.isOk, Except.toBool] using sound
  rw [buildText, compiled]
  exact if_neg none

variable {disk after : Disk} {outcome : Outcome}

/-- How far the writing of a document in a directory came: not to the view, to the view alone, or
through to the view model. -/
inductive Came (disk : Disk) (directory : String) (indent : Dart.Indent) (document : Document) :
    Bool → Disk → Prop
  | nowhere {after : Disk} (grown : Grown disk after) :
      Came disk directory indent document false after
  | halfway {made after : Disk} {why : Failure} (grown : Grown disk made)
      (view : made.write (join directory (Dart.fileName document.viewClass))
        (Dart.view indent document) = (.ok (), after))
      (viewModel : after.write (join directory (Dart.fileName document.viewModelClass))
        (Dart.viewModel indent document) = (.error why, after)) :
      Came disk directory indent document false after
  | through {made written after : Disk} (grown : Grown disk made)
      (view : made.write (join directory (Dart.fileName document.viewClass))
        (Dart.view indent document) = (.ok (), written))
      (viewModel : written.write (join directory (Dart.fileName document.viewModelClass))
        (Dart.viewModel indent document) = (.ok (), after)) :
      Came disk directory indent document true after

theorem came_writeDocument
    (ran : (writeDocument Disk.files directory indent document).run disk = (outcome, after)) :
    Came disk directory indent document outcome.success after := by
  rw [writeDocument, run_bind_eq_iff] at ran
  obtain ⟨given, made, makes, went⟩ := ran
  have grown : Grown disk made := by
    have grown := grows_makeAll directory disk
    rwa [makes] at grown
  cases given with
  | error why =>
      obtain ⟨rfl, rfl⟩ := Prod.mk.inj went
      exact .nowhere grown
  | ok value =>
      obtain ⟨view, written, wroteView, goes⟩ := run_bind_eq_iff.mp went
      rcases writeFile_cases wroteView with ⟨good, wrote⟩ | ⟨bad, rfl, -⟩
      · rw [if_pos good] at goes
        obtain ⟨viewModel, last, wroteViewModel, ends⟩ := run_bind_eq_iff.mp goes
        obtain ⟨rfl, rfl⟩ := Prod.mk.inj ends
        have success : (view ++ viewModel).success = viewModel.success := by
          change (view.success && viewModel.success) = viewModel.success
          rw [good, Bool.true_and]
        rw [success]
        rcases writeFile_cases wroteViewModel with ⟨good', wrote'⟩ | ⟨bad', rfl, why, failed⟩
        · rw [good']
          exact .through grown wrote wrote'
        · rw [bad']
          exact .halfway grown wrote failed
      · rw [if_neg (by simp [bad])] at goes
        obtain ⟨rfl, rfl⟩ := Prod.mk.inj goes
        rw [bad]
        exact .nowhere grown

theorem run_buildText_accepted (compiled : (compile options text).outcome = .ok document)
    (sound : (compile options text).hasErrors = false)
    (ran : (buildText Disk.files options path directory indent text).run disk = (outcome, after)) :
    Came disk directory indent document outcome.success after := by
  rw [buildText_accepted Disk.files compiled sound] at ran
  obtain ⟨written, last, wrote, went⟩ := run_bind_eq_iff.mp ran
  obtain ⟨rfl, rfl⟩ := Prod.mk.inj went
  have success (findings : String) :
      ((⟨true, "", findings⟩ : Outcome) ++ written).success = written.success :=
    Bool.true_and written.success
  rw [success]
  exact came_writeDocument wrote

end Building

theorem run_cases {disk after : Disk} {arguments : List String} {outcome : Option Outcome}
    (ran : (run Disk.files arguments).run disk = (outcome, after)) :
    (invocation? arguments = none ∧ outcome = none ∧ after = disk) ∨
      ∃ invocation performed, invocation? arguments = some invocation ∧ outcome = some performed ∧
        (perform Disk.files invocation).run disk = (performed, after) := by
  rw [run] at ran
  cases asked : invocation? arguments with
  | none =>
      rw [asked] at ran
      obtain ⟨rfl, rfl⟩ := Prod.mk.inj ran
      exact .inl ⟨rfl, rfl, rfl⟩
  | some invocation =>
      rw [asked] at ran
      obtain ⟨performed, last, performs, went⟩ := run_bind_eq_iff.mp ran
      obtain ⟨rfl, rfl⟩ := Prod.mk.inj went
      exact .inr ⟨invocation, performed, rfl, rfl, performs⟩

end WidgetTree.Command
