import WidgetTree.Proofs.Command.Build
import WidgetTree.Proofs.Dart.PascalCase

/-!
The files of classes. Main definition: `FilesApart`, two classes have files of their own. Main
statement: `filesApart_of_isPascal`, classes with different names in Pascal case have them.
-/

namespace WidgetTree.Command

open WidgetTree.Tree (Document)

/-- The files that two classes are written to have nothing to do with each other. -/
structure FilesApart (className other : String) : Prop where
  /-- They never lie at one place, in whatever directories the classes are written. -/
  places : ∀ {disk disk' : Disk} {directory directory' : String} {place place' : Place},
    disk.resolve (join directory (Dart.fileName className)) = .ok place →
    disk'.resolve (join directory' (Dart.fileName other)) = .ok place' → place ≠ place'
  /-- The first file holds what it held when the second one is written. -/
  kept : ∀ {disk : Disk} {directory directory' contents text : String},
    (disk.write (join directory' (Dart.fileName other)) contents).2.read
        (join directory (Dart.fileName className)) = .ok text ↔
      disk.read (join directory (Dart.fileName className)) = .ok text
  /-- A view and a view model of these classes are both there when they have been written. -/
  written : ∀ {disk after : Disk} {outcome : Outcome} {directory : String} {indent : Dart.Indent}
    {document : Document}, document.viewClass = className → document.viewModelClass = other →
    (writeDocument Disk.files directory indent document).run disk = (outcome, after) →
    outcome.success = true →
      after.read (join directory (Dart.fileName className)) = .ok (Dart.view indent document) ∧
      after.read (join directory (Dart.fileName other)) = .ok (Dart.viewModel indent document)

section Apart

variable {className other : String}

theorem filesApart_of_ne (isName : IsFileName (Dart.fileName className))
    (isOther : IsFileName (Dart.fileName other))
    (different : Dart.fileName className ≠ Dart.fileName other) : FilesApart className other where
  places := ne_of_resolve_join isName isOther different
  kept := read_write_other isName isOther different
  written := by
    rintro disk after outcome directory indent document rfl rfl ran succeeds
    obtain ⟨made, between, -, wroteView, wroteViewModel⟩ := writeDocument_succeeds ran succeeds
    have last : (between.write (join directory (Dart.fileName document.viewModelClass))
        (Dart.viewModel indent document)).2 = after := congrArg Prod.snd wroteViewModel
    refine ⟨?_, read_of_write wroteViewModel⟩
    rw [← last, read_write_other isName isOther different]
    exact read_of_write wroteView

theorem FilesApart.ne (isName : IsFileName (Dart.fileName className))
    (apart : FilesApart className other) : className ≠ other := by
  rintro rfl
  -- The top of an empty disk will do for the directory of both.
  have top : Disk.follow {} [] (pieces ".") = .ok [] := by decide +kernel
  have resolved : Disk.resolve {} (join "." (Dart.fileName className)) =
      .ok [Dart.fileName className] :=
    (resolve_join_eq_ok_iff isName).mpr ⟨[], top, rfl, rfl⟩
  exact apart.places resolved resolved rfl

theorem isFileName_of_isPascal (pascal : Dart.isPascal className = true) :
    IsFileName (Dart.fileName className) :=
  isFileName_fileName (Dart.isWord_of_isPascal pascal)

/-- Classes with names in Pascal case: their names are read back from the file stems, so no two
names have one stem, and different classes, and only those, are written to different files. -/
theorem filesApart_of_isPascal (pascal : Dart.isPascal className = true)
    (pascal' : Dart.isPascal other = true) :
    Dart.pascalCase (Dart.fileStem className) = className ∧
      (Dart.fileStem className = Dart.fileStem other → className = other) ∧
      (FilesApart className other ↔ className ≠ other) := by
  refine ⟨Dart.pascalCase_fileStem pascal, Dart.fileStem_injOn pascal pascal',
    fun apart => apart.ne (isFileName_of_isPascal pascal), fun different => ?_⟩
  have differ : Dart.fileName className ≠ Dart.fileName other := fun same =>
    different (Dart.fileName_injOn pascal pascal' same)
  exact filesApart_of_ne (isFileName_of_isPascal pascal) (isFileName_of_isPascal pascal') differ

/-- Two classes whose names differ in the case of one letter: the capital begins a word. -/
theorem filesApart_of_isPascal_counter :
    Dart.isPascal "CounterVM2" = true ∧ Dart.isPascal "CounterVm2" = true ∧
      Dart.pascalCase "counter_v_m2" = "CounterVM2" ∧ FilesApart "CounterVM2" "CounterVm2" ∧
      ∃ document outcome after, (writeDocument Disk.files "lib" .tabs document).run {} =
          (outcome, after) ∧ outcome.success = true ∧
        after.read "lib/counter_v_m2.dart" = .ok (Dart.view .tabs document) ∧
        after.read "lib/counter_vm2.dart" = .ok (Dart.viewModel .tabs document) := by
  have pascal : Dart.isPascal "CounterVM2" = true := by decide +kernel
  have pascal' : Dart.isPascal "CounterVm2" = true := by decide +kernel
  have stem : Dart.fileStem "CounterVM2" = "counter_v_m2" := by decide +kernel
  obtain ⟨readBack, -, apart⟩ := filesApart_of_isPascal pascal pascal'
  have files := apart.mpr (by decide)
  let document : Document :=
    ⟨.stateless, ⟨"viewModel", .leaf .identifier "CounterVm2" {}, {}⟩,
      ⟨"view", .leaf .identifier "CounterVM2" {}, {}⟩⟩
  have ran : (writeDocument Disk.files "lib" .tabs document).run {} =
      (((writeDocument Disk.files "lib" .tabs document).run {}).1,
        ((writeDocument Disk.files "lib" .tabs document).run {}).2) := (Prod.eta _).symm
  have succeeds : ((writeDocument Disk.files "lib" .tabs document).run {}).1.success = true := by
    decide +kernel
  obtain ⟨view, viewModel⟩ := files.written rfl rfl ran succeeds
  have viewPath : join "lib" (Dart.fileName "CounterVM2") = "lib/counter_v_m2.dart" := by
    decide +kernel
  have viewModelPath : join "lib" (Dart.fileName "CounterVm2") = "lib/counter_vm2.dart" := by
    decide +kernel
  rw [stem] at readBack
  rw [viewPath] at view
  rw [viewModelPath] at viewModel
  exact ⟨pascal, pascal', readBack, files, document, _, _, ran, succeeds, view, viewModel⟩

end Apart

end WidgetTree.Command
