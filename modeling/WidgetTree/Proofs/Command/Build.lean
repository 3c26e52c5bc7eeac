import WidgetTree.Proofs.Command.Runs
import WidgetTree.Proofs.Dart.View

/-!
What a successful build leaves behind. Main statement: `build_delivers`, the view model is there, no
file but the two has changed, and the view is there just when the two have different file names.
-/

namespace WidgetTree.Command

open Grammar (Options)
open Outline (Printable printable_of_parse)
open WidgetTree.Tree (Document)

section Names

theorem isFileName_fileName {className : String} (isWord : Dart.IsWord className.toList) :
    IsFileName (Dart.fileName className) := by
  have ending : ".dart".toList = ['.', 'd', 'a', 'r', 't'] := rfl
  have named : 't' ∈ (Dart.fileName className).toList := by
    rw [Dart.fileName, String.toList_append, ending]
    simp
  have other {name : String} (without : 't' ∉ name.toList) : Dart.fileName className ≠ name :=
    fun same => without (same ▸ named)
  refine ⟨other (by decide), ?_, other (by decide), other (by decide)⟩
  rw [Dart.fileName, String.toList_append, ending, List.mem_append]
  rintro (member | member)
  · have low : Text.isLow '/' = true := by decide
    exact Dart.not_mem_of_spelled isWord.2 (by decide) (Dart.mem_fileStem member low)
  · exact absurd member (by decide)

end Names

section Runs

variable {disk after : Disk} {outcome : Outcome}

theorem withText_succeeds {path : String} {go : String → StateM Disk Outcome}
    (ran : (withText Disk.files path go).run disk = (outcome, after))
    (succeeds : outcome.success = true) :
    ∃ text, disk.read path = .ok text ∧ (go text).run disk = (outcome, after) := by
  cases read : disk.read path with
  | error why =>
      rw [run_withText_of_error read] at ran
      obtain ⟨rfl, -⟩ := Prod.mk.inj ran
      cases succeeds
  | ok text =>
      rw [run_withText_of_ok read] at ran
      exact ⟨text, rfl, ran⟩

theorem writeDocument_succeeds {directory : String} {indent : Dart.Indent} {document : Document}
    (ran : (writeDocument Disk.files directory indent document).run disk = (outcome, after))
    (succeeds : outcome.success = true) :
    ∃ made written, Grown disk made ∧
      made.write (join directory (Dart.fileName document.viewClass)) (Dart.view indent document) =
        (.ok (), written) ∧
      written.write (join directory (Dart.fileName document.viewModelClass))
        (Dart.viewModel indent document) = (.ok (), after) := by
  have came := came_writeDocument ran
  rw [succeeds] at came
  cases came with
  | through grown view viewModel => exact ⟨_, _, grown, view, viewModel⟩

theorem buildText_succeeds {options : Options} {path directory text : String}
    {indent : Dart.Indent}
    (ran : (buildText Disk.files options path directory indent text).run disk = (outcome, after))
    (succeeds : outcome.success = true) :
    ∃ document written, (compile options text).outcome = .ok document ∧
      (compile options text).log.hasErrors = false ∧
      (writeDocument Disk.files directory indent document).run disk = (written, after) ∧
        written.success = true := by
  cases errors : (compile options text).hasErrors with
  | true =>
      rw [buildText_refused Disk.files errors] at ran
      obtain ⟨rfl, -⟩ := Prod.mk.inj ran
      cases succeeds
  | false =>
      obtain ⟨document, compiled, sound⟩ := exists_document errors
      rw [buildText_accepted Disk.files compiled errors] at ran
      obtain ⟨written, last, wrote, went⟩ := run_bind_eq_iff.mp ran
      obtain ⟨rfl, rfl⟩ := Prod.mk.inj went
      have both : (true && written.success) = true := succeeds
      exact ⟨document, written, compiled, sound, wrote, (Bool.and_eq_true_iff.mp both).2⟩

end Runs

/-- What a build of the document in the directory has to leave behind. -/
structure Delivered (disk after : Disk) (directory : String) (indent : Dart.Indent)
    (document : Document) : Prop where
  /-- The view is there, unless the view model has been put in its place. -/
  view : after.read (join directory (Dart.fileName document.viewClass)) =
      .ok (Dart.view indent document) ↔
    Dart.fileName document.viewClass ≠ Dart.fileName document.viewModelClass
  viewModel : after.read (join directory (Dart.fileName document.viewModelClass)) =
    .ok (Dart.viewModel indent document)
  /-- The view imports the file of the view model. -/
  imports : ∃ front back, Dart.view indent document =
    front ++ "import './" ++ Dart.fileName document.viewModelClass ++ "';\n" ++ back
  /-- Wherever else a file was there is the same file, and there are no others. -/
  others : ∀ place contents,
    after.resolve (join directory (Dart.fileName document.viewClass)) ≠ .ok place →
    after.resolve (join directory (Dart.fileName document.viewModelClass)) ≠ .ok place →
      (after.find? place = some (.file contents) ↔ disk.find? place = some (.file contents))

section Builds

variable {disk made written after : Disk} {directory : String} {indent : Dart.Indent}
  {document : Document}

theorem view_ne_viewModel (indent : Dart.Indent) (document : Document) :
    Dart.view indent document ≠ Dart.viewModel indent document := by
  have slash : Dart.preamble.toList.head? = some '/' := by decide +kernel
  have letter : Dart.materialImport.toList.head? = some 'i' := by decide +kernel
  have view : (Dart.view indent document).toList.head? = some '/' := by
    rw [Dart.toList_view, List.head?_append, slash]
    rfl
  have viewModel : (Dart.viewModel indent document).toList.head? = some 'i' := by
    unfold Dart.viewModel
    simp only [String.toList_append, List.append_assoc]
    rw [List.head?_append, letter]
    rfl
  intro same
  rw [same, viewModel] at view
  cases view

theorem exists_import (indent : Dart.Indent) (document : Document) :
    ∃ front back, Dart.view indent document =
      front ++ "import './" ++ Dart.fileName document.viewModelClass ++ "';\n" ++ back := by
  have lineEnd (rest : String) : "';\n\n" ++ rest = "';\n" ++ ("\n" ++ rest) := by
    rw [← String.append_assoc]
    rfl
  obtain ⟨back, split⟩ : ∃ back, Dart.view indent document =
      "// DO NOT WRITE CODE IN THIS FILE\n" ++
        ("// IT WILL GET OVERWRITTEN WHEN THE UI CODE IS REBUILT\n\n" ++ (Dart.materialImport ++
          ("import './" ++ (Dart.fileName document.viewModelClass ++ ("';\n" ++ back))))) := by
    unfold Dart.view
    simp only [String.append_assoc, -String.reduceAppend, lineEnd]
    exact ⟨_, rfl⟩
  refine ⟨"// DO NOT WRITE CODE IN THIS FILE\n" ++
    ("// IT WILL GET OVERWRITTEN WHEN THE UI CODE IS REBUILT\n\n" ++ Dart.materialImport), back, ?_⟩
  simp only [split, String.append_assoc, -String.reduceAppend]

theorem delivered_of_writes (printable : Printable document) (grown : Grown disk made)
    (wroteView : made.write (join directory (Dart.fileName document.viewClass))
      (Dart.view indent document) = (.ok (), written))
    (wroteViewModel : written.write (join directory (Dart.fileName document.viewModelClass))
      (Dart.viewModel indent document) = (.ok (), after)) :
    Delivered disk after directory indent document := by
  have viewName := isFileName_fileName (Dart.isWord_viewClass printable)
  have viewModelName := isFileName_fileName (Dart.isWord_viewModelClass printable)
  obtain ⟨viewPlace, resolvedView, freeView, rfl⟩ := write_eq_ok_iff.mp wroteView
  obtain ⟨place, resolved, free, rfl⟩ := write_eq_ok_iff.mp wroteViewModel
  have viewKept := resolve_put free (.file (.text (Dart.viewModel indent document)))
    (resolve_put freeView (.file (.text (Dart.view indent document))) resolvedView)
  have viewModelKept := resolve_put free (.file (.text (Dart.viewModel indent document))) resolved
  have viewModelRead := read_put resolved free (Dart.viewModel indent document)
  have apart (differ : Dart.fileName document.viewClass ≠ Dart.fileName document.viewModelClass) :
      viewPlace ≠ place :=
    ne_of_resolve_join viewName viewModelName differ resolvedView resolved
  refine ⟨⟨fun viewRead same => ?_, fun differ => ?_⟩, viewModelRead, exists_import indent document,
    fun other contents notView notViewModel => ?_⟩
  · rw [same, viewModelRead] at viewRead
    exact view_ne_viewModel indent document (Except.ok.inj viewRead).symm
  · apply read_of_find? viewKept
    rw [find?_put_other free _ (apart differ), find?_put_same freeView]
  · have notThere : other ≠ viewPlace := by
      rintro rfl
      exact notView viewKept
    have notHere : other ≠ place := by
      rintro rfl
      exact notViewModel viewModelKept
    rw [find?_put_other free _ notHere, find?_put_other freeView _ notThere]
    exact grown.file_iff other contents

/-- A build that succeeds has read and compiled its text without errors and put the view model into
its file; it has changed no file but those of the view and the view model, and the view stands in
its own file unless that is the file of the view model. -/
theorem build_delivers {arguments : List String} {options : Options} {path directory : String}
    {indent : Dart.Indent}
    (asked : invocation? arguments = some ⟨options, .build path directory indent⟩)
    {disk after : Disk} {outcome : Outcome}
    (ran : (run Disk.files arguments).run disk = (some outcome, after))
    (succeeds : outcome.exitCode = 0) :
    ∃ text document, disk.read path = .ok text ∧
      (compile options text).outcome = .ok document ∧
      (compile options text).hasErrors = false ∧
      Delivered disk after directory indent document := by
  rw [run, asked] at ran
  obtain ⟨performed, last, performs, went⟩ := run_bind_eq_iff.mp ran
  obtain ⟨same, rfl⟩ := Prod.mk.inj went
  obtain rfl := Option.some.inj same
  have success : performed.success = true := by
    cases good : performed.success with
    | true => rfl
    | false => simp [Outcome.exitCode, good] at succeeds
  obtain ⟨text, read, built⟩ := withText_succeeds performs success
  obtain ⟨document, written, compiled, sound, wrote, good⟩ := buildText_succeeds built success
  obtain ⟨made, between, grown, wroteView, wroteViewModel⟩ := writeDocument_succeeds wrote good
  have noErrors : (compile options text).hasErrors = false := by
    rw [Compilation.hasErrors, compiled, sound]
    rfl
  exact ⟨text, document, read, compiled, noErrors,
    delivered_of_writes (printable_of_parse compiled) grown wroteView wroteViewModel⟩

/-- A view and a view model of one name: the build succeeds and the view is gone. -/
theorem build_delivers_text :
    ∃ disk after outcome document,
      disk.read "a.flui" = .ok "Stateless .viewModel: Text, .view: Text 'a'" ∧
      (run Disk.files ["build", "a.flui", "--out-dir", "out"]).run disk = (some outcome, after) ∧
      outcome.exitCode = 0 ∧
      (compile {} "Stateless .viewModel: Text, .view: Text 'a'").outcome = .ok document ∧
      Delivered disk after "out" .tabs document ∧
      after.read "out/text.dart" ≠ .ok (Dart.view .tabs document) := by
  let disk : Disk :=
    ⟨[(["a.flui"], .file (.text "Stateless .viewModel: Text, .view: Text 'a'"))]⟩
  let arguments := ["build", "a.flui", "--out-dir", "out"]
  have asked : invocation? arguments = some ⟨{}, .build "a.flui" "out" .tabs⟩ := by decide +kernel
  have exits : ((run Disk.files arguments).run disk).1.map (·.exitCode) = some 0 := by
    decide +kernel
  have reads : disk.read "a.flui" = .ok "Stateless .viewModel: Text, .view: Text 'a'" := by
    decide +kernel
  have named : (compile {} "Stateless .viewModel: Text, .view: Text 'a'").outcome.toOption.map
      (fun document => (document.viewClass, document.viewModelClass)) = some ("Text", "Text") := by
    decide +kernel
  obtain ⟨outcome, given, succeeds⟩ := Option.map_eq_some_iff.mp exits
  have ran : (run Disk.files arguments).run disk =
      (some outcome, ((run Disk.files arguments).run disk).2) := Prod.ext given rfl
  obtain ⟨text, document, read, compiled, -, delivered⟩ := build_delivers asked ran succeeds
  obtain rfl := Except.ok.inj (reads.symm.trans read)
  rw [compiled] at named
  obtain ⟨viewClass, viewModelClass⟩ := Prod.mk.inj (Option.some.inj named)
  refine ⟨disk, _, outcome, document, reads, ran, succeeds, compiled, delivered, fun found => ?_⟩
  have path : join "out" (Dart.fileName document.viewClass) = "out/text.dart" := by
    rw [viewClass]
    decide +kernel
  rw [← path] at found
  exact delivered.view.mp found (by rw [viewClass, viewModelClass])

end Builds

end WidgetTree.Command
