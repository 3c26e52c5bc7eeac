import WidgetTree.Proofs.Command.Runs

namespace WidgetTree.Command

open Grammar (Options)
open WidgetTree.Tree (Document)

/-- The same files, with a record of the paths at which something is to be written or made. -/
def Files.recorded {m : Type → Type} [Monad m] (files : Files m) :
    Files (StateT (List String) m) where
  read path := files.read path
  write path text := do
    modify (· ++ [path])
    files.write path text
  make path := do
    modify (· ++ [path])
    files.make path
  isDirectory path := files.isDirectory path

/-- The paths at which a task tries to write or to make something, whether it can or not. -/
def attempts (disk : Disk) (options : Options) (task : Task) : List String :=
  (((perform Disk.files.recorded ⟨options, task⟩).run []).run disk).1.2

variable {α β : Type}

def Records (recorded : StateT (List String) (StateM Disk) α) (plain : StateM Disk α) : Prop :=
  ∀ record disk, ∃ added,
    (recorded.run record).run disk =
      (((plain.run disk).1, record ++ added), (plain.run disk).2) ∧
    (added = [] → (plain.run disk).2 = disk)

theorem Records.reading {plain : StateM Disk α} (same : ∀ disk, (plain.run disk).2 = disk) :
    Records (liftM plain) plain := by
  intro record disk
  refine ⟨[], ?_, fun _ => same disk⟩
  rw [List.append_nil]
  rfl

theorem Records.pure (value : α) : Records (Pure.pure value) (Pure.pure value) := by
  have plain : Records (liftM (Pure.pure value : StateM Disk α)) (Pure.pure value) :=
    .reading fun _ => rfl
  exact plain

theorem Records.bind {recorded : StateT (List String) (StateM Disk) α} {plain : StateM Disk α}
    {next : α → StateT (List String) (StateM Disk) β} {next' : α → StateM Disk β}
    (first : Records recorded plain) (goes : ∀ value, Records (next value) (next' value)) :
    Records (recorded >>= next) (plain >>= next') := by
  intro record disk
  obtain ⟨added, began, quiet⟩ := first record disk
  obtain ⟨more, went, quiet'⟩ :=
    goes (plain.run disk).1 (record ++ added) (plain.run disk).2
  refine ⟨added ++ more, ?_, fun none => ?_⟩
  · rw [StateT.run_bind, StateT.run_bind, began, ← List.append_assoc]
    exact went
  · obtain ⟨rfl, rfl⟩ := List.append_eq_nil_iff.mp none
    exact (quiet' rfl).trans (quiet rfl)

section Operations

variable (path text : String)

theorem records_read : Records (Disk.files.recorded.read path) (Disk.files.read path) :=
  .reading fun _ => rfl

theorem records_isDirectory :
    Records (Disk.files.recorded.isDirectory path) (Disk.files.isDirectory path) :=
  .reading fun _ => rfl

theorem records_write :
    Records (Disk.files.recorded.write path text) (Disk.files.write path text) := by
  intro record disk
  exact ⟨[path], rfl, fun none => absurd none (List.cons_ne_nil _ _)⟩

theorem records_make : Records (Disk.files.recorded.make path) (Disk.files.make path) := by
  intro record disk
  exact ⟨[path], rfl, fun none => absurd none (List.cons_ne_nil _ _)⟩

theorem records_settle (result : Except Failure Unit) :
    Records (Disk.files.recorded.settle path result) (Disk.files.settle path result) := by
  cases result with
  | ok value => exact .pure _
  | error why =>
      refine (records_isDirectory path).bind fun there => ?_
      cases there with
      | true | false => exact .pure _

theorem records_makeChain (paths : List String) :
    Records (Disk.files.recorded.makeChain paths) (Disk.files.makeChain paths) := by
  induction paths with
  | nil => exact .pure _
  | cons path others ih =>
      rw [Files.makeChain, Files.makeChain]
      refine (records_make path).bind fun result => ?_
      split
      · refine ih.bind fun result => ?_
        cases result with
        | error why => exact .pure _
        | ok value => exact (records_make path).bind fun result => records_settle path result
      · exact records_settle path _

theorem records_makeAll :
    Records (Disk.files.recorded.makeAll path) (Disk.files.makeAll path) :=
  records_makeChain _

theorem records_writeFile :
    Records (writeFile Disk.files.recorded path text) (writeFile Disk.files path text) := by
  refine (records_write path text).bind fun result => ?_
  cases result with
  | error why | ok value => exact .pure _

theorem records_withText {go : String → StateT (List String) (StateM Disk) Outcome}
    {go' : String → StateM Disk Outcome} (goes : ∀ text, Records (go text) (go' text)) :
    Records (withText Disk.files.recorded path go) (withText Disk.files path go') := by
  refine (records_read path).bind fun result => ?_
  cases result with
  | error why => exact .pure _
  | ok text => exact goes text

end Operations

section Tasks

variable {options : Options}

theorem records_writeDocument (directory : String) (indent : Dart.Indent) (document : Document) :
    Records (writeDocument Disk.files.recorded directory indent document)
      (writeDocument Disk.files directory indent document) := by
  refine (records_makeAll directory).bind fun result => ?_
  cases result with
  | error why => exact .pure _
  | ok value =>
      refine (records_writeFile _ _).bind fun view => ?_
      split
      · exact (records_writeFile _ _).bind fun viewModel => .pure _
      · exact .pure _

theorem records_buildText (path directory : String) (indent : Dart.Indent) (text : String) :
    Records (buildText Disk.files.recorded options path directory indent text)
      (buildText Disk.files options path directory indent text) := by
  rw [buildText, buildText]
  split
  · split
    · exact .pure _
    · exact (records_writeDocument directory indent _).bind fun written => .pure _
  · exact .pure _

theorem records_checkAll (paths : List String) :
    Records (checkAll Disk.files.recorded options paths) (checkAll Disk.files options paths) := by
  induction paths with
  | nil => exact .pure _
  | cons path rest ih =>
      refine (records_withText path fun text => .pure _).bind fun first => ?_
      exact ih.bind fun others => .pure _

/-- The record changes nothing of what a task does, and whoever changes a disk is recorded. -/
theorem records_perform (invocation : Invocation) :
    Records (perform Disk.files.recorded invocation) (perform Disk.files invocation) := by
  obtain ⟨options, task⟩ := invocation
  cases task with
  | check paths => exact records_checkAll paths
  | tokens path | tree path => exact records_withText path fun text => .pure _
  | build path directory indent =>
      exact records_withText path fun text => records_buildText path directory indent text

theorem perform_of_attempts_eq_nil {disk : Disk} {task : Task}
    (none : attempts disk options task = []) :
    ((perform Disk.files ⟨options, task⟩).run disk).2 = disk := by
  obtain ⟨added, ran, quiet⟩ := records_perform ⟨options, task⟩ [] disk
  rw [attempts, ran] at none
  exact quiet none

end Tasks

end WidgetTree.Command
