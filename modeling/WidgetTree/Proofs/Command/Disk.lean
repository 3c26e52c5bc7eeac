import WidgetTree.Command.Disk

namespace WidgetTree.Command

section Paths

theorem pieces_append_slash (front back : List Char) :
    pieces (String.ofList (front ++ '/' :: back)) =
      pieces (String.ofList front) ++ pieces (String.ofList back) := by
  have cut : (front ++ '/' :: back).splitOn '/' = front.splitOn '/' ++ back.splitOn '/' :=
    List.splitOnP_append_cons front back (beq_self_eq_true '/')
  simp only [pieces, String.toList_ofList, cut, List.map_append, List.filter_append]

/-- A name that a file can have: it neither leads further nor stands for a place that is there. -/
structure IsFileName (name : String) : Prop where
  some : name ≠ ""
  noSlash : '/' ∉ name.toList
  noPoint : name ≠ "."
  noPoints : name ≠ ".."

variable {directory name : String}

theorem pieces_name (isName : IsFileName name) : pieces name = [name] := by
  have whole : name.toList.splitOn '/' = [name.toList] := by
    apply List.splitOnP_eq_singleton
    intro c member
    exact beq_eq_false_iff_ne.mpr (by rintro rfl; exact isName.noSlash member)
  simp [pieces, whole, isName.some]

theorem exists_of_endsInSlash {path : String} (ends : endsInSlash path = true) :
    ∃ front, path = String.ofList (front ++ ['/']) := by
  obtain ⟨front, whole⟩ := List.getLast?_eq_some_iff.mp (of_decide_eq_true ends)
  exact ⟨front, by rw [← whole, String.ofList_toList]⟩

theorem join_eq_append (directory name : String) :
    ∃ front, join directory name = String.ofList (front ++ '/' :: name.toList) ∧
      pieces directory = pieces (String.ofList front) := by
  cases ends : endsInSlash directory with
  | true =>
      obtain ⟨front, rfl⟩ := exists_of_endsInSlash ends
      refine ⟨front, ?_, ?_⟩
      · rw [join, if_pos ends, ← String.toList_inj]
        simp
      · rw [pieces_append_slash]
        simp [pieces]
  | false =>
      refine ⟨directory.toList, ?_, by rw [String.ofList_toList]⟩
      rw [join, ends, ← String.toList_inj]
      simp

theorem pieces_join (isName : IsFileName name) :
    pieces (join directory name) = pieces directory ++ [name] := by
  obtain ⟨front, whole, same⟩ := join_eq_append directory name
  rw [whole, pieces_append_slash, same, String.ofList_toList, pieces_name isName]

theorem endsInSlash_join (isName : IsFileName name) :
    endsInSlash (join directory name) = false := by
  obtain ⟨front, whole, -⟩ := join_eq_append directory name
  obtain none | ⟨more, last, split⟩ := List.eq_nil_or_concat name.toList
  · exact absurd (String.toList_eq_nil_iff.mp none) isName.some
  · have noSlash : last ≠ '/' := by
      rintro rfl
      exact isName.noSlash (by simp [split])
    rw [whole, split, List.concat_eq_append, endsInSlash, String.toList_ofList,
      ← List.cons_append, ← List.append_assoc, List.getLast?_concat]
    simpa using noSlash

end Paths

section Following

variable {disk : Disk} {place target : Place} {names : List String}

theorem isOuter_of_find? (other : disk.find? place ≠ some .directory) : place.isOuter = false := by
  cases outer : place.isOuter with
  | false => rfl
  | true => exact absurd (by rw [Disk.find?, if_pos outer]) other

theorem find?_put_same (other : disk.find? place ≠ some .directory) (entry : Entry) :
    (disk.put place entry).find? place = some entry := by
  rw [Disk.find?_put disk place place entry (isOuter_of_find? other), if_pos rfl]

theorem find?_put_other (other : disk.find? place ≠ some .directory) (entry : Entry)
    (different : target ≠ place) : (disk.put place entry).find? target = disk.find? target := by
  rw [Disk.find?_put disk place target entry (isOuter_of_find? other), if_neg different]

theorem follow_cons_eq_ok_iff {name : String} {rest : List String} :
    disk.follow place (name :: rest) = .ok target ↔
      disk.find? place = some .directory ∧ disk.follow (place.step name) rest = .ok target := by
  rw [Disk.follow]
  split
  · next missing => simp [missing]
  · next file => simp [file]
  · next directory => simp [directory]

theorem follow_append_eq_ok_iff {rest : List String} :
    disk.follow place (names ++ rest) = .ok target ↔
      ∃ middle, disk.follow place names = .ok middle ∧ disk.follow middle rest = .ok target := by
  induction names generalizing place with
  | nil => simp [Disk.follow]
  | cons name names ih =>
      rw [List.cons_append, follow_cons_eq_ok_iff, ih]
      simp only [follow_cons_eq_ok_iff, exists_and_left, and_assoc]

theorem follow_put {spot : Place} (other : disk.find? spot ≠ some .directory) (entry : Entry)
    (followed : disk.follow place names = .ok target) :
    (disk.put spot entry).follow place names = .ok target := by
  induction names generalizing place with
  | nil => exact followed
  | cons name names ih =>
      obtain ⟨directory, behind⟩ := follow_cons_eq_ok_iff.mp followed
      have different : place ≠ spot := by
        rintro rfl
        exact other directory
      refine follow_cons_eq_ok_iff.mpr ⟨?_, ih behind⟩
      rw [find?_put_other other entry different, directory]

theorem follow_of_put {spot : Place} {contents : Contents}
    (other : disk.find? spot ≠ some .directory)
    (followed : (disk.put spot (.file contents)).follow place names = .ok target) :
    disk.follow place names = .ok target := by
  induction names generalizing place with
  | nil => exact followed
  | cons name names ih =>
      obtain ⟨directory, behind⟩ := follow_cons_eq_ok_iff.mp followed
      have different : place ≠ spot := by
        rintro rfl
        rw [find?_put_same other] at directory
        cases directory
      rw [find?_put_other other _ different] at directory
      exact follow_cons_eq_ok_iff.mpr ⟨directory, ih behind⟩

end Following

section Files

variable {disk after : Disk} {directory name path text : String} {place spot : Place}

theorem step_name (isName : IsFileName name) (around : Place) :
    around.step name = around ++ [name] := by
  rw [Place.step, if_neg isName.noPoint, if_neg isName.noPoints]

theorem resolve_join_eq_ok_iff (isName : IsFileName name) :
    disk.resolve (join directory name) = .ok place ↔
      ∃ around, disk.follow [] (pieces directory) = .ok around ∧
        disk.find? around = some .directory ∧ place = around ++ [name] := by
  have names : pieces (join directory name) ++
      (if endsInSlash (join directory name) then ["."] else []) = pieces directory ++ [name] := by
    rw [pieces_join isName, endsInSlash_join isName, if_neg Bool.false_ne_true, List.append_nil]
  rw [Disk.resolve, names, follow_append_eq_ok_iff]
  refine exists_congr fun around => and_congr_right fun _ => ?_
  rw [follow_cons_eq_ok_iff, step_name isName, Disk.follow, Except.ok.injEq,
    eq_comm (a := place)]

theorem ne_of_resolve_join {disk' : Disk} {directory' other : String} {place' : Place}
    (isName : IsFileName name) (isOther : IsFileName other) (different : name ≠ other)
    (resolved : disk.resolve (join directory name) = .ok place)
    (resolved' : disk'.resolve (join directory' other) = .ok place') : place ≠ place' := by
  obtain ⟨around, -, -, rfl⟩ := (resolve_join_eq_ok_iff isName).mp resolved
  obtain ⟨around', -, -, rfl⟩ := (resolve_join_eq_ok_iff isOther).mp resolved'
  intro same
  exact different (List.singleton_inj.mp (List.append_inj_right' same rfl))

theorem resolve_put (other : disk.find? spot ≠ some .directory) (entry : Entry)
    (resolved : disk.resolve path = .ok place) :
    (disk.put spot entry).resolve path = .ok place :=
  follow_put other entry resolved

theorem write_eq_ok_iff :
    disk.write path text = (.ok (), after) ↔
      ∃ place, disk.resolve path = .ok place ∧ disk.find? place ≠ some .directory ∧
        after = disk.put place (.file (.text text)) := by
  rw [Disk.write]
  split
  · next failed => simp [failed]
  · next place resolved =>
      split
      · next directory => simp [resolved, directory]
      · next other =>
          refine ⟨fun same => ⟨place, resolved, other, (Prod.mk.inj same).2.symm⟩, ?_⟩
          rintro ⟨place', resolved', -, rfl⟩
          obtain rfl := Except.ok.inj (resolved.symm.trans resolved')
          rfl

theorem read_of_find? (resolved : disk.resolve path = .ok place)
    (found : disk.find? place = some (.file (.text text))) : disk.read path = .ok text := by
  rw [Disk.read, resolved]
  simp only [found]

theorem read_eq_ok_iff :
    disk.read path = .ok text ↔
      ∃ place, disk.resolve path = .ok place ∧ disk.find? place = some (.file (.text text)) := by
  refine ⟨fun read => ?_, fun ⟨place, resolved, found⟩ => read_of_find? resolved found⟩
  rw [Disk.read] at read
  split at read
  · cases read
  · next place resolved =>
      refine ⟨place, resolved, ?_⟩
      split at read
      · cases read
      · cases read
      · cases read
      · next found => rw [found, Except.ok.inj read]

theorem read_put (resolved : disk.resolve path = .ok place)
    (other : disk.find? place ≠ some .directory) (text : String) :
    (disk.put place (.file (.text text))).read path = .ok text :=
  read_of_find? (resolve_put other _ resolved) (find?_put_same other _)

theorem read_of_write (wrote : disk.write path text = (.ok (), after)) :
    after.read path = .ok text := by
  obtain ⟨place, resolved, free, rfl⟩ := write_eq_ok_iff.mp wrote
  exact read_put resolved free text

theorem read_put_other {contents : Contents} (other : disk.find? spot ≠ some .directory)
    (elsewhere : ∀ place, disk.resolve path = .ok place → place ≠ spot) :
    (disk.put spot (.file contents)).read path = .ok text ↔ disk.read path = .ok text := by
  rw [read_eq_ok_iff, read_eq_ok_iff]
  refine exists_congr fun place => ?_
  have same : (disk.put spot (.file contents)).resolve path = .ok place ↔
      disk.resolve path = .ok place := ⟨follow_of_put other, resolve_put other _⟩
  rw [same]
  refine and_congr_right fun resolved => ?_
  rw [find?_put_other other _ (elsewhere place resolved)]

theorem read_write_other {directory' other contents : String} (isName : IsFileName name)
    (isOther : IsFileName other) (different : name ≠ other) :
    (disk.write (join directory' other) contents).2.read (join directory name) = .ok text ↔
      disk.read (join directory name) = .ok text := by
  rw [Disk.write]
  split
  · rfl
  · next spot written =>
      split
      · rfl
      · next free =>
          exact read_put_other free fun place resolved =>
            ne_of_resolve_join isName isOther different resolved written

end Files

section Growth

/-- Nothing has come up but directories, and those where nothing was. -/
def Grown (disk after : Disk) : Prop :=
  ∀ place, after.find? place = disk.find? place ∨
    disk.find? place = none ∧ after.find? place = some .directory

namespace Grown

variable {disk middle after : Disk}

theorem refl (disk : Disk) : Grown disk disk := fun _ => .inl rfl

theorem trans (first : Grown disk middle) (second : Grown middle after) : Grown disk after := by
  intro place
  rcases second place with same | ⟨missing, made⟩
  · rw [same]
    exact first place
  · rcases first place with same | ⟨-, made'⟩
    · exact .inr ⟨same ▸ missing, made⟩
    · cases made'.symm.trans missing

theorem file_iff (grown : Grown disk after) (place : Place) (contents : Contents) :
    after.find? place = some (.file contents) ↔ disk.find? place = some (.file contents) := by
  rcases grown place with same | ⟨missing, made⟩
  · rw [same]
  · simp [missing, made]

end Grown

theorem grown_make (disk : Disk) (path : String) : Grown disk (disk.make path).2 := by
  rw [Disk.make]
  split
  · exact .refl disk
  · next last _ =>
      split
      · exact .refl disk
      · next around _ =>
          split
          · exact .refl disk
          · next free =>
              have missing : disk.find? (around ++ [last]) = none := by
                simp only [Bool.or_eq_true, not_or, Bool.not_eq_true, Option.isSome_eq_false_iff,
                  Option.isNone_iff_eq_none] at free
                exact free.2
              have other : disk.find? (around ++ [last]) ≠ some .directory := by simp [missing]
              intro place
              by_cases here : place = around ++ [last]
              · subst here
                exact .inr ⟨missing, find?_put_same other _⟩
              · exact .inl (find?_put_other other _ here)

def Grows {α : Type} (program : StateM Disk α) : Prop :=
  ∀ disk, Grown disk (program.run disk).2

variable {α β : Type}

theorem grows_of_reading {program : StateM Disk α} (same : ∀ disk, (program.run disk).2 = disk) :
    Grows program :=
  fun disk => (same disk).symm ▸ .refl disk

theorem Grows.bind {program : StateM Disk α} {next : α → StateM Disk β} (first : Grows program)
    (goes : ∀ value, Grows (next value)) : Grows (program >>= next) :=
  fun disk => (first disk).trans (goes _ _)

theorem grows_settle (path : String) (result : Except Failure Unit) :
    Grows (Disk.files.settle path result) := by
  cases result with
  | ok value => exact grows_of_reading fun _ => rfl
  | error why =>
      rw [Files.settle]
      refine Grows.bind (grows_of_reading fun _ => rfl) fun there => ?_
      cases there with
      | true | false => exact grows_of_reading fun _ => rfl

theorem grows_makeChain (paths : List String) : Grows (Disk.files.makeChain paths) := by
  induction paths with
  | nil => exact grows_of_reading fun _ => rfl
  | cons path others ih =>
      have make : Grows (Disk.files.make path) := fun disk => grown_make disk path
      rw [Files.makeChain]
      refine make.bind fun result => ?_
      split
      · refine ih.bind fun result => ?_
        cases result with
        | error why => exact grows_of_reading fun _ => rfl
        | ok value => exact make.bind fun result => grows_settle path result
      · exact grows_settle path _

theorem grows_makeAll (path : String) : Grows (Disk.files.makeAll path) :=
  grows_makeChain _

end Growth

end WidgetTree.Command
