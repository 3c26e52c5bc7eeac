import WidgetTree.Command.Files

/-!
A directory tree held in memory. Paths are relative to its top; around the top lie directories in
which nothing else is known to be. Main statement: `find?_put`, what is put at a place is found
there, and nothing else changes.
-/

namespace WidgetTree.Command

inductive Contents
  | text (text : String)
  | binary (bytes : List UInt8)
  deriving DecidableEq, Repr

def Contents.ofBytes (bytes : List UInt8) : Contents :=
  match String.fromUTF8? ⟨bytes.toArray⟩ with
  | some decoded => .text decoded
  | none => .binary bytes

inductive Entry
  | file (contents : Contents)
  | directory
  deriving DecidableEq, Repr

/-- The names on the way from the top, which is the empty place. A way that leaves the top begins
with as many double points as it goes up. -/
abbrev Place := List String

def Place.isOuter (place : Place) : Bool := place.all (· = "..")

def Place.step (place : Place) (name : String) : Place :=
  if name = "." then place
  else if name = ".." then
    if place.isOuter then place ++ [".."] else place.dropLast
  else place ++ [name]

/-- Entries by place; the first one counts.

An operation fails where an entry is missing, where it is a directory that should be a file, where
a file stands on the way, where something is already there that is to be made, and where a file
that is read holds no UTF-8. Permissions, limits on the length of names and a disk that is full are
left out: no operation fails for one of these. -/
structure Disk where
  entries : List (Place × Entry) := []

namespace Disk

def find? (disk : Disk) (place : Place) : Option Entry :=
  if place.isOuter then some .directory else disk.entries.lookup place

def put (disk : Disk) (place : Place) (entry : Entry) : Disk :=
  ⟨(place, entry) :: disk.entries.filter (·.1 ≠ place)⟩

theorem lookup_others {place other : Place} (different : other ≠ place) :
    ∀ entries : List (Place × Entry),
      (entries.filter (·.1 ≠ place)).lookup other = entries.lookup other
  | [] => rfl
  | head :: tail => by
      have rest := lookup_others different tail
      rw [List.filter_cons]
      split <;> grind

theorem find?_put (disk : Disk) (place other : Place) (entry : Entry)
    (inside : place.isOuter = false) :
    (disk.put place entry).find? other =
      if other = place then some entry else disk.find? other := by
  by_cases same : other = place
  · subst same
    simp [find?, put, inside]
  · by_cases outer : other.isOuter
    · simp [find?, outer, same]
    · simpa [find?, put, outer, same, List.lookup_cons, beq_eq_false_iff_ne.mpr same] using
        lookup_others same disk.entries

def follow (disk : Disk) (place : Place) : List String → Except Failure Place
  | [] => .ok place
  | name :: rest =>
      match disk.find? place with
      | none => .error .missing
      | some (.file _) => .error .notDirectory
      | some .directory => disk.follow (place.step name) rest

def resolve (disk : Disk) (path : String) : Except Failure Place :=
  disk.follow [] (pieces path ++ if endsInSlash path then ["."] else [])

def read (disk : Disk) (path : String) : Except Failure String :=
  match disk.resolve path with
  | .error why => .error why
  | .ok place =>
      match disk.find? place with
      | none => .error .missing
      | some .directory => .error .isDirectory
      | some (.file (.binary _)) => .error .notText
      | some (.file (.text text)) => .ok text

def write (disk : Disk) (path text : String) : Except Failure Unit × Disk :=
  match disk.resolve path with
  | .error why => (.error why, disk)
  | .ok place =>
      match disk.find? place with
      | some .directory => (.error .isDirectory, disk)
      | _ => (.ok (), disk.put place (.file (.text text)))

def isDirectory (disk : Disk) (path : String) : Bool :=
  match disk.resolve path with
  | .error _ => false
  | .ok place => disk.find? place = some .directory

/-- Makes the directory that the last name stands for. Points stand for one that is there. -/
def make (disk : Disk) (path : String) : Except Failure Unit × Disk :=
  match (pieces path).getLast? with
  | none => (.error .missing, disk)
  | some last =>
      match disk.follow [] ((pieces path).dropLast ++ ["."]) with
      | .error why => (.error why, disk)
      | .ok around =>
          if last = "." || last = ".." || (disk.find? (around ++ [last])).isSome then
            (.error .alreadyThere, disk)
          else (.ok (), disk.put (around ++ [last]) .directory)

def files : Files (StateM Disk) where
  read path := fun disk => (disk.read path, disk)
  write path text := fun disk => disk.write path text
  make path := fun disk => disk.make path
  isDirectory path := fun disk => (disk.isDirectory path, disk)

def add (disk : Disk) (path : String) (entry : Entry) : Disk :=
  let place := (pieces path).foldl Place.step []
  let around := (List.range place.length).map place.take
  let disk := around.foldl
    (fun disk place => if (disk.find? place).isSome then disk else disk.put place .directory) disk
  disk.put place entry

def changedSince (disk before : Disk) : List (String × String) :=
  disk.entries.filterMap fun (place, entry) =>
    match entry with
    | .file (.text text) =>
        if place.head? = some ".." || before.find? place = some entry then none
        else some ("/".intercalate place, text)
    | _ => none

end Disk

end WidgetTree.Command
