namespace WidgetTree.Command

def pieces (path : String) : List String :=
  ((path.toList.splitOn '/').map String.ofList).filter (· ≠ "")

def endsInSlash (path : String) : Bool := path.toList.getLast? = some '/'

def join (directory name : String) : String :=
  if endsInSlash directory then directory ++ name else directory ++ "/" ++ name

/-- The names without those that stay where they are, but for one in front. -/
def withoutPoints : List String → List String
  | [] => []
  | first :: rest => first :: rest.filter (· ≠ ".")

/-- The paths of the directories above a path, the nearest first. A point at the end of a path
counts for nothing, so the path above `a/b/.` is `a`. -/
def above (path : String) : List String :=
  let names := withoutPoints (pieces path)
  let root := if path.toList.head? = some '/' then "/" else ""
  ((List.range names.length).drop 1).reverse.map fun count =>
    root ++ "/".intercalate (names.take count)

end WidgetTree.Command
