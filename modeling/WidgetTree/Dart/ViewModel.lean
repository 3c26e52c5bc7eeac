import WidgetTree.Dart.View

/-!
The view model: a class with a placeholder for every name that the view uses. A name is declared
once, in the form of its first use.
-/

namespace WidgetTree.Dart

open WidgetTree.Tree (Document Leaf Node)

inductive MemberForm
  | field
  | method
  deriving DecidableEq, Repr

structure Member where
  form : MemberForm
  name : String
  deriving DecidableEq, Repr

def Member.ofLeaf? : Leaf → String → Option Member
  | .identifier, name => some ⟨.field, name⟩
  | .call, name | .callback, name => some ⟨.method, name⟩
  | .constant _, _ => none

/-- The members that were found so far, and the names that are taken by them. -/
structure Collection where
  members : List Member := []
  taken : List String := []
  deriving DecidableEq, Repr

def Collection.add (found : Collection) (member : Member) : Collection :=
  if member.name ∈ found.taken then found
  else ⟨found.members ++ [member], member.name :: found.taken⟩

mutual

/-- Adds the members that the values of a tree ask for, from left to right. -/
def collect (found : Collection) : Node → Collection
  | .leaf leaf value _ =>
      match Member.ofLeaf? leaf value with
      | some member => found.add member
      | none => found
  | .single _ _ child _ => collect found child
  | .many _ _ children _ => collectAll found children

def collectAll (found : Collection) : List Node → Collection
  | [] => found
  | child :: rest => collectAll (collect found child) rest

end

/-- The bare name of a widget asks for nothing. -/
def members (root : Node) : List Member :=
  match root with
  | .leaf .identifier .. => []
  | _ => (collect {} root).members

def memberText (indent : Indent) (member : Member) : String :=
  match member.form with
  | .field =>
      indent.margin 1 ++ "var " ++ member.name ++ " = null; // TODO: Populate field " ++ member.name
  | .method =>
      indent.margin 1 ++ member.name ++ "() \x7b\n" ++
      indent.margin 2 ++ "// TODO: Populate function " ++ member.name ++ "\n" ++
      indent.margin 1 ++ "\x7d"

def viewModel (indent : Indent) (document : Document) : String :=
  materialImport ++
  "class " ++ document.viewModelClass ++ " extends StatelessWidget \x7b\n" ++
  "\n\n".intercalate ((members document.root).map (memberText indent)) ++
  "\n\x7d\n"

end WidgetTree.Dart
