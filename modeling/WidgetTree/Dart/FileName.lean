import WidgetTree.Text.LetterCase

namespace WidgetTree.Dart

open Text (isUppercase lower)

/-- An upper-case letter begins a word, so an underscore stands before all but the first. -/
def fileStem (className : String) : String :=
  match className.toList with
  | [] => ""
  | first :: rest =>
      String.ofList
        (lower first ++ rest.flatMap fun c => if isUppercase c then '_' :: lower c else lower c)

def fileName (className : String) : String := fileStem className ++ ".dart"

end WidgetTree.Dart
