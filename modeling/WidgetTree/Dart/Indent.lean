namespace WidgetTree.Dart

/-- One level of indentation is `width` times the character. -/
structure Indent where
  char : Char
  width : Nat
  deriving DecidableEq, Repr

namespace Indent

def tabs : Indent := ⟨'\t', 1⟩

def spaces : Indent := ⟨' ', 2⟩

def margin (indent : Indent) (level : Nat) : String :=
  String.ofList (List.replicate (level * indent.width) indent.char)

end Indent

end WidgetTree.Dart
