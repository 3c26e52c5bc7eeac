import WidgetTree.Text.Location

namespace WidgetTree.Text

/-- Stands for the character past the end of a text. -/
def sentinel : Char := '\x00'

def charAt (text : String) (index : Nat) : Char := text.toList.getD index sentinel

def withoutReturn (line : List Char) : List Char :=
  if line.getLast? = some '\r' then line.dropLast else line

/-- The physical lines; a text without a line feed is one line, the empty text too. -/
def lines (text : String) : List String :=
  (text.toList.splitOn '\n').map fun line => String.ofList (withoutReturn line)

def line? (text : String) (number : Nat) : Option String :=
  if number = 0 then none else (lines text)[number - 1]?

def linesBetween (text : String) (first last : Nat) : List String :=
  ((lines text).take last).drop (first - 1)

def slice (text : String) (span : Span) : String :=
  String.ofList ((text.toList.take span.stop.index).drop span.start.index)

end WidgetTree.Text
