import WidgetTree.Lexeme.Cut
import WidgetTree.Lexeme.Token
import WidgetTree.Text.Lines

/-!
A whole text as a row of lexemes, each with its place and with what is wrong with it.
-/

namespace WidgetTree.Lexeme

open Text (Location)

/-- The place behind a cut: a run of line breaks ends at the beginning of a line. -/
def Cut.after (cut : Cut) (place : Location) : Location :=
  let stop := place.through cut.taken
  match cut.kind with
  | .newLine => ⟨stop.index, stop.line, 0⟩
  | _ => stop

end WidgetTree.Lexeme

namespace WidgetTree

structure Lexeme where
  token : Lexeme.Token
  fault : Option Lexeme.Fault
  deriving DecidableEq, Repr

namespace Lexeme

open Text (Location)

/-- The character that the file's first indentation begins with, once there is one. -/
abbrev Indented := Option Char

/-- A line that is indented otherwise than the first indented line is at fault, not malformed. -/
def indentationFault (cut : Cut) (first : Char) (indented : Indented) : Option Fault :=
  match cut.kind, indented with
  | .indentation, some expected =>
      if expected = first then none else some (.inconsistentIndentation expected)
  | _, _ => cut.fault

def Indented.after (indented : Indented) (cut : Cut) (first : Char) : Indented :=
  if cut.kind = .indentation then indented.or (some first) else indented

def rowFrom (place : Location) (indented : Indented) : List Char → List Lexeme
  | [] => [⟨⟨.endOfFile, "", ⟨place, place⟩⟩, none⟩]
  | c :: rest =>
      let cut := scan (place.column = 0) c rest
      ⟨⟨cut.kind, String.ofList cut.value, ⟨place, cut.after place⟩⟩,
          indentationFault cut c indented⟩ ::
        rowFrom (cut.after place) (indented.after cut c) (rest.drop (cut.taken.length - 1))
termination_by text => text.length
decreasing_by simp only [List.length_drop, List.length_cons]; omega

def row (text : String) : List Lexeme := rowFrom Location.origin none text.toList

def tokens (text : String) : List Token := (row text).map (·.token)

def report? (text : String) (lexeme : Lexeme) : Option Report :=
  lexeme.fault.map fun fault => Report.on text fault.severity fault.message lexeme.token.span

def reports (text : String) (lexemes : List Lexeme) : Log := lexemes.filterMap (report? text)

end WidgetTree.Lexeme
