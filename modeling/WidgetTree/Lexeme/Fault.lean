import WidgetTree.Report

namespace WidgetTree.Lexeme

inductive Fault
  /-- A line is not indented with the character that the first indented line began with. -/
  | inconsistentIndentation (expected : Char)
  /-- The text cannot begin or continue any token. -/
  | unexpectedToken (text : String)
  /-- A point, an exponent mark or its minus sign with no digit behind it. -/
  | missingDigits (after : Char)
  /-- A number with a fraction or an exponent that runs into a letter. -/
  | invalidFloat (text : String)
  | unterminatedString
  | lineBreakInString
  | unterminatedComment
  deriving DecidableEq, Repr

namespace Fault

def severity : Fault → Severity
  | inconsistentIndentation _ => .warning
  | unterminatedString => .fatal
  | unexpectedToken _ | missingDigits _ | invalidFloat _ | lineBreakInString
  | unterminatedComment => .error

def message : Fault → String
  | inconsistentIndentation expected =>
      "Inconsistent indentation character, " ++ (if expected = '\t' then "tab" else "space") ++
        " expected."
  | unexpectedToken text => "Unexpected token '" ++ text ++ "'"
  | missingDigits after => "Must contain digits after '" ++ String.ofList [after] ++ "'"
  | invalidFloat text => "'" ++ text ++ "' is an invalid float value."
  | unterminatedString => "Unexpected end of file"
  | lineBreakInString => "Unexpected line break in string literal"
  | unterminatedComment => "Unterminated block comment"

end Fault

end WidgetTree.Lexeme
