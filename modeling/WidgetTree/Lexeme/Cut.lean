import WidgetTree.Lexeme.Catalogue
import WidgetTree.Lexeme.Fault
import WidgetTree.Lexeme.Kind
import WidgetTree.Text.Alphabetic
import WidgetTree.Text.Blank
import WidgetTree.Text.Numeric

/-!
Cutting one lexeme from the front of a text. What is cut depends on the characters still to come
and on whether the place is the beginning of a line, on nothing before it.
-/

namespace WidgetTree.Lexeme

open Text (isAlphabetic isBlank isNumeric)

def isNewLine (c : Char) : Bool := c = '\r' || c = '\n'

def isIndent (c : Char) : Bool := c = ' ' || c = '\t'

def isSpace (c : Char) : Bool := isBlank c && !isNewLine c

def isDigit (c : Char) : Bool := '0' ≤ c && c ≤ '9'

def isHexDigit (c : Char) : Bool :=
  isDigit c || ('a' ≤ c && c ≤ 'f') || ('A' ≤ c && c ≤ 'F')

def isWordChar (c : Char) : Bool := isAlphabetic c || isNumeric c || c = '_'

def isQuote (c : Char) : Bool := c = '\x27' || c = '\x22'

def punctuation : List Char := "<>\x7b\x7d()[]!$%^&*+-=/.,?;:|~@#".toList

def isPunctuation (c : Char) : Bool := punctuation.contains c

/-- The characters that may stand right behind a literal or a name. -/
def isTerminator (c : Char) : Bool := isSpace c || isNewLine c || isPunctuation c

def endsBefore : List Char → Bool
  | [] => true
  | c :: _ => isTerminator c

/-- A lexeme's kind, the characters it takes, the value it stands for and what is wrong with it. -/
structure Cut where
  kind : Kind
  taken : List Char
  value : List Char
  fault : Option Fault
  deriving DecidableEq, Repr

def plain (kind : Kind) (taken : List Char) : Cut := ⟨kind, taken, taken, none⟩

/-- A malformed word: all up to the next terminator is one error lexeme. -/
def malformed (fault : String → Fault) (taken rest : List Char) : Cut :=
  let word := taken ++ rest.takeWhile (!isTerminator ·)
  ⟨.error, word, word, some (fault (String.ofList word))⟩

def delimited (kind : Kind) (taken rest : List Char) : Cut :=
  if endsBefore rest then plain kind taken else malformed .unexpectedToken taken rest

def floatEnd (taken rest : List Char) : Cut :=
  match rest with
  | [] => plain .float taken
  | c :: _ =>
      if isTerminator c then plain .float taken
      else if isAlphabetic c then malformed .invalidFloat taken rest
      else malformed .unexpectedToken taken rest

def exponentDigits (sign : Char) (taken rest : List Char) : Cut :=
  if (rest.takeWhile isDigit).isEmpty then malformed (fun _ => .missingDigits sign) taken rest
  else floatEnd (taken ++ rest.takeWhile isDigit) (rest.dropWhile isDigit)

def exponent (taken rest : List Char) : Cut :=
  match rest with
  | 'e' :: '-' :: rest => exponentDigits '-' (taken ++ ['e', '-']) rest
  | 'e' :: rest => exponentDigits 'e' (taken ++ ['e']) rest
  | _ => floatEnd taken rest

def fraction (taken rest : List Char) : Cut :=
  if (rest.takeWhile isDigit).isEmpty then malformed (fun _ => .missingDigits '.') taken rest
  else exponent (taken ++ rest.takeWhile isDigit) (rest.dropWhile isDigit)

/-- What follows the first digits of a number. Only a lone zero can begin a hexadecimal one. -/
def numberTail (taken rest : List Char) : Cut :=
  match rest with
  | '.' :: rest => fraction (taken ++ ['.']) rest
  | 'e' :: _ => exponent taken rest
  | 'x' :: hex =>
      if taken = ['0'] || taken = ['-', '0'] then
        delimited .integer (taken ++ 'x' :: hex.takeWhile isHexDigit) (hex.dropWhile isHexDigit)
      else delimited .integer taken rest
  | _ => delimited .integer taken rest

def number (text : List Char) : Cut :=
  match text with
  | '-' :: rest => numberTail ('-' :: rest.takeWhile isDigit) (rest.dropWhile isDigit)
  | _ => numberTail (text.takeWhile isDigit) (text.dropWhile isDigit)

def throughMarks? : List Char → Option (List Char)
  | [] => none
  | c :: cs =>
      if c = '!' ∧ cs.head? = some '!' then some ['!', '!']
      else (throughMarks? cs).map (c :: ·)

/-- A comment runs to the end of its line; one that two marks open runs to the next two marks. -/
def comment (text : List Char) : Cut :=
  match text with
  | '!' :: '!' :: rest =>
      match throughMarks? rest with
      | some body => plain .blockComment ('!' :: '!' :: body)
      | none => ⟨.error, text, text, some .unterminatedComment⟩
  | _ => plain .lineComment (text.takeWhile (!isNewLine ·))

def nameKind (name : String) : Kind :=
  if name = "true" || name = "false" then .boolean
  else if isWidgetName name then .widget
  else .identifier

def word (text : List Char) : Cut :=
  let name := text.takeWhile isWordChar
  delimited (nameKind (String.ofList name)) name (text.dropWhile isWordChar)

def inString (quote c : Char) : Bool := c ≠ quote && !isNewLine c

/-- A string ends at the quote that began it; its value leaves the quotes out. -/
def quoted (quote : Char) (rest : List Char) : Cut :=
  let body := rest.takeWhile (inString quote)
  match rest.dropWhile (inString quote) with
  | [] => ⟨.error, quote :: body, body, some .unterminatedString⟩
  | c :: _ =>
      if c = quote then ⟨.string, quote :: body ++ [quote], body, none⟩
      else ⟨.error, quote :: body, body, some .lineBreakInString⟩

def mark? : Char → Option Kind
  | ':' => some .colon
  | '.' => some .dot
  | ',' => some .comma
  | '$' => some .dollarSign
  | '@' => some .ampersand
  | _ => none

/-- The lexeme that begins with `c` and may go on with characters of `rest`. -/
def scan (lineStart : Bool) (c : Char) (rest : List Char) : Cut :=
  if isNewLine c then plain .newLine ((c :: rest).takeWhile isNewLine)
  else if isBlank c then
    if lineStart && isIndent c then plain .indentation ((c :: rest).takeWhile isIndent)
    else plain .whiteSpace ((c :: rest).takeWhile isSpace)
  else if isDigit c || (c = '-' && rest.head?.any isDigit) then number (c :: rest)
  else if c = '!' then comment (c :: rest)
  else if isAlphabetic c || c = '_' then word (c :: rest)
  else if isQuote c then quoted c rest
  else
    match mark? c with
    | some kind => plain kind [c]
    | none => malformed .unexpectedToken [c] rest

end WidgetTree.Lexeme
