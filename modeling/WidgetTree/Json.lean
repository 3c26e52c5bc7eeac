/-!
JSON values of text, natural numbers, arrays and ordered objects, written out over several lines.
-/

namespace WidgetTree

inductive Json
  | text (value : String)
  | number (value : Nat)
  | array (values : List Json)
  | object (fields : List (String × Json))

namespace Json

def hexDigit (n : Nat) : Char := "0123456789abcdef".toList.getD n '0'

/-- Only quotes, backslashes and control characters are written otherwise than as they are. -/
def escape (c : Char) : List Char :=
  match c.toNat with
  | 0x22 => ['\\', '\x22']
  | 0x5C => ['\\', '\\']
  | 0x08 => ['\\', 'b']
  | 0x0C => ['\\', 'f']
  | 0x0A => ['\\', 'n']
  | 0x0D => ['\\', 'r']
  | 0x09 => ['\\', 't']
  | n => if n < 0x20 then ['\\', 'u', '0', '0', hexDigit (n / 16), hexDigit (n % 16)] else [c]

def quote (value : String) : String :=
  "\x22" ++ String.ofList (value.toList.flatMap escape) ++ "\x22"

def lineBreak (level : Nat) : String := "\n" ++ String.ofList (List.replicate (2 * level) ' ')

mutual

/-- Each item and each field has a line of its own; what is empty has no lines. -/
def pretty (level : Nat) : Json → String
  | .text value => quote value
  | .number value => toString value
  | .array [] => "[]"
  | .array (value :: rest) =>
      "[" ++ lineBreak (level + 1) ++ pretty (level + 1) value ++ prettyItems (level + 1) rest ++
        lineBreak level ++ "]"
  | .object [] => "\x7b\x7d"
  | .object ((key, value) :: rest) =>
      "\x7b" ++ lineBreak (level + 1) ++ quote key ++ ": " ++ pretty (level + 1) value ++
        prettyFields (level + 1) rest ++ lineBreak level ++ "\x7d"

def prettyItems (level : Nat) : List Json → String
  | [] => ""
  | value :: rest => "," ++ lineBreak level ++ pretty level value ++ prettyItems level rest

def prettyFields (level : Nat) : List (String × Json) → String
  | [] => ""
  | (key, value) :: rest =>
      "," ++ lineBreak level ++ quote key ++ ": " ++ pretty level value ++ prettyFields level rest

end

end Json

end WidgetTree
