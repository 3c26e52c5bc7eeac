import WidgetTree.Json
import WidgetTree.Proofs.Lexeme.Words

/-!
JSON values read back from text. Main statement: `parse?_pretty`, a value is read back from the
lines that it is written out over.
-/

namespace WidgetTree.Json

open Lexeme (Lacks dropWhile_of_lacks takeWhile_of_lacks)

/-- The part of a text that is still to be read. -/
abbrev Unread := List Char

namespace Unread

section Reading

def hexValue? (c : Char) : Option Nat :=
  if c.isDigit then some (c.toNat - '0'.toNat)
  else if 'a' ≤ c ∧ c ≤ 'f' then some (c.toNat - 'a'.toNat + 10)
  else if 'A' ≤ c ∧ c ≤ 'F' then some (c.toNat - 'A'.toNat + 10)
  else none

def shorthands : List (Char × Char) :=
  [('\x22', '\x22'), ('\\', '\\'), ('/', '/'), ('b', '\x08'), ('f', '\x0c'), ('n', '\n'),
    ('r', '\r'), ('t', '\t')]

def escaped? : Unread → Option (Char × Unread)
  | 'u' :: a :: b :: c :: d :: rest => do
      let digits ← [a, b, c, d].mapM hexValue?
      let code := digits.foldl (16 * · + ·) 0
      if code.isValidChar then some (Char.ofNat code, rest) else none
  | c :: rest => (shorthands.lookup c).map (·, rest)
  | [] => none

def character? : Unread → Option (Char × Unread)
  | '\\' :: rest => escaped? rest
  | c :: rest => if c = '\x22' ∨ c.toNat < 0x20 then none else some (c, rest)
  | [] => none

def characters? (text : Unread) : Option (List Char × Unread) :=
  match text with
  | '\x22' :: rest => some ([], rest)
  | text => do
      let (c, rest) ← character? text
      let (more, rest) ← rest |>.characters?
      return (c :: more, rest)
partial_fixpoint

def pastBlanks (text : Unread) : Unread := text.dropWhile Char.isWhitespace

/-- The first character behind blanks, and what is left behind it. -/
def next? (text : Unread) : Option (Char × Unread) :=
  match text.pastBlanks with
  | [] => none
  | c :: rest => some (c, rest)

def number? (text : Unread) : Option (Json × Unread) :=
  match text.pastBlanks.takeWhile Char.isDigit with
  | [] => none
  | digits => some (.number (Nat.ofDigitChars 10 digits 0), text.pastBlanks.dropWhile Char.isDigit)

mutual

/-- A value behind blanks, and the text that is left. -/
def value? (text : Unread) : Option (Json × Unread) :=
  match text.next? with
  | some ('\x22', rest) => do
      let (inner, rest) ← rest.characters?
      return (.text (String.ofList inner), rest)
  | some ('[', rest) => do
      let (values, rest) ← rest |>.values?
      return (.array values, rest)
  | some ('\x7b', rest) => do
      let (fields, rest) ← rest |>.fields?
      return (.object fields, rest)
  | _ => text.number?
partial_fixpoint

def values? (text : Unread) : Option (List Json × Unread) :=
  match text.next? with
  | some (']', rest) => some ([], rest)
  | _ => do
      let (value, rest) ← text |>.value?
      let (values, rest) ← rest |>.moreValues?
      return (value :: values, rest)
partial_fixpoint

def moreValues? (text : Unread) : Option (List Json × Unread) :=
  match text.next? with
  | some (']', rest) => some ([], rest)
  | some (',', rest) => do
      let (value, rest) ← rest |>.value?
      let (values, rest) ← rest |>.moreValues?
      return (value :: values, rest)
  | _ => none
partial_fixpoint

def field? (text : Unread) : Option ((String × Json) × Unread) :=
  match text.next? with
  | some ('\x22', rest) => do
      let (key, rest) ← rest.characters?
      match rest.next? with
      | some (':', rest) => do
          let (value, rest) ← rest |>.value?
          return ((String.ofList key, value), rest)
      | _ => none
  | _ => none
partial_fixpoint

def fields? (text : Unread) : Option (List (String × Json) × Unread) :=
  match text.next? with
  | some ('\x7d', rest) => some ([], rest)
  | _ => do
      let (field, rest) ← text |>.field?
      let (fields, rest) ← rest |>.moreFields?
      return (field :: fields, rest)
partial_fixpoint

def moreFields? (text : Unread) : Option (List (String × Json) × Unread) :=
  match text.next? with
  | some ('\x7d', rest) => some ([], rest)
  | some (',', rest) => do
      let (field, rest) ← rest |>.field?
      let (fields, rest) ← rest |>.moreFields?
      return (field :: fields, rest)
  | _ => none
partial_fixpoint

end

end Reading

section Strings

variable {text more inner rest : List Char} {c : Char}

theorem hexValue?_hexDigit : ∀ n < 16, hexValue? (hexDigit n) = some n := by decide

theorem character?_plain (quote : c ≠ '\x22') (backslash : c ≠ '\\') (visible : 0x20 ≤ c.toNat) :
    character? (c :: rest) = some (c, rest) := by
  rw [character?.eq_2 c rest backslash]
  exact if_neg (not_or.mpr ⟨quote, Nat.not_lt.mpr visible⟩)

theorem character?_escape (c : Char) (rest : List Char) :
    character? (escape c ++ rest) = some (c, rest) := by
  have named {n : Nat} (same : c.toNat = n) : c = Char.ofNat n := by
    rw [← same, Char.ofNat_toNat]
  rw [escape]
  split
  case h_8 n quote backslash _ _ _ _ _ =>
    split
    · next control =>
        have high := hexValue?_hexDigit (c.toNat / 16) (by omega)
        have low := hexValue?_hexDigit (c.toNat % 16) (by omega)
        have zero : hexValue? '0' = some 0 := rfl
        have whole : 16 * (c.toNat / 16) + c.toNat % 16 = c.toNat := Nat.div_add_mod _ 16
        have valid : c.toNat.isValidChar := .inl (by omega)
        simp [character?, escaped?, high, low, zero, whole, valid, Char.ofNat_toNat]
    · next visible =>
        exact character?_plain (fun same => quote (congrArg Char.toNat same))
          (fun same => backslash (congrArg Char.toNat same)) (Nat.not_lt.mp visible)
  all_goals
    next same =>
      rw [named same]
      rfl

theorem characters?_of_character? (first : character? text = some (c, more))
    (others : characters? more = some (inner, rest)) :
    characters? text = some (c :: inner, rest) := by
  rw [characters?.eq_def]
  split
  -- No character of a string begins with its closing quote.
  · next quoted =>
      have none : character? ('\x22' :: quoted) = none := rfl
      cases none.symm.trans first
  · simp [first, others]

theorem characters?_flatMap_escape (inner rest : List Char) :
    characters? (inner.flatMap escape ++ '\x22' :: rest) = some (inner, rest) := by
  induction inner with
  | nil => rw [List.flatMap_nil, List.nil_append, characters?]
  | cons c inner ih =>
      rw [List.flatMap_cons, List.append_assoc]
      exact characters?_of_character? (character?_escape c _) ih

theorem toList_quote (value : String) :
    (quote value).toList = '\x22' :: (value.toList.flatMap escape ++ ['\x22']) := by
  simp only [quote, String.toList_append, String.toList_ofList]
  rfl

end Strings

section Values

variable {text more rest : List Char} {level : Nat} {value : Json} {values : List Json}
  {field : String × Json} {fields : List (String × Json)}

theorem pastBlanks_lineBreak (level : Nat) (text : List Char) :
    pastBlanks ((lineBreak level).toList ++ text) = pastBlanks text := by
  have blanks : ∀ c ∈ (lineBreak level).toList, c.isWhitespace = true := by
    intro c inside
    rw [lineBreak, String.toList_append, List.mem_append] at inside
    obtain first | margin := inside
    · obtain rfl := List.mem_singleton.mp first
      rfl
    · rw [String.toList_ofList] at margin
      obtain rfl := List.eq_of_mem_replicate margin
      rfl
  exact List.dropWhile_append_of_pos blanks

theorem next?_lineBreak (level : Nat) (text : List Char) :
    next? ((lineBreak level).toList ++ text) = next? text := by
  rw [next?, next?, pastBlanks_lineBreak]

theorem value?_lineBreak (level : Nat) (text : List Char) :
    value? ((lineBreak level).toList ++ text) = value? text := by
  rw [value?, value?, next?_lineBreak, number?, number?, pastBlanks_lineBreak]

theorem value?_space (text : List Char) : value? (' ' :: text) = value? text := by
  rw [value?, value?]
  rfl

theorem field?_lineBreak (level : Nat) (text : List Char) :
    field? ((lineBreak level).toList ++ text) = field? text := by
  rw [field?, field?, next?_lineBreak]

theorem value?_quote (value : String) (rest : List Char) :
    value? ((quote value).toList ++ rest) = some (.text value, rest) := by
  have opens : next? ((quote value).toList ++ rest) =
      some ('\x22', value.toList.flatMap escape ++ '\x22' :: rest) := by
    rw [toList_quote, List.cons_append, List.append_assoc]
    rfl
  rw [value?, opens]
  simp [characters?_flatMap_escape]

theorem exists_digit (n : Nat) :
    ∃ c more, c.isDigit = true ∧ Nat.toDigits 10 n = c :: more := by
  obtain ⟨c, more, first⟩ := List.exists_cons_of_ne_nil (Nat.toDigits_ne_nil (n := n) (b := 10))
  exact ⟨c, more,
    Nat.isDigit_of_mem_toDigits (by decide) (by decide) (first ▸ List.mem_cons_self), first⟩

theorem pastBlanks_toDigits (n : Nat) (rest : List Char) :
    pastBlanks (Nat.toDigits 10 n ++ rest) = Nat.toDigits 10 n ++ rest := by
  obtain ⟨c, more, digit, first⟩ := exists_digit n
  have solid : ¬ c.isWhitespace = true := by
    intro blank
    simp only [Char.isWhitespace, Bool.or_eq_true, decide_eq_true_eq] at blank
    rcases blank with ((rfl | rfl) | rfl) | rfl <;> cases digit
  rw [first]
  exact List.dropWhile_cons_of_neg solid

theorem number?_toDigits (n : Nat) (behind : Lacks Char.isDigit rest) :
    number? (Nat.toDigits 10 n ++ rest) = some (.number n, rest) := by
  have digits : ∀ c ∈ Nat.toDigits 10 n, c.isDigit = true := fun c =>
    Nat.isDigit_of_mem_toDigits (by decide) (by decide)
  rw [number?, pastBlanks_toDigits, List.takeWhile_append_of_pos digits,
    takeWhile_of_lacks behind, List.append_nil, List.dropWhile_append_of_pos digits,
    dropWhile_of_lacks behind]
  split
  · next none => exact absurd none Nat.toDigits_ne_nil
  · rw [Nat.ofDigitChars_toDigits (by decide) (by decide)]

theorem value?_number (n : Nat) (behind : Lacks Char.isDigit rest) :
    value? ((toString n).toList ++ rest) = some (.number n, rest) := by
  have written : (toString n).toList = Nat.toDigits 10 n := by
    rw [Nat.toString_eq_repr, Nat.repr_eq_ofList_toDigits, String.toList_ofList]
  obtain ⟨c, more, digit, first⟩ := exists_digit n
  have opens : next? (Nat.toDigits 10 n ++ rest) = some (c, more ++ rest) := by
    rw [next?, pastBlanks_toDigits, first]
    rfl
  rw [written, value?.eq_def, opens]
  split
  · next same =>
      cases same
      cases digit
  · next same =>
      cases same
      cases digit
  · next same =>
      cases same
      cases digit
  · exact number?_toDigits n behind

theorem values?_nil (rest : List Char) : values? (']' :: rest) = some ([], rest) := by
  rw [values?]
  rfl

theorem fields?_nil (rest : List Char) : fields? ('\x7d' :: rest) = some ([], rest) := by
  rw [fields?]
  rfl

theorem moreValues?_closing (level : Nat) (rest : List Char) :
    moreValues? ((lineBreak level).toList ++ ']' :: rest) = some ([], rest) := by
  rw [moreValues?, next?_lineBreak]
  rfl

theorem moreFields?_closing (level : Nat) (rest : List Char) :
    moreFields? ((lineBreak level).toList ++ '\x7d' :: rest) = some ([], rest) := by
  rw [moreFields?, next?_lineBreak]
  rfl

theorem value?_array (inside : values? text = some (values, rest)) :
    value? ('[' :: text) = some (.array values, rest) := by
  have opens : next? ('[' :: text) = some ('[', text) := rfl
  rw [value?, opens]
  simp [inside]

theorem value?_object (inside : fields? text = some (fields, rest)) :
    value? ('\x7b' :: text) = some (.object fields, rest) := by
  have opens : next? ('\x7b' :: text) = some ('\x7b', text) := rfl
  rw [value?, opens]
  simp [inside]

theorem value?_closing (closes : next? text = some (']', rest)) : value? text = none := by
  have left : pastBlanks text = ']' :: rest := by
    rw [next?] at closes
    split at closes
    · cases closes
    · next left =>
        cases closes
        exact left
  rw [value?, closes, number?, left]
  rfl

theorem values?_cons (first : value? text = some (value, more))
    (others : moreValues? more = some (values, rest)) :
    values? text = some (value :: values, rest) := by
  rw [values?.eq_def]
  split
  -- No value begins with the closing bracket.
  · next closes =>
      have none := value?_closing closes
      cases none.symm.trans first
  · simp [first, others]

theorem moreValues?_cons (first : value? text = some (value, more))
    (others : moreValues? more = some (values, rest)) :
    moreValues? (',' :: text) = some (value :: values, rest) := by
  have opens : next? (',' :: text) = some (',', text) := rfl
  rw [moreValues?, opens]
  simp [first, others]

theorem field?_of_value? (key : String) (read : value? text = some (value, rest)) :
    field? ((quote key).toList ++ ':' :: text) = some ((key, value), rest) := by
  have opens : next? ((quote key).toList ++ ':' :: text) =
      some ('\x22', key.toList.flatMap escape ++ '\x22' :: ':' :: text) := by
    rw [toList_quote, List.cons_append, List.append_assoc]
    rfl
  have colon : next? (':' :: text) = some (':', text) := rfl
  rw [field?, opens]
  simp [characters?_flatMap_escape, colon, read]

theorem fields?_cons (first : field? text = some (field, more))
    (others : moreFields? more = some (fields, rest)) :
    fields? text = some (field :: fields, rest) := by
  rw [fields?.eq_def]
  split
  -- Nor does a key.
  · next closes =>
      rw [field?.eq_def, closes] at first
      cases first
  · simp [first, others]

theorem moreFields?_cons (first : field? text = some (field, more))
    (others : moreFields? more = some (fields, rest)) :
    moreFields? (',' :: text) = some (field :: fields, rest) := by
  have opens : next? (',' :: text) = some (',', text) := rfl
  rw [moreFields?, opens]
  simp [first, others]

end Values

section Pretty

variable {rest : List Char}

theorem lacks_lineBreak (level : Nat) (text : List Char) :
    Lacks Char.isDigit ((lineBreak level).toList ++ text) := by
  rw [lineBreak, String.toList_append]
  rfl

theorem lacks_prettyItems (level outer : Nat) (values : List Json) (text : List Char) :
    Lacks Char.isDigit
      ((prettyItems level values).toList ++ ((lineBreak outer).toList ++ text)) := by
  cases values with
  | nil => exact lacks_lineBreak outer text
  | cons value more =>
      simp only [prettyItems, String.toList_append]
      rfl

theorem lacks_prettyFields (level outer : Nat) (fields : List (String × Json))
    (text : List Char) :
    Lacks Char.isDigit
      ((prettyFields level fields).toList ++ ((lineBreak outer).toList ++ text)) := by
  cases fields with
  | nil => exact lacks_lineBreak outer text
  | cons field more =>
      simp only [prettyFields, String.toList_append]
      rfl

theorem toList_pretty_array (level : Nat) (first : Json) (more : List Json) (rest : List Char) :
    ((array (first :: more)).pretty level).toList ++ rest =
      '[' :: ((lineBreak (level + 1)).toList ++ ((first.pretty (level + 1)).toList ++
        ((prettyItems (level + 1) more).toList ++ ((lineBreak level).toList ++ ']' :: rest)))) := by
  simp [pretty]

theorem toList_prettyItems_cons (level : Nat) (value : Json) (more : List Json)
    (rest : List Char) :
    (prettyItems level (value :: more)).toList ++ rest =
      ',' :: ((lineBreak level).toList ++ ((value.pretty level).toList ++
        ((prettyItems level more).toList ++ rest))) := by
  simp [prettyItems]

theorem toList_pretty_object (level : Nat) (key : String) (first : Json)
    (more : List (String × Json)) (rest : List Char) :
    ((object ((key, first) :: more)).pretty level).toList ++ rest =
      '\x7b' :: ((lineBreak (level + 1)).toList ++ ((quote key).toList ++ ':' :: ' ' ::
        ((first.pretty (level + 1)).toList ++ ((prettyFields (level + 1) more).toList ++
          ((lineBreak level).toList ++ '\x7d' :: rest))))) := by
  simp [pretty]

theorem toList_prettyFields_cons (level : Nat) (key : String) (value : Json)
    (more : List (String × Json)) (rest : List Char) :
    (prettyFields level ((key, value) :: more)).toList ++ rest =
      ',' :: ((lineBreak level).toList ++ ((quote key).toList ++ ':' :: ' ' ::
        ((value.pretty level).toList ++ ((prettyFields level more).toList ++ rest)))) := by
  simp [prettyFields]

mutual

theorem value?_pretty (level : Nat) (value : Json) {rest : List Char}
    (behind : Lacks Char.isDigit rest) :
    value? ((value.pretty level).toList ++ rest) = some (value, rest) := by
  match value with
  | .text inner => exact value?_quote inner rest
  | .number n => exact value?_number n behind
  | .array [] =>
      rw [pretty]
      exact value?_array (values?_nil rest)
  | .array (first :: more) =>
      have read := value?_pretty (level + 1) first
        (lacks_prettyItems (level + 1) level more (']' :: rest))
      have others := moreValues?_prettyItems (level + 1) level more rest
      rw [← value?_lineBreak (level + 1)] at read
      rw [toList_pretty_array]
      exact value?_array (values?_cons read others)
  | .object [] =>
      rw [pretty]
      exact value?_object (fields?_nil rest)
  | .object ((key, first) :: more) =>
      have read := value?_pretty (level + 1) first
        (lacks_prettyFields (level + 1) level more ('\x7d' :: rest))
      have others := moreFields?_prettyFields (level + 1) level more rest
      have named := field?_of_value? key ((value?_space _).trans read)
      rw [← field?_lineBreak (level + 1)] at named
      rw [toList_pretty_object]
      exact value?_object (fields?_cons named others)

theorem moreValues?_prettyItems (level outer : Nat) (values : List Json) (rest : List Char) :
    moreValues? ((prettyItems level values).toList ++ ((lineBreak outer).toList ++ ']' :: rest)) =
      some (values, rest) := by
  match values with
  | [] => exact moreValues?_closing outer rest
  | value :: more =>
      have read := value?_pretty level value (lacks_prettyItems level outer more (']' :: rest))
      have others := moreValues?_prettyItems level outer more rest
      rw [← value?_lineBreak level] at read
      rw [toList_prettyItems_cons]
      exact moreValues?_cons read others

theorem moreFields?_prettyFields (level outer : Nat) (fields : List (String × Json))
    (rest : List Char) :
    moreFields?
        ((prettyFields level fields).toList ++ ((lineBreak outer).toList ++ '\x7d' :: rest)) =
      some (fields, rest) := by
  match fields with
  | [] => exact moreFields?_closing outer rest
  | (key, value) :: more =>
      have read := value?_pretty level value (lacks_prettyFields level outer more ('\x7d' :: rest))
      have others := moreFields?_prettyFields level outer more rest
      have named := field?_of_value? key ((value?_space _).trans read)
      rw [← field?_lineBreak level] at named
      rw [toList_prettyFields_cons]
      exact moreFields?_cons named others

end

end Pretty

end Unread

/-- The value that a text holds and nothing else. -/
def parse? (text : String) : Option Json := do
  let (value, rest) ← Unread.value? text.toList
  if rest.next? = none then some value else none

/-- What is written out, with a line break behind, is read back. -/
theorem parse?_pretty (value : Json) : parse? (value.pretty 0 ++ "\n") = some value := by
  have behind : Lacks Char.isDigit ['\n'] := rfl
  have read := Unread.value?_pretty 0 value behind
  have whole : (value.pretty 0 ++ "\n").toList = (value.pretty 0).toList ++ ['\n'] :=
    String.toList_append
  rw [parse?, whole, read]
  rfl

end WidgetTree.Json
