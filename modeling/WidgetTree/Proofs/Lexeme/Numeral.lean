import Mathlib.Computability.RegularExpressions
import WidgetTree.Proofs.Lexeme.Scans

namespace WidgetTree.Lexeme

open Text (isBlank)

namespace Numeral

open RegularExpression (char)

def oneOf (chars : String) : RegularExpression Char := (chars.toList.map char).sum

def maybe (pattern : RegularExpression Char) : RegularExpression Char := 1 + pattern

def sign : RegularExpression Char := maybe (char '-')

def digits : RegularExpression Char := oneOf "0123456789" * (oneOf "0123456789").star

def fraction : RegularExpression Char := char '.' * digits

def exponent : RegularExpression Char := char 'e' * sign * digits

def mantissa : RegularExpression Char := sign * digits * maybe fraction

def radix : RegularExpression Char := char '0' * char 'x'

def hexDigit : RegularExpression Char := oneOf "0123456789abcdefABCDEF"

def float : RegularExpression Char :=
  sign * digits * (fraction + maybe fraction * exponent)

def integer : RegularExpression Char := sign * digits + sign * radix * hexDigit.star

/-- Decimal digits with or without the two other parts, or hexadecimal ones behind their prefix. -/
def number : RegularExpression Char :=
  sign * digits * (maybe fraction * maybe exponent) + sign * radix * (hexDigit * hexDigit.star)

section Patterns

variable {pattern other : RegularExpression Char} {chars : String} {word more : List Char}

theorem append_mem (first : word ∈ pattern.matches') (second : more ∈ other.matches') :
    word ++ more ∈ (pattern * other).matches' :=
  Language.append_mem_mul first second

theorem mem_mul_iff :
    word ∈ (pattern * other).matches' ↔
      ∃ first ∈ pattern.matches', ∃ second ∈ other.matches', first ++ second = word :=
  Language.mem_mul

theorem mem_add_iff :
    word ∈ (pattern + other).matches' ↔ word ∈ pattern.matches' ∨ word ∈ other.matches' :=
  Language.mem_add _ _ _

theorem mem_char_iff {c : Char} : word ∈ (char c).matches' ↔ word = [c] := Iff.rfl

theorem mem_maybe_iff : word ∈ (maybe pattern).matches' ↔ word = [] ∨ word ∈ pattern.matches' :=
  mem_add_iff

theorem mem_sign_iff : word ∈ sign.matches' ↔ word = [] ∨ word = ['-'] := mem_maybe_iff

theorem mem_oneOf_iff : word ∈ (oneOf chars).matches' ↔ ∃ c ∈ chars.toList, word = [c] := by
  rw [oneOf]
  induction chars.toList with
  | nil => simp
  | cons c cs ih =>
      rw [List.map_cons, List.sum_cons, mem_add_iff, ih, mem_char_iff]
      simp only [List.mem_cons, exists_eq_or_imp]

theorem mem_oneOf_star_iff :
    word ∈ (oneOf chars).star.matches' ↔ ∀ c ∈ word, c ∈ chars.toList := by
  rw [RegularExpression.matches'_star, Language.mem_kstar]
  constructor
  · rintro ⟨pieces, rfl, each⟩ c inside
    obtain ⟨piece, member, inside⟩ := List.mem_flatten.mp inside
    obtain ⟨d, listed, rfl⟩ := mem_oneOf_iff.mp (each piece member)
    rwa [List.mem_singleton.mp inside]
  · intro each
    refine ⟨word.map ([·]), (List.flatMap_singleton' word).symm, fun piece member => ?_⟩
    obtain ⟨c, inside, rfl⟩ := List.mem_map.mp member
    exact mem_oneOf_iff.mpr ⟨c, each c inside, rfl⟩

theorem mem_oneOf_some_iff :
    word ∈ (oneOf chars * (oneOf chars).star).matches' ↔
      word ≠ [] ∧ ∀ c ∈ word, c ∈ chars.toList := by
  rw [mem_mul_iff]
  constructor
  · rintro ⟨first, head, others, tail, rfl⟩
    obtain ⟨c, listed, rfl⟩ := mem_oneOf_iff.mp head
    exact ⟨List.cons_ne_nil c others,
      List.forall_mem_cons.mpr ⟨listed, mem_oneOf_star_iff.mp tail⟩⟩
  · rintro ⟨some, each⟩
    cases word with
    | nil => exact absurd rfl some
    | cons c cs =>
        rw [List.forall_mem_cons] at each
        exact ⟨[c], mem_oneOf_iff.mpr ⟨c, each.1, rfl⟩, cs, mem_oneOf_star_iff.mpr each.2, rfl⟩

end Patterns

section Digits

variable {c : Char} {word : List Char}

theorem mem_of_between {chars : List Char} {first last : Char}
    (all : ((List.range (last.toNat + 1)).drop first.toNat).all (Char.ofNat · ∈ chars) = true)
    (least : first ≤ c) (most : c ≤ last) : c ∈ chars := by
  have least : first.toNat ≤ c.toNat := least
  have most : c.toNat ≤ last.toNat := most
  have inside : c.toNat ∈ (List.range (last.toNat + 1)).drop first.toNat := by
    rw [List.range_eq_range', List.drop_range', List.mem_range'_1]
    omega
  simpa using List.all_eq_true.mp all c.toNat inside

theorem mem_decimals_iff : c ∈ "0123456789".toList ↔ isDigit c = true := by
  constructor
  · intro listed
    have each : "0123456789".toList.all isDigit = true := by decide
    exact List.all_eq_true.mp each c listed
  · intro digit
    simp only [isDigit, Bool.and_eq_true, decide_eq_true_eq] at digit
    exact mem_of_between (by decide) digit.1 digit.2

theorem mem_hexadecimals_iff : c ∈ "0123456789abcdefABCDEF".toList ↔ isHexDigit c = true := by
  constructor
  · intro listed
    have each : "0123456789abcdefABCDEF".toList.all isHexDigit = true := by decide
    exact List.all_eq_true.mp each c listed
  · intro digit
    simp only [isHexDigit, isDigit, Bool.or_eq_true, Bool.and_eq_true, decide_eq_true_eq] at digit
    rcases digit with (⟨least, most⟩ | ⟨least, most⟩) | ⟨least, most⟩
    · exact mem_of_between (by decide) least most
    · exact mem_of_between (by decide) least most
    · exact mem_of_between (by decide) least most

theorem mem_digits_iff : word ∈ digits.matches' ↔ word ≠ [] ∧ ∀ c ∈ word, isDigit c = true := by
  rw [digits, mem_oneOf_some_iff]
  simp only [mem_decimals_iff]

theorem run_mem_digits {text : List Char} (some : (text.takeWhile isDigit).isEmpty = false) :
    text.takeWhile isDigit ∈ digits.matches' :=
  mem_digits_iff.mpr ⟨List.isEmpty_eq_false_iff.mp some, fun _ => List.mem_takeWhile_imp⟩

theorem mem_hexDigits_iff :
    word ∈ hexDigit.star.matches' ↔ ∀ c ∈ word, isHexDigit c = true := by
  rw [hexDigit, mem_oneOf_star_iff]
  simp only [mem_hexadecimals_iff]

end Digits

section Numbers

variable {whole word more : List Char}

theorem mem_whole_iff :
    whole ∈ (sign * digits).matches' ↔
      ∃ run ∈ digits.matches', whole = run ∨ whole = '-' :: run := by
  rw [mem_mul_iff]
  constructor
  · rintro ⟨signs, signed, run, numeral, rfl⟩
    rcases mem_sign_iff.mp signed with rfl | rfl
    · exact ⟨run, numeral, .inl rfl⟩
    · exact ⟨run, numeral, .inr rfl⟩
  · rintro ⟨run, numeral, rfl | rfl⟩
    · exact ⟨[], mem_sign_iff.mpr (.inl rfl), _, numeral, rfl⟩
    · exact ⟨['-'], mem_sign_iff.mpr (.inr rfl), run, numeral, rfl⟩

theorem mem_radix_iff :
    word ∈ (sign * radix).matches' ↔ word = ['0', 'x'] ∨ word = ['-', '0', 'x'] := by
  have one : ∀ word, word ∈ radix.matches' ↔ word = ['0', 'x'] := by
    intro word
    rw [radix, mem_mul_iff]
    constructor
    · rintro ⟨_, rfl, _, rfl, rfl⟩
      rfl
    · rintro rfl
      exact ⟨['0'], rfl, ['x'], rfl, rfl⟩
  rw [mem_mul_iff]
  constructor
  · rintro ⟨signs, signed, mark, marked, rfl⟩
    obtain rfl := (one mark).mp marked
    rcases mem_sign_iff.mp signed with rfl | rfl
    · exact .inl rfl
    · exact .inr rfl
  · rintro (rfl | rfl)
    · exact ⟨[], mem_sign_iff.mpr (.inl rfl), _, (one _).mpr rfl, rfl⟩
    · exact ⟨['-'], mem_sign_iff.mpr (.inr rfl), _, (one _).mpr rfl, rfl⟩

theorem float_of_fraction (front : whole ∈ (sign * digits).matches')
    (behind : word ∈ fraction.matches') : whole ++ word ∈ float.matches' :=
  append_mem front (mem_add_iff.mpr (.inl behind))

theorem float_of_exponent (front : whole ∈ (sign * digits).matches')
    (beside : more ∈ (maybe fraction).matches') (behind : word ∈ exponent.matches') :
    whole ++ (more ++ word) ∈ float.matches' :=
  append_mem front (mem_add_iff.mpr (.inr (append_mem beside behind)))

theorem fraction_of_digits (numeral : word ∈ digits.matches') :
    '.' :: word ∈ fraction.matches' :=
  mem_mul_iff.mpr ⟨['.'], rfl, word, numeral, rfl⟩

theorem exponent_of_digits (signed : more ∈ sign.matches') (numeral : word ∈ digits.matches') :
    'e' :: (more ++ word) ∈ exponent.matches' := by
  have marked : 'e' :: more ∈ (char 'e' * sign).matches' :=
    mem_mul_iff.mpr ⟨['e'], rfl, more, signed, rfl⟩
  exact append_mem marked numeral

theorem integer_of_hexadecimal (front : whole ∈ (sign * radix).matches')
    (behind : ∀ c ∈ word, isHexDigit c = true) : whole ++ word ∈ integer.matches' :=
  mem_add_iff.mpr (.inr (append_mem front (mem_hexDigits_iff.mpr behind)))

end Numbers

end Numeral

open Numeral (digits exponent_of_digits float_of_exponent float_of_fraction fraction_of_digits
  integer_of_hexadecimal mem_add_iff mem_digits_iff mem_hexDigits_iff mem_maybe_iff mem_mul_iff
  mem_radix_iff mem_sign_iff mem_whole_iff run_mem_digits)

/-- What the scan of a number can make of a text: a numeral up to a character that may stand behind
it, or a malformed word. -/
inductive NumberForms (text : List Char) : Cut → Prop
  | float {front rest : List Char} (split : text = front ++ rest)
      (numeral : front ∈ Numeral.float.matches') (ends : endsBefore rest = true) :
      NumberForms text (plain .float front)
  | integer {front rest : List Char} (split : text = front ++ rest)
      (numeral : front ∈ Numeral.integer.matches') (ends : endsBefore rest = true) :
      NumberForms text (plain .integer front)
  | malformed {front rest : List Char} {fault : String → Fault} (split : text = front ++ rest)
      (serious : ∀ word, (fault word).severity = .error) :
      NumberForms text (malformed fault front rest)

section Forms

variable {taken : List Char}

theorem integer_forms (numeral : taken ∈ Numeral.integer.matches') (rest : List Char) :
    NumberForms (taken ++ rest) (delimited .integer taken rest) := by
  rw [delimited]
  split
  · next ends => exact .integer rfl numeral ends
  · exact .malformed rfl fun _ => rfl

theorem floatEnd_forms (numeral : taken ∈ Numeral.float.matches') (rest : List Char) :
    NumberForms (taken ++ rest) (floatEnd taken rest) := by
  rw [floatEnd.eq_def]
  split
  · exact .float rfl numeral rfl
  · split
    · next ends => exact .float rfl numeral ends
    · split
      · exact .malformed rfl fun _ => rfl
      · exact .malformed rfl fun _ => rfl

theorem exponentDigits_forms (mark : Char) {taken : List Char}
    (completes : ∀ run ∈ digits.matches', taken ++ run ∈ Numeral.float.matches')
    (rest : List Char) : NumberForms (taken ++ rest) (exponentDigits mark taken rest) := by
  rw [exponentDigits]
  split
  · exact .malformed rfl fun _ => rfl
  · next some =>
      rw [Bool.not_eq_true] at some
      have forms := floatEnd_forms (completes _ (run_mem_digits some)) (rest.dropWhile isDigit)
      rwa [List.append_assoc, List.takeWhile_append_dropWhile] at forms

theorem exponent_forms {rest : List Char}
    (completes : ∀ more ∈ Numeral.exponent.matches', taken ++ more ∈ Numeral.float.matches')
    (whole : Lacks (· == 'e') rest → taken ∈ Numeral.float.matches') :
    NumberForms (taken ++ rest) (exponent taken rest) := by
  rw [exponent.eq_def]
  split
  · next rest =>
      have digits : ∀ run ∈ digits.matches',
          taken ++ ['e', '-'] ++ run ∈ Numeral.float.matches' := by
        intro run numeral
        rw [List.append_assoc]
        exact completes _ (exponent_of_digits (mem_sign_iff.mpr (.inr rfl)) numeral)
      have forms := exponentDigits_forms '-' digits rest
      rwa [List.append_assoc] at forms
  · next rest _ =>
      have digits : ∀ run ∈ digits.matches', taken ++ ['e'] ++ run ∈ Numeral.float.matches' := by
        intro run numeral
        rw [List.append_assoc]
        exact completes _ (exponent_of_digits (mem_sign_iff.mpr (.inl rfl)) numeral)
      have forms := exponentDigits_forms 'e' digits rest
      rwa [List.append_assoc] at forms
  · next none =>
      refine floatEnd_forms (whole ?_) _
      cases rest with
      | nil => rfl
      | cons c rest => simpa using fun same : c = 'e' => none rest (by rw [same])

theorem fraction_forms (numeral : taken ∈ (Numeral.sign * digits).matches') (rest : List Char) :
    NumberForms (taken ++ '.' :: rest) (fraction (taken ++ ['.']) rest) := by
  rw [fraction]
  split
  · exact .malformed (List.append_cons ..) fun _ => rfl
  · next some =>
      rw [Bool.not_eq_true] at some
      have point : '.' :: rest.takeWhile isDigit ∈ Numeral.fraction.matches' :=
        fraction_of_digits (run_mem_digits some)
      have completes : ∀ more ∈ Numeral.exponent.matches',
          taken ++ '.' :: rest.takeWhile isDigit ++ more ∈ Numeral.float.matches' := by
        intro more behind
        rw [List.append_assoc]
        exact float_of_exponent numeral (mem_maybe_iff.mpr (.inr point)) behind
      have forms : NumberForms _ (exponent _ (rest.dropWhile isDigit)) :=
        exponent_forms completes fun _ => float_of_fraction numeral point
      rw [List.append_assoc, List.cons_append, List.takeWhile_append_dropWhile] at forms
      rwa [List.append_assoc]

theorem numberTail_forms (numeral : taken ∈ (Numeral.sign * digits).matches') (rest : List Char) :
    NumberForms (taken ++ rest) (numberTail taken rest) := by
  have decimal : taken ∈ Numeral.integer.matches' := mem_add_iff.mpr (.inl numeral)
  rw [numberTail.eq_def]
  split
  · exact fraction_forms numeral _
  · refine exponent_forms (fun more behind => ?_) (by simp)
    exact float_of_exponent numeral (mem_maybe_iff.mpr (.inl rfl)) behind
  · next hex =>
      split
      · next zero =>
          have front : taken ++ ['x'] ∈ (Numeral.sign * Numeral.radix).matches' := by
            simp only [Bool.or_eq_true, decide_eq_true_eq] at zero
            rcases zero with rfl | rfl
            · exact mem_radix_iff.mpr (.inl rfl)
            · exact mem_radix_iff.mpr (.inr rfl)
          have run : ∀ d ∈ hex.takeWhile isHexDigit, isHexDigit d = true :=
            fun _ => List.mem_takeWhile_imp
          have forms := integer_forms (integer_of_hexadecimal front run) (hex.dropWhile isHexDigit)
          rw [List.append_assoc, List.takeWhile_append_dropWhile, List.append_assoc,
            List.append_assoc] at forms
          exact forms
      · exact integer_forms decimal _
  · exact integer_forms decimal rest

theorem front_mem_whole {c : Char} {rest : List Char} (begins : beginsNumber c rest = true) :
    c :: rest.takeWhile isDigit ∈ (Numeral.sign * digits).matches' := by
  have run : ∀ d ∈ rest.takeWhile isDigit, isDigit d = true := fun _ => List.mem_takeWhile_imp
  by_cases own : isDigit c = true
  · refine mem_whole_iff.mpr ⟨_, mem_digits_iff.mpr ⟨List.cons_ne_nil c _, ?_⟩, .inl rfl⟩
    exact List.forall_mem_cons.mpr ⟨own, run⟩
  · simp only [beginsNumber, own, Bool.false_or, Bool.and_eq_true, decide_eq_true_eq] at begins
    obtain ⟨rfl, next⟩ := begins
    refine mem_whole_iff.mpr ⟨_, mem_digits_iff.mpr ⟨?_, run⟩, .inr rfl⟩
    cases rest with
    | nil => cases next
    | cons d others => rw [List.takeWhile_cons_of_pos (by simpa using next)]; simp

theorem number_forms {c : Char} {rest : List Char} (begins : beginsNumber c rest = true) :
    NumberForms (c :: rest) (number (c :: rest)) := by
  have forms := numberTail_forms (front_mem_whole begins) (rest.dropWhile isDigit)
  rw [List.cons_append, List.takeWhile_append_dropWhile] at forms
  rwa [number_cons (digit_of_beginsNumber begins)]

end Forms

section Numerals

variable {taken front whole run rest : List Char}

theorem run_of_digits (numeral : run ∈ digits.matches') (lacks : Lacks isDigit rest) :
    (run ++ rest).takeWhile isDigit = run ∧ (run ++ rest).dropWhile isDigit = rest := by
  have each := (mem_digits_iff.mp numeral).2
  constructor
  · rw [List.takeWhile_append_of_pos each, takeWhile_of_lacks lacks, List.append_nil]
  · rw [List.dropWhile_append_of_pos each, dropWhile_of_lacks lacks]

theorem number_of_whole (numeral : whole ∈ (Numeral.sign * digits).matches')
    (lacks : Lacks isDigit rest) : number (whole ++ rest) = numberTail whole rest := by
  obtain ⟨run, numeral, same⟩ := mem_whole_iff.mp numeral
  obtain ⟨front, behind⟩ := run_of_digits numeral lacks
  rcases same with rfl | rfl
  · obtain ⟨some, each⟩ := mem_digits_iff.mp numeral
    cases whole with
    | nil => exact absurd rfl some
    | cons c cs =>
        have digit : isDigit c = true := each c List.mem_cons_self
        rw [List.cons_append] at front behind ⊢
        rw [List.takeWhile_cons_of_pos digit] at front
        rw [List.dropWhile_cons_of_pos digit] at behind
        rw [number_cons (.inr digit), front, behind]
  · rw [List.cons_append, number_cons (.inl rfl), front, behind]

theorem fraction_of_run (numeral : run ∈ digits.matches') (lacks : Lacks isDigit rest) :
    fraction taken (run ++ rest) = exponent (taken ++ run) rest := by
  obtain ⟨front, behind⟩ := run_of_digits numeral lacks
  rw [fraction, front, behind, if_neg (by simpa using (mem_digits_iff.mp numeral).1)]

theorem exponentDigits_of_run (mark : Char) (numeral : run ∈ digits.matches')
    (lacks : Lacks isDigit rest) :
    exponentDigits mark taken (run ++ rest) = floatEnd (taken ++ run) rest := by
  obtain ⟨front, behind⟩ := run_of_digits numeral lacks
  rw [exponentDigits, front, behind, if_neg (by simpa using (mem_digits_iff.mp numeral).1)]

theorem number_of_mantissa (numeral : front ∈ Numeral.mantissa.matches') (rest : List Char) :
    number (front ++ 'e' :: rest) = exponent front ('e' :: rest) := by
  have mark : Lacks isDigit ('e' :: rest) := (lacks_cons ..).mpr rfl
  obtain ⟨whole, first, more, second, rfl⟩ := mem_mul_iff.mp numeral
  rcases mem_maybe_iff.mp second with rfl | behind
  · rw [List.append_nil, number_of_whole first mark]
    rfl
  · obtain ⟨_, rfl, run, digits, rfl⟩ := mem_mul_iff.mp behind
    have point : Lacks isDigit (['.'] ++ (run ++ 'e' :: rest)) := (lacks_cons ..).mpr rfl
    have next : numberTail whole (['.'] ++ (run ++ 'e' :: rest)) =
        fraction (whole ++ ['.']) (run ++ 'e' :: rest) := rfl
    rw [List.append_assoc, List.append_assoc, number_of_whole first point, next,
      fraction_of_run digits mark, List.append_assoc]

theorem number_of_radix (numeral : front ∈ (Numeral.sign * Numeral.radix).matches')
    (rest : List Char) :
    number (front ++ rest) =
      delimited .integer (front ++ rest.takeWhile isHexDigit) (rest.dropWhile isHexDigit) := by
  rcases mem_radix_iff.mp numeral with rfl | rfl
  · rfl
  · rfl

theorem exponent_of_mem {tail : List Char} (numeral : tail ∈ Numeral.exponent.matches')
    (taken : List Char) : exponent taken tail = plain .float (taken ++ tail) := by
  obtain ⟨_, ⟨_, rfl, signs, signed, rfl⟩, run, digits, rfl⟩ := mem_mul_iff.mp numeral
  obtain ⟨some, each⟩ := mem_digits_iff.mp digits
  have ending (mark : Char) (taken : List Char) :
      exponentDigits mark taken run = plain .float (taken ++ run) := by
    have read : exponentDigits mark taken (run ++ []) = _ :=
      exponentDigits_of_run mark digits (lacks_nil isDigit)
    rwa [List.append_nil] at read
  rcases mem_sign_iff.mp signed with rfl | rfl
  · cases run with
    | nil => exact absurd rfl some
    | cons c cs =>
        have other : c ≠ '-' := by
          rintro rfl
          cases each '-' List.mem_cons_self
        have unsigned : Lacks (· == '-') (c :: cs) := by simpa using other
        have marked : exponent taken (['e'] ++ [] ++ c :: cs) =
            exponentDigits 'e' (taken ++ ['e']) (c :: cs) := exponent_mark unsigned
        rw [marked, ending, List.append_assoc]
        rfl
  · have marked : exponent taken (['e'] ++ ['-'] ++ run) =
        exponentDigits '-' (taken ++ ['e', '-']) run := rfl
    rw [marked, ending, List.append_assoc]
    rfl

theorem number_of_float {text : List Char} (numeral : text ∈ Numeral.float.matches') :
    number text = plain .float text := by
  obtain ⟨whole, first, more, second, rfl⟩ := mem_mul_iff.mp numeral
  rcases mem_add_iff.mp second with behind | behind
  · obtain ⟨_, rfl, run, digits, rfl⟩ := mem_mul_iff.mp behind
    have read : fraction (whole ++ ['.']) (run ++ []) = _ :=
      fraction_of_run digits (lacks_nil isDigit)
    rw [List.append_nil] at read
    have point : Lacks isDigit (['.'] ++ run) := (lacks_cons ..).mpr rfl
    have next : numberTail whole (['.'] ++ run) = fraction (whole ++ ['.']) run := rfl
    rw [number_of_whole first point, next, read, List.append_assoc]
    rfl
  · obtain ⟨beside, part, tail, last, rfl⟩ := mem_mul_iff.mp behind
    have mantissa : whole ++ beside ∈ Numeral.mantissa.matches' := Numeral.append_mem first part
    have read := exponent_of_mem last (whole ++ beside)
    obtain ⟨_, ⟨_, rfl, signs, -, rfl⟩, run, -, rfl⟩ := mem_mul_iff.mp last
    rw [← List.append_assoc]
    exact (number_of_mantissa mantissa _).trans read

theorem number_of_integer {text : List Char} (numeral : text ∈ Numeral.integer.matches') :
    number text = plain .integer text := by
  rcases mem_add_iff.mp numeral with decimal | hexadecimal
  · have read := number_of_whole decimal (lacks_nil isDigit)
    rwa [List.append_nil] at read
  · obtain ⟨front, first, run, digits, rfl⟩ := mem_mul_iff.mp hexadecimal
    have each := mem_hexDigits_iff.mp digits
    rw [number_of_radix first, List.takeWhile_eq_self_iff.mpr each,
      List.dropWhile_eq_nil_iff.mpr each]
    rfl

end Numerals

end WidgetTree.Lexeme
