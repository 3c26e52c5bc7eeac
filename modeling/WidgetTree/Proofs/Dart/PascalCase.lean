import Mathlib
import WidgetTree.Dart.FileName
import WidgetTree.Proofs.Dart.Leaves

namespace WidgetTree.Dart

open Lexeme (isSpelling_of_isWordChar isWordChar)
open Text (isAlphabetic isNumeric isUppercase lower)

/-- A capital, and letters and digits behind it, all of ASCII. -/
def isPascal (className : String) : Bool :=
  match className.toList with
  | [] => false
  | first :: rest => first.isUpper && rest.all Char.isAlphanum

/-- The words of a file stem, which stand between its underscores, each with a capital in front. -/
def pascalCase (stem : String) : String :=
  String.ofList ((stem.toList.splitOn '_').flatMap (List.modifyHead Char.toUpper))

def stemChars (c : Char) : List Char := if c.isUpper then ['_', c.toLower] else [c]

section Letters

variable {c : Char}

theorem toNat_lt_of_isAlphanum (letter : c.isAlphanum = true) : c.toNat < 0x80 := by
  have last : 'z'.toNat = 122 ∧ 'Z'.toNat = 90 ∧ '9'.toNat = 57 := by decide
  simp only [Char.isAlphanum, Char.isAlpha, Char.isUpper, Char.isLower, Char.isDigit,
    Bool.or_eq_true, Bool.and_eq_true, decide_eq_true_eq, UInt32.le_iff_toNat_le, ge_iff_le,
    Char.toNat_val] at letter
  omega

theorem isAlphanum_of_isUpper (capital : c.isUpper = true) : c.isAlphanum = true := by
  simp [Char.isAlphanum, Char.isAlpha, capital]

theorem lower_of_isAlphanum (letter : c.isAlphanum = true) : lower c = [c.toLower] :=
  if_pos (toNat_lt_of_isAlphanum letter)

theorem eq_stemChars_of_isAlphanum (letter : c.isAlphanum = true) :
    (if isUppercase c then '_' :: lower c else lower c) = stemChars c := by
  have upper : isUppercase c = c.isUpper := if_pos (toNat_lt_of_isAlphanum letter)
  rw [upper, lower_of_isAlphanum letter, stemChars]
  split
  · rfl
  · next small => rw [Char.toLower_eq_of_not_isUpper small]

theorem isWordChar_of_isAlphanum (letter : c.isAlphanum = true) : isWordChar c = true := by
  have alphabetic : isAlphabetic c = c.isAlpha := if_pos (toNat_lt_of_isAlphanum letter)
  have numeric : isNumeric c = c.isDigit := if_pos (toNat_lt_of_isAlphanum letter)
  have either : (c.isAlpha || c.isDigit) = true := letter
  rw [isWordChar, alphabetic, numeric, either, Bool.true_or]

theorem ne_underscore_of_isAlphanum (letter : c.isAlphanum = true) : c ≠ '_' := by
  rintro rfl
  cases letter

theorem toLower_ne_underscore (capital : c.isUpper = true) : c.toLower ≠ '_' := by
  have small : c.toLower.isLower = true := by
    rw [Char.isLower_toLower_eq_isAlpha, Char.isAlpha, capital, Bool.true_or]
  intro same
  rw [same] at small
  cases small

theorem toUpper_toLower (capital : c.isUpper = true) : c.toLower.toUpper = c := by
  rw [Char.toUpper_toLower_eq_toUpper,
    Char.toUpper_eq_of_not_isLower (Char.not_isLower_of_isUpper capital)]

end Letters

section Names

variable {className : String}

theorem isPascal_iff : isPascal className = true ↔
    ∃ first rest, className.toList = first :: rest ∧ first.isUpper = true ∧
      ∀ c ∈ rest, c.isAlphanum = true := by
  rw [isPascal]
  split
  · next none => simp [none]
  · next first rest split => simp [split]

theorem isWord_of_isPascal (pascal : isPascal className = true) : IsWord className.toList := by
  obtain ⟨first, rest, split, capital, letters⟩ := isPascal_iff.mp pascal
  have all : ∀ c ∈ first :: rest, c.isAlphanum = true :=
    List.forall_mem_cons.mpr ⟨isAlphanum_of_isUpper capital, letters⟩
  rw [split]
  exact ⟨List.cons_ne_nil _ _,
    fun c member => isSpelling_of_isWordChar (isWordChar_of_isAlphanum (all c member))⟩

theorem toList_fileStem {first : Char} {rest : List Char} (split : className.toList = first :: rest)
    (capital : first.isUpper = true) (letters : ∀ c ∈ rest, c.isAlphanum = true) :
    (fileStem className).toList = first.toLower :: rest.flatMap stemChars := by
  have others : rest.flatMap (fun c => if isUppercase c then '_' :: lower c else lower c) =
      rest.flatMap stemChars :=
    List.flatMap_congr fun c member => eq_stemChars_of_isAlphanum (letters c member)
  rw [fileStem.eq_def, split]
  simp only [others, lower_of_isAlphanum (isAlphanum_of_isUpper capital), String.toList_ofList,
    List.singleton_append]

end Names

theorem splitOn_cons_of_ne {c : Char} {text word : List Char} {words : List (List Char)}
    (other : c ≠ '_') (split : text.splitOn '_' = word :: words) :
    (c :: text).splitOn '_' = (c :: word) :: words := by
  rw [List.splitOn_cons_eq_if_modifyHead, if_neg (by simpa using other), split,
    List.modifyHead_cons]

/-- The words that the letters behind the first one make: the first of them goes on with the word
that is already begun, the others are begun by capitals of their own. -/
theorem exists_words {rest : List Char} (letters : ∀ c ∈ rest, c.isAlphanum = true) :
    ∃ word words, (rest.flatMap stemChars).splitOn '_' = word :: words ∧
      word ++ words.flatMap (List.modifyHead Char.toUpper) = rest := by
  induction rest with
  | nil => exact ⟨[], [], rfl, rfl⟩
  | cons c rest ih =>
      obtain ⟨letter, others⟩ := List.forall_mem_cons.mp letters
      obtain ⟨word, words, split, joined⟩ := ih others
      rw [List.flatMap_cons, stemChars]
      split
      · next capital =>
          -- What is behind the underscore is the next word, with the capital in front again.
          have begun := splitOn_cons_of_ne (toLower_ne_underscore capital) split
          refine ⟨[], (c.toLower :: word) :: words, ?_, ?_⟩
          · rw [List.cons_append, List.singleton_append, List.splitOn_cons_eq_if_modifyHead,
              if_pos (beq_self_eq_true '_'), begun]
          · rw [List.nil_append, List.flatMap_cons, List.modifyHead_cons, toUpper_toLower capital,
              List.cons_append, joined]
      · refine ⟨c :: word, words, ?_, ?_⟩
        · exact splitOn_cons_of_ne (ne_underscore_of_isAlphanum letter) split
        · rw [List.cons_append, joined]

theorem pascalCase_fileStem {className : String} (pascal : isPascal className = true) :
    pascalCase (fileStem className) = className := by
  obtain ⟨first, rest, split, capital, letters⟩ := isPascal_iff.mp pascal
  obtain ⟨word, words, cut, joined⟩ := exists_words letters
  have whole := splitOn_cons_of_ne (toLower_ne_underscore capital) cut
  rw [← String.toList_inj, pascalCase, String.toList_ofList, toList_fileStem split capital letters,
    whole, List.flatMap_cons, List.modifyHead_cons, toUpper_toLower capital, List.cons_append,
    joined, split]

/-- Each of several capitals in a row begins a word, and a digit goes on with one. -/
example : pascalCase (fileStem "HTTPServer2") = "HTTPServer2" ∧
    fileStem "HTTPServer2" = "h_t_t_p_server2" := by decide +kernel

theorem fileStem_injOn : Set.InjOn fileStem {className | isPascal className = true} :=
  Set.LeftInvOn.injOn fun _ => pascalCase_fileStem

theorem fileName_injOn : Set.InjOn fileName {className | isPascal className = true} := by
  intro className pascal other pascal' same
  exact fileStem_injOn pascal pascal' ((String.append_left_inj _).mp same)

end WidgetTree.Dart
