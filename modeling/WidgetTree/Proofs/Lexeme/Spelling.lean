import WidgetTree.Proofs.Lexeme.Row

namespace WidgetTree.Lexeme

def isSpelling (c : Char) : Bool :=
  isWordChar c || isHexDigit c || c = 'x' || c = '-' || c = '.'

def Spelled (chars : List Char) : Prop := ∀ c ∈ chars, isSpelling c = true

instance (chars : List Char) : Decidable (Spelled chars) :=
  List.decidableBAll _ chars

def Cut.Spelled (cut : Cut) : Prop := isWordKind cut.kind = true → Lexeme.Spelled cut.taken

theorem isSpelling_of_isDigit {c : Char} (digit : isDigit c = true) : isSpelling c = true := by
  simp [isSpelling, isHexDigit, digit]

theorem isSpelling_of_isWordChar {c : Char} (inside : isWordChar c = true) :
    isSpelling c = true := by
  simp [isSpelling, inside]

namespace Spelled

variable {chars more : List Char}

theorem append (first : Spelled chars) (second : Spelled more) : Spelled (chars ++ more) :=
  List.forall_mem_append.mpr ⟨first, second⟩

theorem run {p : Char → Bool} (within : ∀ c, p c = true → isSpelling c = true)
    (text : List Char) : Spelled (text.takeWhile p) :=
  fun c member => within c (List.mem_takeWhile_imp member)

theorem digits (text : List Char) : Spelled (text.takeWhile isDigit) :=
  run (fun _ => isSpelling_of_isDigit) text

end Spelled

theorem spelled_of_other {cut : Cut} (other : isWordKind cut.kind = false) : cut.Spelled := by
  intro word
  cases other.symm.trans word

theorem malformed_spelled (fault : String → Fault) (taken rest : List Char) :
    (malformed fault taken rest).Spelled :=
  spelled_of_other rfl

section Words

variable {taken : List Char}

theorem delimited_spelled (kind : Kind) (spelled : Spelled taken) (rest : List Char) :
    (delimited kind taken rest).Spelled := by
  rw [delimited]
  split
  · exact fun _ => spelled
  · exact malformed_spelled _ taken rest

theorem floatEnd_spelled (spelled : Spelled taken) (rest : List Char) :
    (floatEnd taken rest).Spelled := by
  rw [floatEnd.eq_def]
  split
  · exact fun _ => spelled
  · split
    · exact fun _ => spelled
    · split
      · exact malformed_spelled _ taken _
      · exact malformed_spelled _ taken _

theorem exponentDigits_spelled (sign : Char) (spelled : Spelled taken) (rest : List Char) :
    (exponentDigits sign taken rest).Spelled := by
  rw [exponentDigits]
  split
  · exact malformed_spelled _ taken rest
  · exact floatEnd_spelled (spelled.append (.digits rest)) _

theorem exponent_spelled (spelled : Spelled taken) (rest : List Char) :
    (exponent taken rest).Spelled := by
  have minus : Spelled ['e', '-'] := by decide
  have mark : Spelled ['e'] := by decide
  rw [exponent.eq_def]
  split
  · exact exponentDigits_spelled '-' (spelled.append minus) _
  · exact exponentDigits_spelled 'e' (spelled.append mark) _
  · exact floatEnd_spelled spelled rest

theorem fraction_spelled (spelled : Spelled taken) (rest : List Char) :
    (fraction taken rest).Spelled := by
  rw [fraction]
  split
  · exact malformed_spelled _ taken rest
  · exact exponent_spelled (spelled.append (.digits rest)) _

theorem numberTail_spelled (spelled : Spelled taken) (rest : List Char) :
    (numberTail taken rest).Spelled := by
  have point : Spelled ['.'] := by decide
  have mark : Spelled ['x'] := by decide
  have hexadecimal (text : List Char) : Spelled (text.takeWhile isHexDigit) :=
    .run (fun c digit => by simp [isSpelling, digit]) text
  rw [numberTail.eq_def]
  split
  · exact fraction_spelled (spelled.append point) _
  · exact exponent_spelled spelled _
  · next hex =>
      split
      · exact delimited_spelled .integer (spelled.append (mark.append (hexadecimal hex))) _
      · exact delimited_spelled .integer spelled _
  · exact delimited_spelled .integer spelled rest

theorem number_spelled (text : List Char) : (number text).Spelled := by
  have minus : Spelled ['-'] := by decide
  rw [number.eq_def]
  split
  · exact numberTail_spelled (minus.append (.digits _)) _
  · exact numberTail_spelled (.digits _) _

theorem word_spelled (text : List Char) : (word text).Spelled :=
  delimited_spelled _ (.run (fun _ => isSpelling_of_isWordChar) text) _

end Words

theorem comment_spelled (text : List Char) : (comment text).Spelled := by
  rw [comment.eq_def]
  split
  · split <;> exact spelled_of_other rfl
  · exact spelled_of_other rfl

theorem quoted_spelled (quote : Char) (rest : List Char) : (quoted quote rest).Spelled := by
  rw [quoted]
  split
  · exact spelled_of_other rfl
  · split <;> exact spelled_of_other rfl

theorem mark_spelled {c : Char} {kind : Kind} (marks : mark? c = some kind) (taken : List Char) :
    (plain kind taken).Spelled := by
  intro word
  rcases category_of_isWordKind word with category | category
  all_goals cases category.symm.trans (mark?_category marks)

theorem scan_spelled (lineStart : Bool) (c : Char) (rest : List Char) :
    (scan lineStart c rest).Spelled := by
  rw [scan]
  split
  · exact spelled_of_other rfl
  · split
    · split <;> exact spelled_of_other rfl
    · split
      · exact number_spelled _
      · split
        · exact comment_spelled _
        · split
          · exact word_spelled _
          · split
            · exact quoted_spelled c rest
            · split
              · next marks => exact mark_spelled marks [c]
              · exact malformed_spelled _ [c] rest

end WidgetTree.Lexeme
