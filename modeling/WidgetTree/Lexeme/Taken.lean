import WidgetTree.Lexeme.Cut

namespace WidgetTree.Lexeme

/-- The cut takes `taken` and perhaps more, as far as `rest` goes. -/
def Cut.Continues (cut : Cut) (taken rest : List Char) : Prop :=
  taken <+: cut.taken ∧ cut.taken <+: taken ++ rest

namespace Cut.Continues

theorem stop (kind : Kind) (taken rest : List Char) : (plain kind taken).Continues taken rest :=
  ⟨List.prefix_refl _, List.prefix_append _ _⟩

theorem extend {cut : Cut} {taken more rest : List Char}
    (continues : cut.Continues (taken ++ more) rest) : cut.Continues taken (more ++ rest) :=
  ⟨(List.prefix_append _ _).trans continues.1, by
    simpa only [List.append_assoc] using continues.2⟩

theorem extendWhile {cut : Cut} {taken rest : List Char} {p : Char → Bool}
    (continues : cut.Continues (taken ++ rest.takeWhile p) (rest.dropWhile p)) :
    cut.Continues taken rest := by
  have := continues.extend
  rwa [List.takeWhile_append_dropWhile] at this

end Cut.Continues

theorem malformed_continues (fault : String → Fault) (taken rest : List Char) :
    (malformed fault taken rest).Continues taken rest := by
  refine ⟨List.prefix_append _ _, ?_⟩
  exact (List.prefix_append_right_inj taken).mpr (List.takeWhile_prefix _)

theorem delimited_continues (kind : Kind) (taken rest : List Char) :
    (delimited kind taken rest).Continues taken rest := by
  unfold delimited
  split
  · exact .stop kind taken rest
  · exact malformed_continues _ taken rest

theorem floatEnd_continues (taken rest : List Char) :
    (floatEnd taken rest).Continues taken rest := by
  unfold floatEnd
  split
  · exact .stop _ taken []
  · split
    · exact .stop _ taken _
    · split <;> exact malformed_continues _ taken _

theorem exponentDigits_continues (sign : Char) (taken rest : List Char) :
    (exponentDigits sign taken rest).Continues taken rest := by
  unfold exponentDigits
  split
  · exact malformed_continues _ taken rest
  · exact (floatEnd_continues _ _).extendWhile

theorem exponent_continues (taken rest : List Char) :
    (exponent taken rest).Continues taken rest := by
  unfold exponent
  split
  · exact (exponentDigits_continues '-' _ _).extend
  · exact (exponentDigits_continues 'e' _ _).extend
  · exact floatEnd_continues taken rest

theorem fraction_continues (taken rest : List Char) :
    (fraction taken rest).Continues taken rest := by
  unfold fraction
  split
  · exact malformed_continues _ taken rest
  · exact (exponent_continues _ _).extendWhile

theorem numberTail_continues (taken rest : List Char) :
    (numberTail taken rest).Continues taken rest := by
  unfold numberTail
  split
  · exact (fraction_continues _ _).extend
  · exact exponent_continues taken _
  · next hex =>
      split
      · have := (delimited_continues .integer (taken ++ 'x' :: hex.takeWhile isHexDigit)
          (hex.dropWhile isHexDigit)).extend
        rwa [List.cons_append, List.takeWhile_append_dropWhile] at this
      · exact delimited_continues _ taken _
  · exact delimited_continues _ taken rest

theorem throughMarks?_prefix {text body : List Char} (found : throughMarks? text = some body) :
    body <+: text := by
  induction text generalizing body with
  | nil => simp [throughMarks?] at found
  | cons c cs ih =>
      unfold throughMarks? at found
      split at found
      · next marks =>
          obtain ⟨rfl, second⟩ := marks
          obtain ⟨rest, rfl⟩ := List.head?_eq_some_iff.mp second
          obtain rfl := Option.some.inj found
          exact ⟨rest, rfl⟩
      · obtain ⟨tail, ended, rfl⟩ := Option.map_eq_some_iff.mp found
        exact List.cons_prefix_cons.mpr ⟨rfl, ih ended⟩

theorem takeWhile_cons_continues (kind : Kind) (p : Char → Bool) {c : Char} {rest : List Char}
    (holds : p c = true) : (plain kind ((c :: rest).takeWhile p)).Continues [c] rest := by
  rw [List.takeWhile_cons_of_pos holds]
  exact ⟨⟨rest.takeWhile p, rfl⟩, List.cons_prefix_cons.mpr ⟨rfl, List.takeWhile_prefix _⟩⟩

theorem number_continues (c : Char) (rest : List Char) (begins : isDigit c || c = '-') :
    (number (c :: rest)).Continues [c] rest := by
  unfold number
  split
  · next same =>
      obtain ⟨rfl, rfl⟩ := List.cons.inj same
      exact (numberTail_continues (['-'] ++ _) _).extendWhile
  · next minus =>
      have digit : isDigit c = true := by
        rcases Bool.or_eq_true_iff.mp begins with digit | sign
        · exact digit
        · exact absurd (by simpa using sign) fun h : c = '-' => minus rest (by rw [h])
      rw [List.takeWhile_cons_of_pos digit, List.dropWhile_cons_of_pos digit]
      exact (numberTail_continues ([c] ++ _) _).extendWhile

theorem comment_continues (rest : List Char) : (comment ('!' :: rest)).Continues ['!'] rest := by
  unfold comment
  split
  · next body same =>
      obtain ⟨-, rfl⟩ := List.cons.inj same
      split
      · next found =>
          exact ⟨⟨_, rfl⟩, List.cons_prefix_cons.mpr
            ⟨rfl, List.cons_prefix_cons.mpr ⟨rfl, throughMarks?_prefix found⟩⟩⟩
      · exact ⟨⟨_, rfl⟩, List.prefix_refl _⟩
  · exact takeWhile_cons_continues _ _ (by decide)

theorem word_continues (c : Char) (rest : List Char) (begins : isWordChar c) :
    (word (c :: rest)).Continues [c] rest := by
  unfold word
  rw [List.takeWhile_cons_of_pos begins, List.dropWhile_cons_of_pos begins]
  exact (delimited_continues _ ([c] ++ _) _).extendWhile

theorem quoted_continues (quote : Char) (rest : List Char) :
    (quoted quote rest).Continues [quote] rest := by
  have body : quote :: rest.takeWhile (inString quote) <+: quote :: rest :=
    List.cons_prefix_cons.mpr ⟨rfl, List.takeWhile_prefix _⟩
  unfold quoted
  simp only
  split
  · exact ⟨⟨_, rfl⟩, body⟩
  · next c cs ended =>
      split
      · next closing =>
          subst closing
          have whole := List.takeWhile_append_dropWhile (p := inString c) (l := rest)
          rw [ended] at whole
          exact ⟨⟨_, rfl⟩, List.cons_prefix_cons.mpr ⟨rfl, cs, by simpa using whole⟩⟩
      · exact ⟨⟨_, rfl⟩, body⟩

theorem scan_continues (lineStart : Bool) (c : Char) (rest : List Char) :
    (scan lineStart c rest).Continues [c] rest := by
  unfold scan
  split
  · next newLine => exact takeWhile_cons_continues _ _ newLine
  · next newLine =>
    split
    · next blank =>
      split
      · next indent => exact takeWhile_cons_continues _ _ (Bool.and_eq_true_iff.mp indent).2
      · exact takeWhile_cons_continues _ _ (by simp [isSpace, blank, newLine])
    · split
      · next digit =>
          refine number_continues c rest ?_
          simp only [Bool.or_eq_true, Bool.and_eq_true] at digit ⊢
          exact digit.imp_right And.left
      · split
        · next mark => exact mark ▸ comment_continues rest
        · split
          · next begins =>
              refine word_continues c rest ?_
              simp only [isWordChar, Bool.or_eq_true] at begins ⊢
              exact begins.imp_left Or.inl
          · split
            · exact quoted_continues c rest
            · split
              · exact .stop _ [c] rest
              · exact malformed_continues _ [c] rest

theorem scan_taken_append (lineStart : Bool) (c : Char) (rest : List Char) :
    (scan lineStart c rest).taken ++ rest.drop ((scan lineStart c rest).taken.length - 1) =
      c :: rest := by
  obtain ⟨⟨more, begins⟩, fits⟩ := scan_continues lineStart c rest
  rw [← begins] at fits ⊢
  simpa using List.prefix_iff_eq_append.mp ((List.prefix_append_right_inj [c]).mp fits)

end WidgetTree.Lexeme
