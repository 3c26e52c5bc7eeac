import WidgetTree.Proofs.Lexeme.Scans

namespace WidgetTree.Lexeme

open Text (isAlphabetic isBlank)

/-- Behind `taken` the scanner looks no further than at the character behind those it takes. -/
def Foresees (scanner : List Char → Cut) (taken : List Char) : Prop :=
  ∀ front others, (scanner (front ++ others)).taken.length < taken.length + front.length →
    scanner front = scanner (front ++ others)

section Runs

variable {taken : List Char}

theorem run_foreseen {p : Char → Bool} {front others : List Char}
    (short : ((front ++ others).takeWhile p).length < front.length) :
    (front ++ others).takeWhile p = front.takeWhile p ∧
      (front ++ others).dropWhile p = front.dropWhile p ++ others := by
  have stops : (front.takeWhile p).length ≠ front.length := by
    intro full
    rw [List.takeWhile_append, if_pos full, List.length_append] at short
    omega
  have left : ¬ (front.dropWhile p).isEmpty = true := by
    intro none
    have whole := List.takeWhile_append_dropWhile (p := p) (l := front)
    rw [List.isEmpty_iff.mp none, List.append_nil] at whole
    exact stops (congrArg List.length whole)
  rw [List.takeWhile_append, if_neg stops, List.dropWhile_append, if_neg left]
  exact ⟨rfl, rfl⟩

theorem length_run (p : Char → Bool) (front : List Char) :
    (front.takeWhile p).length + (front.dropWhile p).length = front.length := by
  rw [← List.length_append, List.takeWhile_append_dropWhile]

theorem Cut.Continues.length_le {cut : Cut} {rest : List Char}
    (continues : cut.Continues taken rest) : taken.length ≤ cut.taken.length :=
  continues.1.length_le

theorem foresees_of_cons {scanner : List Char → Cut}
    (continues : ∀ rest, (scanner rest).Continues taken rest)
    (step : ∀ c front others,
      (scanner (c :: (front ++ others))).taken.length < taken.length + (front.length + 1) →
        scanner (c :: front) = scanner (c :: (front ++ others))) : Foresees scanner taken := by
  intro front others short
  cases front with
  | nil => exact absurd short (Nat.not_lt_of_le (continues others).length_le)
  | cons c front => exact step c front others short

theorem foresees_behind_run {p : Char → Bool} {front others : List Char} (taken : List Char)
    (next : List Char → List Char → Cut)
    (continues : ∀ taken rest, (next taken rest).Continues taken rest)
    (foresees : ∀ taken, Foresees (next taken) taken)
    (short : (next (taken ++ (front ++ others).takeWhile p)
      ((front ++ others).dropWhile p)).taken.length < taken.length + front.length) :
    next (taken ++ front.takeWhile p) (front.dropWhile p) =
      next (taken ++ (front ++ others).takeWhile p) ((front ++ others).dropWhile p) := by
  have least := (continues (taken ++ (front ++ others).takeWhile p)
    ((front ++ others).dropWhile p)).length_le
  rw [List.length_append] at least
  have stops : ((front ++ others).takeWhile p).length < front.length := by omega
  obtain ⟨same, behind⟩ := run_foreseen stops
  rw [same, behind] at short ⊢
  refine foresees (taken ++ front.takeWhile p) (front.dropWhile p) others ?_
  rw [List.length_append, Nat.add_assoc, length_run]
  exact short

end Runs

section Endings

theorem malformed_foresees (fault : String → Fault) (taken : List Char) :
    Foresees (malformed fault taken) taken := by
  intro front others short
  rw [malformed, List.length_append, Nat.add_lt_add_iff_left] at short
  rw [malformed, malformed, (run_foreseen short).1]

theorem delimited_foresees (kind : Kind) (taken : List Char) :
    Foresees (delimited kind taken) taken := by
  refine foresees_of_cons (delimited_continues kind taken) fun c front others short => ?_
  rw [delimited, endsBefore] at short ⊢
  rw [delimited, endsBefore]
  split
  · rfl
  · next inside =>
      rw [if_neg inside] at short
      exact malformed_foresees _ taken (c :: front) others short

theorem floatEnd_foresees (taken : List Char) : Foresees (floatEnd taken) taken := by
  refine foresees_of_cons (floatEnd_continues taken) fun c front others short => ?_
  rw [floatEnd] at short ⊢
  rw [floatEnd]
  split
  · rfl
  · next inside =>
      rw [if_neg inside] at short
      split
      · next letter =>
          rw [if_pos letter] at short
          exact malformed_foresees _ taken (c :: front) others short
      · next letter =>
          rw [if_neg letter] at short
          exact malformed_foresees _ taken (c :: front) others short

theorem digits_foresee (fault : String → Fault) {next : List Char → List Char → Cut}
    {scanner : List Char → Cut} {taken : List Char}
    (scans : ∀ text, scanner text =
      if (text.takeWhile isDigit).isEmpty then malformed fault taken text
      else next (taken ++ text.takeWhile isDigit) (text.dropWhile isDigit))
    (continues : ∀ taken rest, (next taken rest).Continues taken rest)
    (foresees : ∀ taken, Foresees (next taken) taken) : Foresees scanner taken := by
  intro front others short
  rw [scans] at short
  rw [scans, scans]
  cases digits : ((front ++ others).takeWhile isDigit).isEmpty with
  | true =>
      rw [if_pos digits] at short
      have least := (malformed_continues fault taken (front ++ others)).length_le
      have stops : ((front ++ others).takeWhile isDigit).length < front.length := by
        rw [List.isEmpty_iff.mp digits, List.length_nil]
        omega
      rw [← (run_foreseen stops).1, digits]
      exact malformed_foresees fault taken front others short
  | false =>
      rw [if_neg (by simp [digits])] at short
      have least := (continues (taken ++ (front ++ others).takeWhile isDigit)
        ((front ++ others).dropWhile isDigit)).length_le
      rw [List.length_append] at least
      have stops : ((front ++ others).takeWhile isDigit).length < front.length := by omega
      rw [if_neg (by simp [← (run_foreseen stops).1, digits])]
      exact foresees_behind_run taken next continues foresees short

theorem exponentDigits_foresees (sign : Char) (taken : List Char) :
    Foresees (exponentDigits sign taken) taken :=
  digits_foresee (fun _ => .missingDigits sign) (fun _ => rfl) floatEnd_continues floatEnd_foresees

theorem Foresees.front {taken front others : List Char} {c : Char} (scanner : List Char → Cut)
    (foresees : Foresees (fun text => scanner (c :: text)) (taken ++ [c]))
    (short : (scanner (c :: (front ++ others))).taken.length < taken.length + (front.length + 1)) :
    scanner (c :: front) = scanner (c :: (front ++ others)) := by
  refine foresees front others ?_
  rw [List.length_append, List.length_singleton, Nat.add_assoc, Nat.add_comm 1]
  exact short

theorem exponent_mark_continues (taken rest : List Char) :
    (exponent taken ('e' :: rest)).Continues (taken ++ ['e']) rest := by
  by_cases sign : Lacks (· == '-') rest
  · rw [exponent_mark sign]
    exact exponentDigits_continues 'e' _ rest
  · obtain ⟨others, rfl⟩ := exists_of_not_lacks sign
    have behind := (exponentDigits_continues '-' ((taken ++ ['e']) ++ ['-']) others).extend
    rwa [List.append_assoc] at behind

theorem exponent_mark_foresees (taken : List Char) :
    Foresees (fun text => exponent taken ('e' :: text)) (taken ++ ['e']) := by
  refine foresees_of_cons (exponent_mark_continues taken) fun c front others short => ?_
  by_cases sign : c = '-'
  · subst sign
    have signed : ∀ text, exponent taken ('e' :: '-' :: text) =
        exponentDigits '-' ((taken ++ ['e']) ++ ['-']) text := by
      intro text
      rw [List.append_assoc]
      rfl
    have behind : Foresees (fun text => exponent taken ('e' :: '-' :: text))
        ((taken ++ ['e']) ++ ['-']) := by
      simp only [signed]
      exact exponentDigits_foresees '-' _
    exact behind.front (fun text => exponent taken ('e' :: text)) short
  · have unsigned : ∀ text, Lacks (· == '-') (c :: text) := by simp [sign]
    rw [exponent_mark (unsigned _)] at short
    rw [exponent_mark (unsigned _), exponent_mark (unsigned _)]
    exact exponentDigits_foresees 'e' (taken ++ ['e']) (c :: front) others short

theorem exponent_foresees (taken : List Char) : Foresees (exponent taken) taken := by
  refine foresees_of_cons (exponent_continues taken) fun c front others short => ?_
  by_cases mark : c = 'e'
  · subst mark
    exact (exponent_mark_foresees taken).front (exponent taken) short
  · have unmarked : ∀ text, Lacks (· == 'e') (c :: text) := by simp [mark]
    rw [exponent_none (unmarked _)] at short
    rw [exponent_none (unmarked _), exponent_none (unmarked _)]
    exact floatEnd_foresees taken (c :: front) others short

theorem fraction_foresees (taken : List Char) : Foresees (fraction taken) taken :=
  digits_foresee (fun _ => .missingDigits '.') (fun _ => rfl) exponent_continues exponent_foresees

theorem hexadecimal_foresees (taken : List Char) :
    Foresees (fun text => delimited .integer (taken ++ text.takeWhile isHexDigit)
      (text.dropWhile isHexDigit)) taken := by
  intro front others short
  exact foresees_behind_run taken (delimited .integer) (delimited_continues .integer)
    (delimited_foresees .integer) short

theorem numberTail_foresees (taken : List Char) : Foresees (numberTail taken) taken := by
  refine foresees_of_cons (numberTail_continues taken) fun c front others short => ?_
  by_cases unmarked : isNumberMark c = false
  · have other : ∀ text, Lacks isNumberMark (c :: text) := by simp [unmarked]
    rw [numberTail_other (other _)] at short
    rw [numberTail_other (other _), numberTail_other (other _)]
    exact delimited_foresees .integer taken (c :: front) others short
  · simp only [Bool.not_eq_false, isNumberMark, Bool.or_eq_true, beq_iff_eq] at unmarked
    rcases unmarked with (rfl | rfl) | rfl
    · have behind : Foresees (fun text => numberTail taken ('.' :: text)) (taken ++ ['.']) :=
        fraction_foresees (taken ++ ['.'])
      exact behind.front (numberTail taken) short
    · exact exponent_foresees taken ('e' :: front) others short
    · by_cases zero : taken = ['0'] ∨ taken = ['-', '0']
      · have steps : (fun text => numberTail taken ('x' :: text)) = fun text =>
            delimited .integer ((taken ++ ['x']) ++ text.takeWhile isHexDigit)
              (text.dropWhile isHexDigit) := by
          funext text
          rw [numberTail, if_pos (by simpa using zero), List.append_assoc]
          rfl
        have behind : Foresees (fun text => numberTail taken ('x' :: text)) (taken ++ ['x']) :=
          steps ▸ hexadecimal_foresees (taken ++ ['x'])
        exact behind.front (numberTail taken) short
      · have goes : ∀ text, numberTail taken ('x' :: text) =
            delimited .integer taken ('x' :: text) := by
          intro text
          rw [numberTail, if_neg (by simpa using zero)]
        rw [goes] at short
        rw [goes, goes]
        exact delimited_foresees .integer taken ('x' :: front) others short

end Endings

section Beginnings

variable {c : Char}

theorem runs_foresee (kind : Kind) (p : Char → Bool) (c : Char) :
    Foresees (fun text => plain kind ((c :: text).takeWhile p)) [c] := by
  intro front others short
  simp only [plain, List.length_singleton, Nat.add_comm] at short
  have stops : ((c :: front ++ others).takeWhile p).length < (c :: front).length := short
  have same := (run_foreseen stops).1
  rw [List.cons_append] at same
  simp only [same]

theorem number_foresees (begins : c = '-' ∨ isDigit c = true) :
    Foresees (fun text => number (c :: text)) [c] := by
  intro front others short
  simp only [number_cons begins] at short ⊢
  exact foresees_behind_run [c] numberTail numberTail_continues numberTail_foresees short

theorem word_foresees (begins : isWordChar c = true) :
    Foresees (fun text => word (c :: text)) [c] := by
  intro front others short
  simp only [word_cons begins] at short ⊢
  refine foresees_behind_run [c]
    (fun name rest => delimited (nameKind (String.ofList name)) name rest) ?_ ?_ short
  · exact fun name rest => delimited_continues _ name rest
  · exact fun name => delimited_foresees _ name

theorem throughMarks?_foreseen {front others body : List Char}
    (found : throughMarks? (front ++ others) = some body) (short : body.length ≤ front.length) :
    throughMarks? front = some body := by
  induction front generalizing body with
  | nil =>
      obtain ⟨marked, rfl⟩ := throughMarks?_ends found
      simp at short
  | cons c front ih =>
      have head : ∀ tail : List Char, throughMarks? (front ++ others) = some tail →
          (c :: tail).length ≤ (c :: front).length →
            (front ++ others).head? = front.head? := by
        intro tail ended within
        obtain ⟨marked, rfl⟩ := throughMarks?_ends ended
        cases front with
        | nil => simp at within
        | cons d front => rfl
      rw [List.cons_append, throughMarks?] at found
      split at found
      · next marks =>
          cases found
          cases front with
          | nil => simp at short
          | cons d front =>
              have here : c = '!' ∧ (d :: front).head? = some '!' := marks
              rw [throughMarks?, if_pos here]
      · next unmarked =>
          obtain ⟨tail, ended, rfl⟩ := Option.map_eq_some_iff.mp found
          rw [head tail ended short] at unmarked
          rw [throughMarks?, if_neg unmarked, ih ended (Nat.le_of_succ_le_succ short)]
          rfl

theorem comment_foresees : Foresees (fun text => comment ('!' :: text)) ['!'] := by
  refine foresees_of_cons comment_continues fun c front others short => ?_
  by_cases mark : c = '!'
  · subst mark
    cases found : throughMarks? (front ++ others) with
    | none =>
        simp only [comment_open found, List.length_cons, List.length_append, List.length_nil]
          at short
        omega
    | some body =>
        simp only [comment_closed found, plain, List.length_cons, List.length_nil] at short
        have again := throughMarks?_foreseen found (by omega)
        simp only [comment_closed found, comment_closed again]
  · have goes : ∀ text, comment ('!' :: c :: text) =
        plain .lineComment (('!' :: c :: text).takeWhile (!isNewLine ·)) :=
      fun text => comment_line (by simpa using mark)
    simp only [goes] at short ⊢
    exact runs_foresee .lineComment (!isNewLine ·) '!' (c :: front) others short

theorem quoted_foresees (quote : Char) : Foresees (quoted quote) [quote] := by
  intro front others short
  have whole := length_run (inString quote) (front ++ others)
  have least : ((front ++ others).takeWhile (inString quote)).length < front.length := by
    rw [quoted] at short
    rw [List.length_append] at whole
    split at short
    · next none =>
        rw [none] at whole
        simp only [List.length_cons, List.length_nil] at short whole
        omega
    · split at short
      · simp only [List.length_cons, List.length_append, List.length_nil] at short
        omega
      · simp only [List.length_cons, List.length_nil] at short
        omega
  obtain ⟨same, behind⟩ := run_foreseen least
  have left : front.dropWhile (inString quote) ≠ [] := by
    intro none
    have parts := length_run (inString quote) front
    rw [none, ← same, List.length_nil, Nat.add_zero] at parts
    exact Nat.lt_irrefl _ (parts ▸ least)
  obtain ⟨c, rest, ended⟩ := List.exists_cons_of_ne_nil left
  rw [quoted, quoted, same, behind, ended]
  rfl

/-- A cut depends on the characters that it takes and on the next one. -/
theorem scan_foresees (lineStart : Bool) (c : Char) : Foresees (scan lineStart c) [c] := by
  refine foresees_of_cons (scan_continues lineStart c) fun d front others short => ?_
  rw [scan] at short
  rw [scan, scan]
  split
  · next breaks =>
      rw [if_pos breaks] at short
      exact runs_foresee .newLine isNewLine c (d :: front) others short
  · next solid =>
    rw [if_neg solid] at short
    split
    · next blank =>
      rw [if_pos blank] at short
      split
      · next indents =>
          rw [if_pos indents] at short
          exact runs_foresee .indentation isIndent c (d :: front) others short
      · next spaces =>
          rw [if_neg spaces] at short
          exact runs_foresee .whiteSpace isSpace c (d :: front) others short
    · next full =>
      rw [if_neg full] at short
      have head : ∀ text : List Char, (d :: text).head? = some d := fun _ => rfl
      simp only [head] at short ⊢
      split
      · next digit =>
          rw [if_pos digit] at short
          have begins : c = '-' ∨ isDigit c = true := by
            simp only [Bool.or_eq_true, Bool.and_eq_true, decide_eq_true_eq] at digit
            exact digit.symm.imp_left And.left
          exact number_foresees begins (d :: front) others short
      · next noDigit =>
        rw [if_neg noDigit] at short
        split
        · next mark =>
            subst mark
            rw [if_pos rfl] at short
            exact comment_foresees (d :: front) others short
        · next noMark =>
          rw [if_neg noMark] at short
          split
          · next letter =>
              rw [if_pos letter] at short
              have begins : isWordChar c = true := by
                simp only [isWordChar, Bool.or_eq_true] at letter ⊢
                exact letter.imp_left Or.inl
              exact word_foresees begins (d :: front) others short
          · next noName =>
            rw [if_neg noName] at short
            split
            · next quotes =>
                rw [if_pos quotes] at short
                exact quoted_foresees c (d :: front) others short
            · next noQuote =>
              rw [if_neg noQuote] at short
              split
              · rfl
              · next strays =>
                  rw [strays] at short
                  exact malformed_foresees _ [c] (d :: front) others short

theorem scan_in_front {lineStart : Bool} {more inner outer : List Char}
    (taken : (scan lineStart c (more ++ (inner ++ outer))).taken = c :: more) (some : inner ≠ []) :
    scan lineStart c (more ++ inner) = scan lineStart c (more ++ (inner ++ outer)) := by
  have room := List.length_pos_iff.mpr some
  rw [← List.append_assoc] at taken ⊢
  refine scan_foresees lineStart c (more ++ inner) outer ?_
  rw [taken, List.length_append, List.length_cons, List.length_singleton]
  omega

end Beginnings

end WidgetTree.Lexeme
