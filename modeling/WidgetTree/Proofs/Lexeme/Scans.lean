import WidgetTree.Proofs.Lexeme.Words

namespace WidgetTree.Lexeme

open Text (isAlphabetic isBlank)

/-- The forms that a cut can have which begins with `c` and goes on in `rest`. -/
inductive Scans (lineStart : Bool) (c : Char) (rest : List Char) : Cut → Prop
  | newLine (breaks : isNewLine c = true) :
      Scans lineStart c rest (plain .newLine ((c :: rest).takeWhile isNewLine))
  | indentation (start : lineStart = true) (indents : isIndent c = true) :
      Scans lineStart c rest (plain .indentation ((c :: rest).takeWhile isIndent))
  | whiteSpace (spaces : isSpace c = true) :
      Scans lineStart c rest (plain .whiteSpace ((c :: rest).takeWhile isSpace))
  | lineComment (mark : c = '!') :
      Scans lineStart c rest (plain .lineComment ((c :: rest).takeWhile (!isNewLine ·)))
  | blockComment (body : List Char) :
      Scans lineStart c rest (plain .blockComment (body ++ ['!', '!']))
  | openComment : Scans lineStart c rest ⟨.error, c :: rest, c :: rest, some .unterminatedComment⟩
  | word {more : List Char} (solid : isNewLine c = false) (full : isBlank c = false)
      (settles : Settles (scan lineStart c) [c] rest more) :
      Scans lineStart c rest (scan lineStart c rest)
  | string {body : List Char} (quotes : isQuote c = true)
      (inside : ∀ d ∈ body, inString c d = true) :
      Scans lineStart c rest ⟨.string, c :: body ++ [c], body, none⟩
  | openString (quotes : isQuote c = true) (inside : ∀ d ∈ rest, inString c d = true) :
      Scans lineStart c rest ⟨.error, c :: rest, rest, some .unterminatedString⟩
  | brokenString {body : List Char} (quotes : isQuote c = true)
      (inside : ∀ d ∈ body, inString c d = true) :
      Scans lineStart c rest ⟨.error, c :: body, body, some .lineBreakInString⟩
  | mark {kind : Kind} (marks : mark? c = some kind) : Scans lineStart c rest (plain kind [c])

section Dispatch

variable {lineStart : Bool} {c : Char} {rest : List Char}

def beginsNumber (c : Char) (rest : List Char) : Bool :=
  isDigit c || (c = '-' && rest.head?.any isDigit)

theorem scan_number (solid : isNewLine c = false) (full : isBlank c = false)
    (digit : beginsNumber c rest = true) : scan lineStart c rest = number (c :: rest) := by
  rw [beginsNumber] at digit
  rw [scan, if_neg (by simp [solid]), if_neg (by simp [full]), if_pos digit]

theorem scan_comment : scan lineStart '!' rest = comment ('!' :: rest) := by
  have noDigit : isDigit '!' = false := rfl
  rw [scan, if_neg (by decide), if_neg (by decide), if_neg (by simp [noDigit]), if_pos rfl]

theorem comment_closed {text body : List Char} (found : throughMarks? text = some body) :
    comment ('!' :: '!' :: text) = plain .blockComment ('!' :: '!' :: body) := by
  rw [comment, found]

theorem comment_open {text : List Char} (none : throughMarks? text = none) :
    comment ('!' :: '!' :: text) =
      ⟨.error, '!' :: '!' :: text, '!' :: '!' :: text, some .unterminatedComment⟩ := by
  rw [comment, none]

theorem comment_line {rest : List Char} (single : rest.head? ≠ some '!') :
    comment ('!' :: rest) = plain .lineComment (('!' :: rest).takeWhile (!isNewLine ·)) := by
  rw [comment.eq_def]
  split
  · next body same =>
      obtain ⟨-, rfl⟩ := List.cons.inj same
      exact absurd rfl single
  · rfl

theorem scan_word (solid : isNewLine c = false) (full : isBlank c = false)
    (noDigit : beginsNumber c rest = false) (noMark : c ≠ '!')
    (begins : (isAlphabetic c || c = '_') = true) : scan lineStart c rest = word (c :: rest) := by
  rw [beginsNumber] at noDigit
  rw [scan, if_neg (by simp [solid]), if_neg (by simp [full]), if_neg (by simp [noDigit]),
    if_neg noMark, if_pos begins]

theorem scan_quoted (solid : isNewLine c = false) (full : isBlank c = false)
    (noDigit : beginsNumber c rest = false) (noMark : c ≠ '!')
    (noName : (isAlphabetic c || c = '_') = false) (quotes : isQuote c = true) :
    scan lineStart c rest = quoted c rest := by
  rw [beginsNumber] at noDigit
  rw [scan, if_neg (by simp [solid]), if_neg (by simp [full]), if_neg (by simp [noDigit]),
    if_neg noMark, if_neg (by simp [noName]), if_pos quotes]

theorem scan_mark {kind : Kind} (solid : isNewLine c = false) (full : isBlank c = false)
    (noDigit : beginsNumber c rest = false) (noMark : c ≠ '!')
    (noName : (isAlphabetic c || c = '_') = false) (noQuote : isQuote c = false)
    (marks : mark? c = some kind) : scan lineStart c rest = plain kind [c] := by
  rw [beginsNumber] at noDigit
  rw [scan, if_neg (by simp [solid]), if_neg (by simp [full]), if_neg (by simp [noDigit]),
    if_neg noMark, if_neg (by simp [noName]), if_neg (by simp [noQuote]), marks]

theorem scan_stray (solid : isNewLine c = false) (full : isBlank c = false)
    (noDigit : beginsNumber c rest = false) (noMark : c ≠ '!')
    (noName : (isAlphabetic c || c = '_') = false) (noQuote : isQuote c = false)
    (strays : mark? c = none) : scan lineStart c rest = malformed .unexpectedToken [c] rest := by
  rw [beginsNumber] at noDigit
  rw [scan, if_neg (by simp [solid]), if_neg (by simp [full]), if_neg (by simp [noDigit]),
    if_neg noMark, if_neg (by simp [noName]), if_neg (by simp [noQuote]), strays]

theorem beginsNumber_eq_false (lacks : c = '-' → Lacks isDigit rest) (noDigit : isDigit c = false) :
    beginsNumber c rest = false := by
  by_cases minus : c = '-'
  · subst minus
    have none := lacks rfl
    cases rest with
    | nil => rfl
    | cons d others => simpa [beginsNumber, noDigit] using none
  · simp [beginsNumber, noDigit, minus]

theorem not_minus_of_begins (begins : (isAlphabetic c || c = '_') = true) : c ≠ '-' := by
  rintro rfl
  exact absurd begins (by decide)

theorem digit_of_beginsNumber (digit : beginsNumber c rest = true) :
    c = '-' ∨ isDigit c = true := by
  simp only [beginsNumber, Bool.or_eq_true, Bool.and_eq_true, decide_eq_true_eq] at digit
  exact digit.symm.imp_left And.left

theorem beginsNumber_again {more follow : List Char} (digit : beginsNumber c rest = true) :
    beginsNumber c ((rest.takeWhile isDigit ++ more) ++ follow) = true := by
  cases own : isDigit c with
  | true => simp [beginsNumber, own]
  | false =>
      cases rest with
      | nil => simp [beginsNumber, own] at digit
      | cons d others =>
          simp only [beginsNumber, own, Bool.false_or, Bool.and_eq_true, decide_eq_true_eq] at digit
          rcases digit with ⟨minus, next⟩
          have next : isDigit d = true := by simpa using next
          simp [beginsNumber, minus, List.takeWhile_cons_of_pos next, next]

theorem scan_lineStart (full : isBlank c = false) (lineStart lineStart' : Bool)
    (rest : List Char) : scan lineStart c rest = scan lineStart' c rest := by
  simp only [scan, full, Bool.false_eq_true, if_false]

theorem mark?_full {kind : Kind} (marks : mark? c = some kind) : isBlank c = false := by
  rw [mark?.eq_def] at marks
  split at marks
  case h_6 => cases marks
  all_goals decide

theorem scan_of_mark? {kind : Kind} (marks : mark? c = some kind) (lineStart : Bool)
    (rest : List Char) : scan lineStart c rest = plain kind [c] := by
  have others : isNewLine c = false ∧ beginsNumber c rest = false ∧ c ≠ '!' ∧
      (isAlphabetic c || c = '_') = false ∧ isQuote c = false := by
    have found := marks
    rw [mark?.eq_def] at found
    split at found
    case h_6 => cases found
    all_goals exact ⟨rfl, rfl, by decide, by decide, by decide⟩
  rcases others with ⟨solid, noDigit, noMark, noName, noQuote⟩
  exact scan_mark solid (mark?_full marks) noDigit noMark noName noQuote marks

theorem scan_of_quote (quotes : isQuote c = true) : scan lineStart c rest = quoted c rest := by
  simp only [isQuote, Bool.or_eq_true, decide_eq_true_eq] at quotes
  rcases quotes with rfl | rfl
  · exact scan_quoted rfl rfl rfl (by decide) rfl rfl
  · exact scan_quoted rfl rfl rfl (by decide) rfl rfl

theorem quoted_of_inside {quote : Char} {body : List Char}
    (inside : ∀ d ∈ body, inString quote d = true) (follow : List Char) :
    quoted quote ((body ++ [quote]) ++ follow) =
      ⟨.string, quote :: body ++ [quote], body, none⟩ := by
  have ends : inString quote quote = false := by simp [inString]
  have front : ((body ++ [quote]) ++ follow).takeWhile (inString quote) = body := by
    rw [List.append_assoc, List.takeWhile_append_of_pos inside, List.singleton_append,
      List.takeWhile_cons_of_neg (by simp [ends]), List.append_nil]
  have behind : ((body ++ [quote]) ++ follow).dropWhile (inString quote) = quote :: follow := by
    rw [List.append_assoc, List.dropWhile_append_of_pos inside, List.singleton_append,
      List.dropWhile_cons_of_neg (by simp [ends])]
  rw [quoted, front, behind]
  simp only [if_true]

end Dispatch

section Forms

variable {lineStart : Bool} {c : Char} {rest : List Char}

theorem scan_number_settles (solid : isNewLine c = false) (full : isBlank c = false)
    (digit : beginsNumber c rest = true) : ∃ more, Settles (scan lineStart c) [c] rest more := by
  obtain ⟨more, settled⟩ := number_settles (digit_of_beginsNumber digit) rest
  refine ⟨_, settled.congr (scan_number solid full digit) fun follow _ => ?_⟩
  exact scan_number solid full (beginsNumber_again digit)

theorem scan_word_settles (solid : isNewLine c = false) (full : isBlank c = false)
    (noDigit : beginsNumber c rest = false) (noMark : c ≠ '!')
    (begins : (isAlphabetic c || c = '_') = true) :
    ∃ more, Settles (scan lineStart c) [c] rest more := by
  have letter : isWordChar c = true := by
    simp only [isWordChar, Bool.or_eq_true] at begins ⊢
    exact begins.imp_left Or.inl
  have own : isDigit c = false := (Bool.or_eq_false_iff.mp noDigit).1
  obtain ⟨more, settled⟩ := word_settles letter rest
  have here : scan lineStart c rest = word (c :: rest) :=
    scan_word solid full noDigit noMark begins
  refine ⟨_, settled.congr here fun follow _ => ?_⟩
  have again : beginsNumber c (more ++ follow) = false :=
    beginsNumber_eq_false (fun minus => absurd minus (not_minus_of_begins begins)) own
  exact scan_word solid full again noMark begins

theorem scan_stray_settles (solid : isNewLine c = false) (full : isBlank c = false)
    (noDigit : beginsNumber c rest = false) (noMark : c ≠ '!')
    (noName : (isAlphabetic c || c = '_') = false) (noQuote : isQuote c = false)
    (strays : mark? c = none) : ∃ more, Settles (scan lineStart c) [c] rest more := by
  have settled : Settles (malformed .unexpectedToken [c]) [c] rest _ :=
    malformed_settles .unexpectedToken fun _ => rfl
  have own : isDigit c = false := (Bool.or_eq_false_iff.mp noDigit).1
  refine ⟨_, settled.congr
    (scan_stray solid full noDigit noMark noName noQuote strays) fun follow closes => ?_⟩
  refine scan_stray solid full (beginsNumber_eq_false (fun minus => ?_) own) noMark noName noQuote
    strays
  apply lacks_closed closes isDigit_closed settled.front
  subst minus
  cases rest with
  | nil => rfl
  | cons d others => simpa [beginsNumber, own] using noDigit

theorem scan_settles (solid : isNewLine c = false) (full : isBlank c = false) (noMark : c ≠ '!')
    (noQuote : isQuote c = false) (strays : mark? c = none) (rest : List Char) :
    ∃ more, Settles (scan lineStart c) [c] rest more := by
  cases digit : beginsNumber c rest with
  | true => exact scan_number_settles solid full digit
  | false =>
      cases begins : (isAlphabetic c || c = '_') with
      | true => exact scan_word_settles solid full digit noMark begins
      | false => exact scan_stray_settles solid full digit noMark begins noQuote strays

theorem throughMarks?_ends {text body : List Char} (found : throughMarks? text = some body) :
    ∃ front, body = front ++ ['!', '!'] := by
  induction text generalizing body with
  | nil => simp [throughMarks?] at found
  | cons c cs ih =>
      unfold throughMarks? at found
      split at found
      · cases found
        exact ⟨[], rfl⟩
      · obtain ⟨tail, ended, rfl⟩ := Option.map_eq_some_iff.mp found
        obtain ⟨front, rfl⟩ := ih ended
        exact ⟨c :: front, rfl⟩

theorem comment_scans : Scans lineStart '!' rest (comment ('!' :: rest)) := by
  rw [comment.eq_def]
  split
  · next body same =>
      obtain ⟨-, rfl⟩ := List.cons.inj same
      split
      · next found =>
          obtain ⟨front, rfl⟩ := throughMarks?_ends found
          exact .blockComment ('!' :: '!' :: front)
      · exact .openComment
  · exact .lineComment rfl

theorem quoted_scans (quotes : isQuote c = true) : Scans lineStart c rest (quoted c rest) := by
  have inside : ∀ d ∈ rest.takeWhile (inString c), inString c d = true :=
    fun d => List.mem_takeWhile_imp
  have whole : rest.takeWhile (inString c) ++ rest.dropWhile (inString c) = rest :=
    List.takeWhile_append_dropWhile
  rw [quoted]
  split
  · next none =>
      rw [none, List.append_nil] at whole
      rw [whole] at inside ⊢
      exact .openString quotes inside
  · split
    · exact .string quotes inside
    · exact .brokenString quotes inside

/-- Every cut has one of the forms. -/
theorem scan_scans (lineStart : Bool) (c : Char) (rest : List Char) :
    Scans lineStart c rest (scan lineStart c rest) := by
  by_cases breaks : isNewLine c = true
  · rw [scan, if_pos breaks]
    exact .newLine breaks
  have solid : isNewLine c = false := by simpa using breaks
  by_cases blank : isBlank c = true
  · rw [scan, if_neg breaks, if_pos blank]
    split
    · next indents =>
        obtain ⟨start, indents⟩ := Bool.and_eq_true_iff.mp indents
        exact .indentation start indents
    · exact .whiteSpace (by simp [isSpace, blank, solid])
  have full : isBlank c = false := by simpa using blank
  by_cases mark : c = '!'
  · subst mark
    rw [scan_comment]
    exact comment_scans
  cases quotes : isQuote c with
  | true =>
      rw [scan_of_quote quotes]
      exact quoted_scans quotes
  | false =>
  cases marks : mark? c with
  | some kind =>
      rw [scan_of_mark? marks]
      exact .mark marks
  | none =>
      obtain ⟨more, settles⟩ := scan_settles solid full mark quotes marks rest
      exact .word solid full settles

end Forms

end WidgetTree.Lexeme
