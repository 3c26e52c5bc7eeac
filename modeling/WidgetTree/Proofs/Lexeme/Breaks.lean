import WidgetTree.Proofs.Lexeme.Lookahead
import WidgetTree.Proofs.Lexeme.Tiling

namespace WidgetTree.Lexeme

open Text (isBlank)

def Broken (follow : List Char) : Prop := follow.head?.all isNewLine = true

def Cut.bare (cut : Cut) : Cut := { cut with fault := none }

@[simp] theorem Cut.kind_bare (cut : Cut) : cut.bare.kind = cut.kind := rfl

@[simp] theorem Cut.taken_bare (cut : Cut) : cut.bare.taken = cut.taken := rfl

theorem Cut.eq_of_bare {cut other : Cut} (same : cut.bare = other.bare) :
    cut.kind = other.kind ∧ cut.taken = other.taken := by
  rw [← cut.kind_bare, same, ← cut.taken_bare, same]
  exact ⟨rfl, rfl⟩

section Broken

variable {p : Char → Bool} {follow : List Char}

theorem Broken.closes (broken : Broken follow) : Closes follow := by
  cases follow with
  | nil => rfl
  | cons c follow =>
      have breaks : isNewLine c = true := by simpa [Broken] using broken
      simp [Closes, isClosing, breaks]

theorem Broken.lacks (broken : Broken follow) (ends : ['\r', '\n'].all (!p ·) = true) :
    Lacks p follow := by
  cases follow with
  | nil => rfl
  | cons c follow =>
      have breaks : isNewLine c = true := by simpa [Broken] using broken
      rw [lacks_cons]
      cases holds : p c with
      | false => rfl
      | true => exact absurd (unbroken_of ends c holds) (by simp [breaks])

theorem run_append (lacks : Lacks p follow) (front : List Char) :
    (front ++ follow).takeWhile p = front.takeWhile p ∧
      (front ++ follow).dropWhile p = front.dropWhile p ++ follow := by
  induction front with
  | nil => exact ⟨takeWhile_of_lacks lacks, dropWhile_of_lacks lacks⟩
  | cons c front ih =>
      rw [List.cons_append]
      cases holds : p c with
      | true =>
          rw [List.takeWhile_cons_of_pos holds, List.takeWhile_cons_of_pos holds,
            List.dropWhile_cons_of_pos holds, List.dropWhile_cons_of_pos holds, ih.1, ih.2]
          exact ⟨rfl, rfl⟩
      | false =>
          have stops : ¬ p c = true := by simp [holds]
          rw [List.takeWhile_cons_of_neg stops, List.takeWhile_cons_of_neg stops,
            List.dropWhile_cons_of_neg stops, List.dropWhile_cons_of_neg stops]
          exact ⟨rfl, rfl⟩

end Broken

section Scanning

variable {lineStart : Bool} {c : Char} {front follow : List Char}

theorem scan_newLine (breaks : isNewLine c = true) (rest : List Char) :
    scan lineStart c rest = plain .newLine ((c :: rest).takeWhile isNewLine) := by
  rw [scan, if_pos breaks]

theorem scan_blank (solid : isNewLine c = false) (blank : isBlank c = true) (rest : List Char) :
    scan lineStart c rest =
      if lineStart && isIndent c then plain .indentation ((c :: rest).takeWhile isIndent)
      else plain .whiteSpace ((c :: rest).takeWhile isSpace) := by
  rw [scan, if_neg (by simp [solid]), if_pos blank]

theorem scan_word_broken (settles : ∀ rest, ∃ more, Settles (scan lineStart c) [c] rest more)
    (broken : Broken follow) : scan lineStart c (front ++ follow) = scan lineStart c front := by
  obtain ⟨more, settled⟩ := settles (front ++ follow)
  have within : more <+: front := by
    rcases List.prefix_or_prefix_of_prefix settled.front (List.prefix_append front follow) with
      within | ⟨extra, rfl⟩
    · exact within
    · cases extra with
      | nil => simp
      | cons d extra =>
          obtain ⟨others, rfl⟩ := (List.prefix_append_right_inj front).mp settled.front
          have breaks : isNewLine d = true := by simpa [Broken] using broken
          have unbroken := settled.unbroken d (by simp)
          simp [breaks] at unbroken
  obtain ⟨others, rfl⟩ := within
  cases others with
  | nil =>
      rw [List.append_nil] at settled ⊢
      exact settled.alone.symm
  | cons d others =>
      refine (scan_foresees lineStart c (more ++ d :: others) follow ?_).symm
      rw [settled.worded.taken_eq, List.length_append, List.length_append]
      simp only [List.length_cons, List.length_nil]
      omega

theorem scan_broken (solid : isNewLine c = false) (unquoted : isQuote c = false)
    (single : c = '!' → front.head? ≠ some '!') (broken : Broken follow) :
    scan lineStart c (front ++ follow) = scan lineStart c front := by
  by_cases blank : isBlank c = true
  · rw [scan_blank solid blank, scan_blank solid blank, ← List.cons_append,
      (run_append (broken.lacks (by decide)) (c :: front)).1,
      (run_append (broken.lacks (by decide)) (c :: front)).1]
  have full : isBlank c = false := by simpa using blank
  by_cases mark : c = '!'
  · subst mark
    have single' : (front ++ follow).head? ≠ some '!' := by
      cases front with
      | nil =>
          have lacks : Lacks (· == '!') follow := broken.lacks (by decide)
          cases follow with
          | nil => simp
          | cons d follow => simpa [Lacks] using lacks
      | cons d front => exact single rfl
    rw [scan_comment, scan_comment, comment_line single', comment_line (single rfl),
      ← List.cons_append, (run_append (broken.lacks (by decide)) ('!' :: front)).1]
  cases marks : mark? c with
  | some kind => rw [scan_of_mark? marks, scan_of_mark? marks]
  | none => exact scan_word_broken (scan_settles solid full mark unquoted marks) broken

theorem quoted_broken {quote : Char} (broken : Broken follow) (closes : isNewLine quote = false) :
    quoted quote (front ++ follow) =
      if (front.dropWhile (inString quote)).isEmpty then
        ⟨.error, quote :: front, front,
          some (if follow.isEmpty then .unterminatedString else .lineBreakInString)⟩
      else quoted quote front := by
  have lacks : Lacks (inString quote) follow := broken.lacks (by simp [inString, isNewLine])
  obtain ⟨body, behind⟩ := run_append lacks front
  have whole := List.takeWhile_append_dropWhile (p := inString quote) (l := front)
  rw [quoted, quoted, body, behind]
  cases left : front.dropWhile (inString quote) with
  | nil =>
      rw [left, List.append_nil] at whole
      rw [List.nil_append, whole]
      cases follow with
      | nil => rfl
      | cons d follow =>
          have other : d ≠ quote := by
            rintro rfl
            have breaks : isNewLine d = true := by simpa [Broken] using broken
            simp [breaks] at closes
          simp [other]
  | cons d left => rfl

theorem throughMarks?_append {body : List Char} (found : throughMarks? front = some body)
    (others : List Char) : throughMarks? (front ++ others) = some body := by
  induction front generalizing body with
  | nil => cases found
  | cons c front ih =>
      rw [throughMarks?] at found
      rw [List.cons_append, throughMarks?]
      split at found
      · next marks =>
          cases found
          rw [if_pos ⟨marks.1, by rw [List.head?_append, marks.2]; rfl⟩]
      · next unmarked =>
          obtain ⟨tail, ended, rfl⟩ := Option.map_eq_some_iff.mp found
          have same : (front ++ others).head? = front.head? := by
            cases front with
            | nil => cases ended
            | cons d front => rfl
          rw [same, if_neg unmarked, ih ended]
          rfl

theorem scan_line_single (solid : isNewLine c = false) (broken : Broken follow)
    (single : c = '!' → front.head? ≠ some '!') :
    (scan lineStart c (front ++ follow)).bare = (scan lineStart c front).bare := by
  cases quotes : isQuote c with
  | true =>
      have nothing : Broken [] := rfl
      have alone : quoted c (front ++ []) = _ := quoted_broken nothing solid
      rw [List.append_nil] at alone
      rw [scan_of_quote quotes, scan_of_quote quotes, quoted_broken broken solid, alone]
      split <;> rfl
  | false => rw [scan_broken solid quotes single broken]

/-- What is cut in front of a line break is cut where the text ends there, a comment that is still
open apart. -/
theorem scan_line (solid : isNewLine c = false) (broken : Broken follow)
    (closed : (scan lineStart c front).fault ≠ some .unterminatedComment) :
    (scan lineStart c (front ++ follow)).bare = (scan lineStart c front).bare := by
  by_cases block : c = '!' ∧ front.head? = some '!'
  · obtain ⟨rfl, second⟩ := block
    obtain ⟨rest, rfl⟩ := List.head?_eq_some_iff.mp second
    rw [scan_comment] at closed
    rw [List.cons_append, scan_comment, scan_comment]
    cases found : throughMarks? rest with
    | none =>
        rw [comment_open found] at closed
        exact absurd rfl closed
    | some body => rw [comment_closed found, comment_closed (throughMarks?_append found follow)]
  · exact scan_line_single solid broken fun mark second => block ⟨mark, second⟩

end Scanning

section Texts

variable {lineStart : Bool} {front run rear : List Char}

def EndsOpen (text : List Char) : Prop := ∀ c ∈ text.getLast?, isNewLine c = false

instance (text : List Char) : Decidable (EndsOpen text) :=
  decidable_of_iff (text.getLast?.all (!isNewLine ·) = true) (by
    rw [EndsOpen, Option.all_eq_true]
    simp)

structure BreakRun (run rear : List Char) : Prop where
  some : run ≠ []
  breaks : ∀ c ∈ run, isNewLine c = true
  whole : Lacks isNewLine rear

theorem BreakRun.broken (breaks : BreakRun run rear) : Broken (run ++ rear) := by
  rcases breaks with ⟨some, breaks, -⟩
  cases run with
  | nil => exact absurd rfl some
  | cons c run => simpa [Broken] using breaks c List.mem_cons_self

theorem cutsFrom_run (breaks : BreakRun run rear) (lineStart : Bool) :
    cutsFrom lineStart (run ++ rear) = plain .newLine run :: cutsFrom true rear := by
  rcases breaks with ⟨some, breaks, whole⟩
  cases run with
  | nil => exact absurd rfl some
  | cons c run =>
      have same : scan lineStart c (run ++ rear) = plain .newLine (c :: run) := by
        rw [scan_newLine (breaks c List.mem_cons_self), ← List.cons_append,
          List.takeWhile_append_of_pos breaks, takeWhile_of_lacks whole, List.append_nil]
      exact cutsFrom_of_scan rfl same

theorem scan_newLine_append {c : Char} {rest : List Char} (breaks : isNewLine c = true)
    (goes : ∃ d ∈ rest, isNewLine d = false) (follow : List Char) :
    scan lineStart c (rest ++ follow) = scan lineStart c rest := by
  rw [scan_newLine breaks, scan_newLine breaks, ← List.cons_append, List.takeWhile_append]
  split
  · next full =>
      have all : (c :: rest).takeWhile isNewLine = c :: rest :=
        (List.takeWhile_prefix _).eq_of_length full
      rcases goes with ⟨d, member, solid⟩
      have inside : d ∈ (c :: rest).takeWhile isNewLine := by
        rw [all]
        exact List.mem_cons_of_mem c member
      rw [List.mem_takeWhile_imp inside] at solid
      cases solid
  · rfl

theorem EndsOpen.drop {c : Char} {rest : List Char} (ends : EndsOpen (c :: rest)) (count : Nat) :
    EndsOpen (rest.drop count) := by
  intro d last
  apply ends
  obtain ⟨front, split⟩ := List.getLast?_eq_some_iff.mp last
  rw [← List.take_append_drop count rest, split, ← List.append_assoc, ← List.cons_append]
  exact List.getLast?_concat

theorem EndsOpen.goes {c : Char} {rest : List Char} (ends : EndsOpen (c :: rest))
    (breaks : isNewLine c = true) : ∃ d ∈ rest, isNewLine d = false := by
  cases last : rest.getLast? with
  | none =>
      rw [List.getLast?_eq_none_iff.mp last] at ends
      exact absurd breaks (by simp [ends c rfl])
  | some d =>
      have whole : (c :: rest).getLast? = some d := by rw [List.getLast?_cons, last]; rfl
      exact ⟨d, List.mem_of_getLast? last, ends d whole⟩

theorem cutsFrom_append_cons {c : Char} {rest follow : List Char}
    (same : (scan lineStart c (rest ++ follow)).bare = (scan lineStart c rest).bare) :
    (cutsFrom lineStart (c :: (rest ++ follow))).map Cut.bare =
      (scan lineStart c rest).bare ::
        (cutsFrom ((scan lineStart c rest).kind = .newLine)
          (rest.drop ((scan lineStart c rest).taken.length - 1) ++ follow)).map Cut.bare := by
  obtain ⟨kind, taken⟩ := Cut.eq_of_bare same
  have within : (scan lineStart c rest).taken.length - 1 ≤ rest.length := by
    have whole := congrArg List.length (scan_taken_append lineStart c rest)
    rw [List.length_append, List.length_cons] at whole
    omega
  rw [cutsFrom_cons, List.map_cons, same, kind, taken, List.drop_append_of_le_length within]

/-- A text is cut line by line, where the text in front of the break does not end in an open
comment. -/
theorem cutsFrom_lines (ends : EndsOpen front) (breaks : BreakRun run rear)
    (closed : ∀ cut ∈ cutsFrom lineStart front, cut.fault ≠ some .unterminatedComment) :
    (cutsFrom lineStart (front ++ (run ++ rear))).map Cut.bare =
      (cutsFrom lineStart front ++ plain .newLine run :: cutsFrom true rear).map Cut.bare := by
  induction lineStart, front using cutsFrom.induct with
  | case1 lineStart => rw [cutsFrom, List.nil_append, List.nil_append, cutsFrom_run breaks]
  | case2 lineStart c rest cut ih =>
      rw [cutsFrom_cons, List.forall_mem_cons] at closed
      have same : (scan lineStart c (rest ++ (run ++ rear))).bare =
          (scan lineStart c rest).bare := by
        cases newLine : isNewLine c with
        | true => rw [scan_newLine_append newLine (ends.goes newLine)]
        | false => exact scan_line newLine breaks.broken closed.1
      rw [List.cons_append, cutsFrom_append_cons same, ih (ends.drop _) closed.2, cutsFrom_cons,
        List.cons_append, List.map_cons]

end Texts

end WidgetTree.Lexeme
