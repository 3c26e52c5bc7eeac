import WidgetTree.Proofs.Lexeme.Breaks

namespace WidgetTree.Lexeme

/-- The text of these cuts, where an indentation of `n` characters is one of `relength n`. -/
inductive Redrawn (relength : Nat → Nat) : List Cut → List Char → Prop
  | nil : Redrawn relength [] []
  | indentation {cut : Cut} {cuts : List Cut} {run rest : List Char}
      (kind : cut.kind = .indentation) (indents : ∀ c ∈ run, isIndent c = true)
      (length : run.length = relength cut.taken.length) (below : Redrawn relength cuts rest) :
      Redrawn relength (cut :: cuts) (run ++ rest)
  | kept {cut : Cut} {cuts : List Cut} {rest : List Char} (solid : cut.kind ≠ .indentation)
      (below : Redrawn relength cuts rest) : Redrawn relength (cut :: cuts) (cut.taken ++ rest)

structure Cut.Redrawn (relength : Nat → Nat) (cut other : Cut) : Prop where
  kind : other.kind = cut.kind
  same : cut.kind ≠ .indentation → other.bare = cut.bare
  length : cut.kind = .indentation → other.taken.length = relength cut.taken.length

section Scanning

variable {lineStart : Bool} {c : Char} {rest : List Char}

theorem kind_eq_newLine_iff :
    (scan lineStart c rest).kind = .newLine ↔ isNewLine c = true := by
  refine ⟨fun newLine => ?_, fun breaks => by rw [scan_newLine breaks, plain]⟩
  have form := scan_scans lineStart c rest
  generalize scan lineStart c rest = cut at form newLine
  cases form with
  | newLine breaks => exact breaks
  | word solid full settles =>
      have worded := settles.worded
      generalize scan lineStart c rest = cut at worded newLine
      cases worded with
      | sound word =>
          cases newLine
          cases word
      | faulty => cases newLine
  | mark marks =>
      cases newLine
      cases mark?_category marks
  | _ => cases newLine

theorem taken_of_indentation (indentation : (scan lineStart c rest).kind = .indentation) :
    (scan lineStart c rest).taken = (c :: rest).takeWhile isIndent := by
  have form := scan_scans lineStart c rest
  generalize scan lineStart c rest = cut at form indentation ⊢
  cases form with
  | indentation start indents => rfl
  | word solid full settles => exact absurd indentation settles.worded.kind_ne_indentation
  | mark marks =>
      cases indentation
      cases mark?_category marks
  | _ => cases indentation

theorem taken_of_newLine (newLine : (scan lineStart c rest).kind = .newLine) :
    (scan lineStart c rest).taken = (c :: rest).takeWhile isNewLine := by
  rw [scan_newLine (kind_eq_newLine_iff.mp newLine), plain]

theorem scan_split (lineStart : Bool) (c : Char) (rest : List Char) :
    ∃ more, (scan lineStart c rest).taken = c :: more ∧
      rest = more ++ rest.drop ((scan lineStart c rest).taken.length - 1) := by
  obtain ⟨more, begins⟩ := (scan_continues lineStart c rest).1
  have whole := scan_taken_append lineStart c rest
  refine ⟨more, begins.symm, ?_⟩
  rw [← begins] at whole ⊢
  exact (List.cons.inj whole).2.symm

theorem drop_of_taken {p : Char → Bool}
    (taken : (scan lineStart c rest).taken = (c :: rest).takeWhile p) :
    rest.drop ((scan lineStart c rest).taken.length - 1) = (c :: rest).dropWhile p := by
  have whole := scan_taken_append lineStart c rest
  rw [taken] at whole ⊢
  exact List.append_cancel_left (whole.trans List.takeWhile_append_dropWhile.symm)

theorem isNewLine_of_isIndent (indent : isIndent c = true) : isNewLine c = false := by
  simp only [isIndent, Bool.or_eq_true, decide_eq_true_eq] at indent
  rcases indent with rfl | rfl
  · rfl
  · rfl

theorem cutsFrom_indentation {run : List Char} (some : run ≠ [])
    (indents : ∀ d ∈ run, isIndent d = true) (lacks : Lacks isIndent rest) :
    cutsFrom true (run ++ rest) = plain .indentation run :: cutsFrom false rest := by
  cases run with
  | nil => exact absurd rfl some
  | cons d run =>
      have indent : isIndent d = true := indents d List.mem_cons_self
      have blank : Text.isBlank d = true := by
        simp only [isIndent, Bool.or_eq_true, decide_eq_true_eq] at indent
        rcases indent with rfl | rfl
        · rfl
        · rfl
      have same : scan true d (run ++ rest) = plain .indentation (d :: run) := by
        rw [scan_blank (isNewLine_of_isIndent indent) blank, indent, Bool.and_self, if_pos rfl,
          ← List.cons_append, List.takeWhile_append_of_pos indents, takeWhile_of_lacks lacks,
          List.append_nil]
      exact cutsFrom_of_scan rfl same

def SameLine (text other : List Char) : Prop :=
  ∃ line follow follow', text = line ++ follow ∧ other = line ++ follow' ∧
    Broken follow ∧ Broken follow'

theorem scan_across {more text other : List Char} (solid : isNewLine c = false)
    (whole : rest = more ++ text) (taken : (scan lineStart c rest).taken = c :: more)
    (same : SameLine text other) (goes : text ≠ []) :
    (scan lineStart c (more ++ other)).bare = (scan lineStart c rest).bare := by
  obtain ⟨line, follow, follow', rfl, rfl, broken, broken'⟩ := same
  rw [← List.append_assoc] at whole ⊢
  subst whole
  by_cases block : c = '!' ∧ (more ++ line).head? = some '!'
  · obtain ⟨rfl, second⟩ := block
    obtain ⟨front, split⟩ := List.head?_eq_some_iff.mp second
    have length := congrArg List.length split
    rw [split, List.cons_append, scan_comment] at taken
    rw [split, List.cons_append, List.cons_append, scan_comment, scan_comment]
    -- The marks that end the comment are among what it takes, so they stand on this line.
    cases found : throughMarks? (front ++ follow) with
    | none =>
        rw [comment_open found] at taken
        have short := congrArg List.length taken
        have some := List.length_pos_iff.mpr goes
        simp only [List.length_append, List.length_cons] at length short some
        omega
    | some body =>
        rw [comment_closed found] at taken
        have short := congrArg List.length taken
        simp only [plain, List.length_append, List.length_cons] at length short
        have inside := throughMarks?_foreseen found (by omega)
        rw [comment_closed found, comment_closed (throughMarks?_append inside follow')]
  · have single : c = '!' → (more ++ line).head? ≠ some '!' :=
      fun mark second => block ⟨mark, second⟩
    rw [scan_line_single solid broken single, scan_line_single solid broken' single]

theorem cutsFrom_again {more other : List Char} (taken : (scan lineStart c rest).taken = c :: more)
    (again : (scan lineStart c (more ++ other)).bare = (scan lineStart c rest).bare) :
    cutsFrom lineStart (c :: (more ++ other)) =
      scan lineStart c (more ++ other) ::
        cutsFrom ((scan lineStart c rest).kind = .newLine) other := by
  obtain ⟨kind, taken'⟩ := Cut.eq_of_bare again
  rw [cutsFrom_of_scan (taken'.trans taken) rfl, kind]

end Scanning

section Lines

variable {relength : Nat → Nat} {lineStart : Bool} {text other : List Char}

theorem ne_nil_of_relength {run taken : List Char} (positive : ∀ n, 0 < n → 0 < relength n)
    (some : taken ≠ []) (length : run.length = relength taken.length) : run ≠ [] := by
  have least := positive taken.length (List.length_pos_iff.mpr some)
  rw [← length] at least
  exact List.length_pos_iff.mp least

theorem Redrawn.sameLine (redrawn : Redrawn relength (cutsFrom lineStart text) other)
    (inside : lineStart = false) : SameLine text other := by
  induction lineStart, text using cutsFrom.induct generalizing other
  case case1 lineStart =>
    rw [cutsFrom] at redrawn
    cases redrawn
    exact ⟨[], [], [], rfl, rfl, rfl, rfl⟩
  case case2 lineStart c rest cut ih =>
    have whole := scan_taken_append lineStart c rest
    rw [cutsFrom_cons] at redrawn
    cases redrawn with
    | indentation kind => cases inside.symm.trans (lineStart_of_indentation kind)
    | kept solid below =>
        by_cases newLine : (scan lineStart c rest).kind = .newLine
        · have breaks := kind_eq_newLine_iff.mp newLine
          refine ⟨[], _, _, rfl, rfl, by simpa [Broken] using breaks, ?_⟩
          rw [taken_of_newLine newLine, List.takeWhile_cons_of_pos breaks]
          simpa [Broken] using breaks
        · obtain ⟨line, follow, follow', split, split', broken, broken'⟩ :=
            ih below (decide_eq_false newLine)
          rw [split, ← List.append_assoc] at whole
          rw [split', ← List.append_assoc]
          exact ⟨_, _, _, whole.symm, rfl, broken, broken'⟩

theorem Redrawn.lacks {p : Char → Bool} (redrawn : Redrawn relength (cutsFrom lineStart text) other)
    (free : lineStart = true → ∀ c, isIndent c = true → p c = false)
    (positive : ∀ n, 0 < n → 0 < relength n) (lacks : Lacks p text) : Lacks p other := by
  cases text with
  | nil =>
      rw [cutsFrom] at redrawn
      cases redrawn
      exact lacks
  | cons c rest =>
      obtain ⟨more, taken, -⟩ := scan_split lineStart c rest
      rw [cutsFrom_cons] at redrawn
      cases redrawn with
      | indentation kind indents length below =>
          have some := ne_nil_of_relength positive (by simp [taken]) length
          obtain ⟨d, run, rfl⟩ := List.exists_cons_of_ne_nil some
          rw [List.cons_append, lacks_cons]
          exact free (lineStart_of_indentation kind) d (indents d List.mem_cons_self)
      | kept solid below =>
          rw [taken, List.cons_append, lacks_cons]
          exact (lacks_cons p c rest).mp lacks

theorem Redrawn.step {c : Char} {rest : List Char} (positive : ∀ n, 0 < n → 0 < relength n)
    (redrawn : Redrawn relength (cutsFrom lineStart (c :: rest)) other) :
    ∃ cut left, (scan lineStart c rest).Redrawn relength cut ∧
      cutsFrom lineStart other =
        cut :: cutsFrom ((scan lineStart c rest).kind = .newLine) left ∧
      Redrawn relength (cutsFrom ((scan lineStart c rest).kind = .newLine)
        (rest.drop ((scan lineStart c rest).taken.length - 1))) left := by
  obtain ⟨more, taken, whole⟩ := scan_split lineStart c rest
  rw [cutsFrom_cons] at redrawn
  cases redrawn with
  | @indentation _ _ run left kind indents length below =>
      obtain rfl := lineStart_of_indentation kind
      have stays : decide ((scan true c rest).kind = .newLine) = false := by simp [kind]
      have lacks := lacks_dropWhile isIndent (c :: rest)
      rw [← drop_of_taken (taken_of_indentation kind)] at lacks
      have some := ne_nil_of_relength positive (by simp [taken]) length
      rw [stays] at below ⊢
      exact ⟨_, left, ⟨kind.symm, absurd kind, fun _ => length⟩,
        cutsFrom_indentation some indents (below.lacks nofun positive lacks), below⟩
  | @kept _ _ left solid below =>
      have kept {cut : Cut} (same : cut.bare = (scan lineStart c rest).bare) :
          (scan lineStart c rest).Redrawn relength cut :=
        ⟨(Cut.eq_of_bare same).1, fun _ => same, fun kind => absurd kind solid⟩
      by_cases newLine : (scan lineStart c rest).kind = .newLine
      · have lacks := lacks_dropWhile isNewLine (c :: rest)
        rw [← drop_of_taken (taken_of_newLine newLine)] at lacks
        have run : BreakRun (scan lineStart c rest).taken left := by
          refine ⟨by simp [taken], fun d member => ?_, ?_⟩
          · rw [taken_of_newLine newLine] at member
            exact List.mem_takeWhile_imp member
          · exact below.lacks (fun _ _ => isNewLine_of_isIndent) positive lacks
        have same : plain .newLine (scan lineStart c rest).taken = scan lineStart c rest := by
          rw [scan_newLine (kind_eq_newLine_iff.mp newLine)]
          rfl
        refine ⟨_, left, kept (congrArg Cut.bare same), ?_, below⟩
        rw [cutsFrom_run run, decide_eq_true newLine]
      · have full : isNewLine c = false := by simpa using mt kind_eq_newLine_iff.mpr newLine
        have again : (scan lineStart c (more ++ left)).bare = (scan lineStart c rest).bare := by
          by_cases goes : rest.drop ((scan lineStart c rest).taken.length - 1) = []
          · rw [goes, cutsFrom] at below
            cases below
            rw [← goes, ← whole]
          · exact scan_across full whole taken (below.sameLine (decide_eq_false newLine)) goes
        refine ⟨_, left, kept again, ?_, below⟩
        rw [taken, List.cons_append, cutsFrom_again taken again]

/-- A text whose indentations are drawn otherwise is cut in the same places. -/
theorem Redrawn.cuts (positive : ∀ n, 0 < n → 0 < relength n)
    (redrawn : Redrawn relength (cutsFrom lineStart text) other) :
    List.Forall₂ (Cut.Redrawn relength) (cutsFrom lineStart text) (cutsFrom lineStart other) := by
  induction lineStart, text using cutsFrom.induct generalizing other
  case case1 lineStart =>
    rw [cutsFrom] at redrawn
    cases redrawn
    rw [cutsFrom]
    exact .nil
  case case2 lineStart c rest cut ih =>
    obtain ⟨first, left, same, split, below⟩ := redrawn.step positive
    rw [cutsFrom_cons, split]
    exact .cons same (ih below)

end Lines

end WidgetTree.Lexeme
