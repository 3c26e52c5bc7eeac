import WidgetTree.Proofs.Outline.Pieces

namespace WidgetTree.Outline

open Grammar (Piece Solid)
open Lexeme
open Text (Location isBlank)
open WidgetTree.Tree (quoteFor)

def joined (cuts : List Cut) : List Char := cuts.flatMap (·.taken)

def Recurs (lineStart : Bool) (cut : Cut) (follow : List Char) : Prop :=
  ∃ c more, cut.taken = c :: more ∧ scan lineStart c (more ++ follow) = cut

def Begins (cuts : List Cut) : Prop :=
  ∃ cut others c chars, cuts = cut :: others ∧ Solid cut.kind ∧ cut.taken = c :: chars ∧
    isBlank c = false

/-- The cut is well formed in front of the others; an indentation is one of tabs, and something
stands behind it. -/
structure Joins (lineStart : Bool) (cut : Cut) (more : List Cut) : Prop where
  faultless : cut.fault = none
  tabbed : cut.kind = .indentation → cut.taken.head? = some '\t' ∧ Begins more
  again : Recurs lineStart cut (joined more)

def Stands : Bool → List Cut → Prop
  | _, [] => True
  | lineStart, cut :: more => Joins lineStart cut more ∧ Stands (cut.kind = .newLine) more

theorem Joins.tabbed_faultless {lineStart : Bool} {cut : Cut} {more : List Cut} {c : Char}
    {rest : List Char} {indented : Indented} (joins : Joins lineStart cut more)
    (taken : cut.taken = c :: rest) (tabbed : ∀ d, indented = some d → d = '\t') :
    indentationFault cut c indented = none := by
  by_cases indentation : cut.kind = .indentation
  · have first := (joins.tabbed indentation).1
    rw [taken, List.head?_cons, Option.some.injEq] at first
    cases indented with
    | none => rw [indentationFault_none, joins.faultless]
    | some expected =>
        rw [indentationFault.eq_def, indentation]
        simp only [tabbed expected rfl, first, if_true]
  · rw [indentationFault_of_kind_ne c indented indentation, joins.faultless]

theorem Joins.tabbed_after {lineStart : Bool} {cut : Cut} {more : List Cut} {c : Char}
    {rest : List Char} {indented : Indented} (joins : Joins lineStart cut more)
    (taken : cut.taken = c :: rest) (tabbed : ∀ d, indented = some d → d = '\t') :
    ∀ d, indented.after cut c = some d → d = '\t' := by
  intro d found
  rw [Indented.after] at found
  split at found
  · next indentation =>
      have first := (joins.tabbed indentation).1
      rw [taken, List.head?_cons, Option.some.injEq] at first
      cases indented with
      | none => exact (Option.some.inj found).symm.trans first
      | some expected => exact tabbed d found
  · exact tabbed d found

theorem lexemeAt_form {place : Location} {indented : Indented} {c : Char} {rest : List Char}
    {cut : Cut} (same : scan (place.column = 0) c rest = cut) :
    tokenForm (lexemeAt place indented c rest).token = cutForm cut := by
  have length : (cut.after place).index - place.index = cut.taken.length := by
    rw [index_after]
    omega
  simp only [tokenForm, cutForm, lexemeAt, Text.Span.length, same, length]

theorem rowFrom_of_stands {lineStart : Bool} {cuts : List Cut} (stands : Stands lineStart cuts)
    (place : Location) (indented : Indented) (start : decide (place.column = 0) = lineStart)
    (tabbed : ∀ c, indented = some c → c = '\t') :
    ∃ front last, rowFrom place indented (joined cuts) = front ++ [lexemeAtEnd last] ∧
      front.map (tokenForm ·.token) = cuts.map cutForm ∧ ∀ lexeme ∈ front, lexeme.fault = none := by
  induction cuts generalizing lineStart place indented with
  | nil => exact ⟨[], place, rowFrom_nil place indented, rfl, by simp⟩
  | cons cut more ih =>
      rcases stands with ⟨joins, others⟩
      obtain ⟨c, rest, taken, again⟩ := joins.again
      rw [← start] at again
      have whole : joined (cut :: more) = c :: (rest ++ joined more) := by
        rw [joined, List.flatMap_cons, taken]
        rfl
      have left : (rest ++ joined more).drop (cut.taken.length - 1) = joined more := by
        rw [taken]
        exact List.drop_left
      have next : decide ((cut.after place).column = 0) = decide (cut.kind = .newLine) := by
        have sound := scan_sound (place.column = 0) c (rest ++ joined more)
        have wellFormed : (scan (place.column = 0) c (rest ++ joined more)).kind ≠ .error := by
          intro failed
          obtain ⟨fault, found, -⟩ := sound.faulty failed
          rw [again, joins.faultless] at found
          cases found
        have starts := column_after_eq_zero_iff wellFormed place
        rw [again] at starts
        exact decide_eq_decide.mpr starts
      obtain ⟨front, last, row, forms, faultless⟩ := ih others (cut.after place)
        (indented.after cut c) next (joins.tabbed_after taken tabbed)
      refine ⟨lexemeAt place indented c (rest ++ joined more) :: front, last, ?_, ?_, ?_⟩
      · rw [whole, rowFrom_cons, again, left, row, List.cons_append]
      · rw [List.map_cons, List.map_cons, forms, lexemeAt_form again]
      · intro lexeme member
        rcases List.mem_cons.mp member with rfl | member
        · rw [← joins.tabbed_faultless taken tabbed, lexemeAt, again]
        · exact faultless lexeme member

theorem row_of_stands {text : String} {cuts : List Cut} (stands : Stands true cuts)
    (same : text.toList = joined cuts) :
    ∃ front last, row text = front ++ [lexemeAtEnd last] ∧
      front.map (tokenForm ·.token) = cuts.map cutForm ∧ ∀ lexeme ∈ front, lexeme.fault = none := by
  rw [row, same]
  exact rowFrom_of_stands stands Location.origin none rfl (by simp)

section Steps

variable {lineStart : Bool} {more : List Cut}

theorem stands_solid {cut : Cut} (faultless : cut.fault = none) (solid : Solid cut.kind)
    (again : Recurs lineStart cut (joined more)) (stands : Stands false more) :
    Stands lineStart (cut :: more) := by
  have other : cut.kind ≠ .newLine := solid.ne (.inl rfl)
  have unindented : cut.kind ≠ .indentation := solid.ne (.inl rfl)
  refine ⟨⟨faultless, fun indentation => absurd indentation unindented, again⟩, ?_⟩
  rwa [decide_eq_false other]

section Marks

variable {c : Char} {kind : Kind}

theorem stands_mark (marks : mark? c = some kind) (stands : Stands false more) :
    Stands lineStart (plain kind [c] :: more) :=
  stands_solid rfl (.inr (.inr (mark?_category marks)))
    ⟨c, [], rfl, scan_of_mark? marks lineStart _⟩ stands

theorem begins_mark (marks : mark? c = some kind) : Begins (plain kind [c] :: more) :=
  ⟨_, more, c, [], rfl, .inr (.inr (mark?_category marks)), rfl, mark?_full marks⟩

end Marks

section Words

variable {kind : Kind} {value : String}

theorem solid_of_isWordKind (word : isWordKind kind = true) : Solid kind :=
  (category_of_isWordKind word).imp_right .inl

theorem stands_word (reads : Reads kind value) (word : isWordKind kind = true)
    (closes : Closes (joined more)) (stands : Stands false more) :
    Stands lineStart (wordCut value :: more) := by
  rw [wordCut_of_reads reads]
  rcases reads with ⟨c, chars, split, -, again⟩
  exact stands_solid rfl (solid_of_isWordKind word)
    ⟨c, chars, split, again lineStart _ closes⟩ stands

theorem begins_word (reads : Reads kind value) (word : isWordKind kind = true) :
    Begins (wordCut value :: more) := by
  rw [wordCut_of_reads reads]
  rcases reads with ⟨c, chars, split, full, -⟩
  exact ⟨_, more, c, chars, rfl, solid_of_isWordKind word, split, full⟩

theorem inString_quoteFor (quotable : Quotable value) :
    ∀ d ∈ value.toList, inString (quoteFor value) d = true := by
  rcases quotable with ⟨quote, quotes, inside⟩
  intro d member
  have own := inside d member
  rw [quoteFor]
  split
  · next holds =>
      have other := inside '\x27' (List.contains_iff_mem.mp holds)
      have double : quote = '\x22' := by
        simp only [isQuote, Bool.or_eq_true, decide_eq_true_eq] at quotes
        apply quotes.resolve_left
        intro same
        subst same
        simp [inString] at other
      rwa [← double]
  · next lacks =>
      have single : d ≠ '\x27' := by
        intro same
        subst same
        exact lacks (List.contains_iff_mem.mpr member)
      simp only [inString, Bool.and_eq_true, decide_eq_true_eq] at own ⊢
      exact ⟨single, own.2⟩

theorem quoteFor_cases (value : String) : quoteFor value = '\x22' ∨ quoteFor value = '\x27' := by
  rw [quoteFor]
  split
  · exact .inl rfl
  · exact .inr rfl

theorem scan_quoteFor (value : String) (lineStart : Bool) (rest : List Char) :
    scan lineStart (quoteFor value) rest = quoted (quoteFor value) rest := by
  rcases quoteFor_cases value with quote | quote
  all_goals
    rw [quote]
    exact scan_quoted rfl (by decide) rfl (by decide) (by decide) rfl

theorem stands_string (quotable : Quotable value) (stands : Stands false more) :
    Stands lineStart (stringCut value :: more) := by
  refine stands_solid rfl (.inl rfl) ⟨_, _, rfl, ?_⟩ stands
  rw [scan_quoteFor]
  exact quoted_of_inside (inString_quoteFor quotable) _

theorem begins_string (value : String) : Begins (stringCut value :: more) := by
  have full : isBlank (quoteFor value) = false := by
    rcases quoteFor_cases value with quote | quote
    all_goals
      rw [quote]
      decide
  exact ⟨_, more, _, _, rfl, .inl rfl, rfl, full⟩

end Words

section Layout

theorem Begins.lacks {p : Char → Bool} (begins : Begins more)
    (blank : ∀ c, p c = true → isBlank c = true) : Lacks p (joined more) := by
  rcases begins with ⟨cut, others, c, chars, rfl, -, taken, full⟩
  rw [joined, List.flatMap_cons, taken, List.cons_append, lacks_cons]
  cases own : p c with
  | false => rfl
  | true => exact absurd (blank c own) (by simp [full])

theorem isSpace_blank (c : Char) (space : isSpace c = true) : isBlank c = true :=
  (Bool.and_eq_true_iff.mp space).1

theorem isIndent_blank (c : Char) (indent : isIndent c = true) : isBlank c = true := by
  simp only [isIndent, Bool.or_eq_true, decide_eq_true_eq] at indent
  rcases indent with rfl | rfl
  all_goals decide

theorem stands_space (begins : Begins more) (stands : Stands false more) :
    Stands false (plain .whiteSpace [' '] :: more) := by
  refine ⟨⟨rfl, by simp [plain], ' ', [], rfl, ?_⟩, stands⟩
  have run : (' ' :: joined more).takeWhile isSpace = [' '] := by
    rw [List.takeWhile_cons_of_pos (by decide), takeWhile_of_lacks (begins.lacks isSpace_blank)]
  rw [List.nil_append, scan, if_neg (by decide), if_pos (by decide), if_neg (by decide), run]

theorem stands_break (solid : Lacks isNewLine (joined more)) (stands : Stands true more) :
    Stands lineStart (plain .newLine ['\n'] :: more) := by
  refine ⟨⟨rfl, by simp [plain], '\n', [], rfl, ?_⟩, stands⟩
  have run : ('\n' :: joined more).takeWhile isNewLine = ['\n'] := by
    rw [List.takeWhile_cons_of_pos (by decide), takeWhile_of_lacks solid]
  rw [List.nil_append, scan, if_pos (by decide), run]

theorem stands_tabs {depth : Nat} (begins : Begins more) (stands : Stands false more) :
    Stands true (plain .indentation (List.replicate (depth + 1) '\t') :: more) := by
  have tabs : ∀ c ∈ List.replicate (depth + 1) '\t', isIndent c = true := by
    intro c member
    rw [List.eq_of_mem_replicate member]
    decide
  refine ⟨⟨rfl, fun _ => ⟨rfl, begins⟩, '\t', List.replicate depth '\t', rfl, ?_⟩, stands⟩
  have run : (('\t' :: List.replicate depth '\t') ++ joined more).takeWhile isIndent =
      List.replicate (depth + 1) '\t' := by
    rw [← List.replicate_succ, List.takeWhile_append_of_pos tabs,
      takeWhile_of_lacks (begins.lacks isIndent_blank), List.append_nil]
  rw [scan, if_neg (by decide), if_pos (by decide), if_pos (by decide), ← List.cons_append, run]

end Layout

end Steps

end WidgetTree.Outline
