import WidgetTree.Lexeme.Stream
import WidgetTree.Proofs.Lexeme.Scans

namespace WidgetTree.Lexeme

open Text (Location)

structure Cut.Sound (cut : Cut) : Prop where
  goes : cut.kind ≠ .endOfFile
  faulty : cut.kind = .error → ∃ fault, cut.fault = some fault ∧ fault.severity.isError = true
  faultless : cut.kind ≠ .error → cut.fault = none

theorem plain_sound {kind : Kind} (taken : List Char) (goes : kind ≠ .endOfFile)
    (wellFormed : kind ≠ .error) : (plain kind taken).Sound :=
  ⟨goes, fun failed => absurd failed wellFormed, fun _ => rfl⟩

theorem Worded.sound_cut {taken : List Char} {cut : Cut} (worded : Worded taken cut) :
    cut.Sound := by
  cases worded with
  | @sound kind word =>
      exact plain_sound taken (by rintro rfl; cases word) (by rintro rfl; cases word)
  | faulty serious =>
      exact ⟨by simp, fun _ => ⟨_, rfl, serious⟩, fun wellFormed => absurd rfl wellFormed⟩

theorem mark?_category {c : Char} {kind : Kind} (marks : mark? c = some kind) :
    kind.category = .punctuation := by
  rw [mark?.eq_def] at marks
  split at marks
  all_goals cases marks
  all_goals rfl

theorem scan_sound (lineStart : Bool) (c : Char) (rest : List Char) :
    (scan lineStart c rest).Sound := by
  have form := scan_scans lineStart c rest
  generalize scan lineStart c rest = cut at form
  cases form with
  | newLine | indentation | whiteSpace | lineComment | blockComment =>
      exact plain_sound _ (by simp) (by simp)
  | openComment | openString | brokenString =>
      exact ⟨by simp, fun _ => ⟨_, rfl, rfl⟩, fun wellFormed => absurd rfl wellFormed⟩
  | word _ _ settles => exact settles.worded.sound_cut
  | string => exact ⟨by simp, by simp, fun _ => rfl⟩
  | mark marks =>
      have category := mark?_category marks
      exact plain_sound _ (by rintro rfl; cases category) (by rintro rfl; cases category)

section Places

variable {cut : Cut} {place : Location}

theorem index_after (cut : Cut) (place : Location) :
    (cut.after place).index = place.index + cut.taken.length := by
  rw [Cut.after.eq_def]
  split <;> exact Location.index_through place cut.taken

theorem line_through (place : Location) (chars : List Char) :
    (place.through chars).line = place.line + chars.count '\n' := by
  induction chars generalizing place with
  | nil => rfl
  | cons c chars ih =>
      have step : place.through (c :: chars) = (place.next c).through chars := rfl
      rw [step, ih, Location.next, List.count_cons]
      split
      · next breaks => simp only [breaks, beq_self_eq_true, if_true]; omega
      · next goes => simp [goes]

theorem line_after (cut : Cut) (place : Location) :
    (cut.after place).line = place.line + cut.taken.count '\n' := by
  rw [← line_through, Cut.after.eq_def]
  split <;> rfl

theorem after_of_kind_ne (other : cut.kind ≠ .newLine) :
    cut.after place = place.through cut.taken := by
  rw [Cut.after.eq_def]
  split
  · next newLine => exact absurd newLine other
  · rfl

theorem column_through_ne_zero {chars : List Char} {d : Char} (last : chars.getLast? = some d)
    (goes : d ≠ '\n') (place : Location) : (place.through chars).column ≠ 0 := by
  obtain ⟨front, rfl⟩ := List.getLast?_eq_some_iff.mp last
  rw [Location.through, List.foldl_append, List.foldl_cons, List.foldl_nil, Location.next,
    if_neg goes]
  exact Nat.succ_ne_zero _

theorem scan_last {lineStart : Bool} {c : Char} {rest : List Char}
    (solid : (scan lineStart c rest).kind ≠ .newLine)
    (sound : (scan lineStart c rest).kind ≠ .error) :
    ∃ d, (scan lineStart c rest).taken.getLast? = some d ∧ d ≠ '\n' := by
  have form := scan_scans lineStart c rest
  have begins := (scan_continues lineStart c rest).1
  generalize scan lineStart c rest = cut at form begins solid sound
  have clean : (∀ d ∈ cut.taken, d ≠ '\n') → ∃ d, cut.taken.getLast? = some d ∧ d ≠ '\n' := by
    intro unbroken
    cases found : cut.taken.getLast? with
    | none =>
        rw [List.getLast?_eq_none_iff.mp found] at begins
        cases List.prefix_nil.mp begins
    | some d => exact ⟨d, rfl, unbroken d (List.mem_of_getLast? found)⟩
  have ofClass : ∀ {p : Char → Bool}, p '\n' = false → ∀ d ∈ (c :: rest).takeWhile p, d ≠ '\n' := by
    rintro p breaks d member rfl
    rw [List.mem_takeWhile_imp member] at breaks
    cases breaks
  cases form with
  | newLine => exact absurd rfl solid
  | openComment | openString | brokenString => exact absurd rfl sound
  | indentation => exact clean (ofClass (p := isIndent) (by decide))
  | whiteSpace => exact clean (ofClass (p := isSpace) (by decide))
  | lineComment => exact clean (ofClass (p := (!isNewLine ·)) (by decide))
  | blockComment body => exact ⟨'!', by simp [plain], by decide⟩
  | @word more breaks _ settles =>
      apply clean
      intro d member
      have unbroken : isNewLine d = false := by
        rw [settles.worded.taken_eq] at member
        rcases List.mem_cons.mp member with rfl | inside
        · exact breaks
        · exact settles.unbroken d inside
      intro same
      subst same
      cases unbroken
  | string quotes => exact ⟨c, List.getLast?_concat, by rintro rfl; cases quotes⟩
  | mark marks => exact ⟨c, rfl, by rintro rfl; cases marks⟩

theorem column_after_eq_zero_iff {lineStart : Bool} {c : Char} {rest : List Char}
    (sound : (scan lineStart c rest).kind ≠ .error) (place : Location) :
    ((scan lineStart c rest).after place).column = 0 ↔
      (scan lineStart c rest).kind = .newLine := by
  constructor
  · intro start
    by_contra solid
    obtain ⟨d, last, goes⟩ := scan_last solid sound
    rw [after_of_kind_ne solid] at start
    exact column_through_ne_zero last goes place start
  · intro newLine
    rw [Cut.after, newLine]

end Places

def lexemeAt (place : Location) (indented : Indented) (c : Char) (rest : List Char) : Lexeme :=
  let cut := scan (place.column = 0) c rest
  ⟨⟨cut.kind, String.ofList cut.value, ⟨place, cut.after place⟩⟩, indentationFault cut c indented⟩

def lexemeAtEnd (place : Location) : Lexeme := ⟨⟨.endOfFile, "", ⟨place, place⟩⟩, none⟩

theorem rowFrom_nil (place : Location) (indented : Indented) :
    rowFrom place indented [] = [lexemeAtEnd place] := by
  rw [rowFrom]
  rfl

theorem rowFrom_cons (place : Location) (indented : Indented) (c : Char) (rest : List Char) :
    rowFrom place indented (c :: rest) = lexemeAt place indented c rest ::
      rowFrom ((scan (place.column = 0) c rest).after place)
        (indented.after (scan (place.column = 0) c rest) c)
        (rest.drop ((scan (place.column = 0) c rest).taken.length - 1)) := by
  rw [rowFrom]
  rfl

theorem rowFrom_eq_append (place : Location) (indented : Indented) (text : List Char) :
    ∃ front last, rowFrom place indented text = front ++ [lexemeAtEnd last] ∧
      ∀ lexeme ∈ front, ∃ place indented c rest, lexeme = lexemeAt place indented c rest := by
  induction place, indented, text using rowFrom.induct with
  | case1 place indented => exact ⟨[], place, rowFrom_nil place indented, by simp⟩
  | case2 place indented c rest cut ih =>
      rcases ih with ⟨front, last, row, cuts⟩
      refine ⟨lexemeAt place indented c rest :: front, last, ?_, ?_⟩
      · rw [rowFrom_cons, List.cons_append, ← row]
      · intro lexeme member
        rcases List.mem_cons.mp member with rfl | member
        · exact ⟨place, indented, c, rest, rfl⟩
        · exact cuts lexeme member

theorem lexemeAt_goes (place : Location) (indented : Indented) (c : Char) (rest : List Char) :
    (lexemeAt place indented c rest).token.kind ≠ .endOfFile :=
  (scan_sound _ c rest).goes

theorem tokens_eq_append (text : String) :
    ∃ front last, tokens text = front ++ [last] ∧ last.kind = .endOfFile ∧
      ∀ token ∈ front, token.kind ≠ .endOfFile := by
  obtain ⟨front, last, row, cuts⟩ := rowFrom_eq_append Location.origin none text.toList
  refine ⟨front.map (·.token), (lexemeAtEnd last).token, ?_, rfl, ?_⟩
  · rw [tokens, Lexeme.row, row, List.map_append]
    rfl
  · intro token member
    obtain ⟨lexeme, inside, rfl⟩ := List.mem_map.mp member
    obtain ⟨place, indented, c, rest, rfl⟩ := cuts lexeme inside
    exact lexemeAt_goes place indented c rest

/-- A fault is serious if it refuses the text; others are only remarks. -/
def HasSeriousFault (lexeme : Lexeme) : Prop :=
  ∃ fault, lexeme.fault = some fault ∧ fault.severity.isError = true

theorem indentationFault_mild {cut : Cut} {first expected : Char}
    (indentation : cut.kind = .indentation) {fault : Fault}
    (found : indentationFault cut first (some expected) = some fault) :
    fault.severity.isError = false := by
  rw [indentationFault.eq_def, indentation] at found
  simp only at found
  split at found
  · cases found
  · cases found
    rfl

theorem indentationFault_of_kind_ne {cut : Cut} (first : Char) (indented : Indented)
    (other : cut.kind ≠ .indentation) : indentationFault cut first indented = cut.fault := by
  rw [indentationFault]
  exact fun _ indentation => absurd indentation other

theorem indentationFault_none (cut : Cut) (first : Char) :
    indentationFault cut first none = cut.fault := by
  rw [indentationFault]
  simp

theorem not_serious_of_indentation {cut : Cut} {first : Char} {indented : Indented}
    (sound : cut.Sound) (indentation : cut.kind = .indentation) {fault : Fault}
    (found : indentationFault cut first indented = some fault) :
    fault.severity.isError = false := by
  cases indented with
  | none =>
      rw [indentationFault_none, sound.faultless (by rw [indentation]; decide)] at found
      cases found
  | some expected => exact indentationFault_mild indentation found

theorem lexemeAt_error_iff (place : Location) (indented : Indented) (c : Char)
    (rest : List Char) :
    (lexemeAt place indented c rest).token.kind = .error ↔
      HasSeriousFault (lexemeAt place indented c rest) := by
  have sound := scan_sound (place.column = 0) c rest
  by_cases indentation : (scan (place.column = 0) c rest).kind = .indentation
  · constructor
    · intro failed
      exact absurd (indentation.symm.trans failed) (by simp)
    · intro faulty
      rcases faulty with ⟨fault, found, serious⟩
      rw [not_serious_of_indentation sound indentation found] at serious
      cases serious
  · have same : (lexemeAt place indented c rest).fault = (scan (place.column = 0) c rest).fault :=
      indentationFault_of_kind_ne c indented indentation
    rw [HasSeriousFault, same]
    constructor
    · exact sound.faulty
    · intro faulty
      rcases faulty with ⟨fault, found, -⟩
      by_contra wellFormed
      rw [sound.faultless wellFormed] at found
      cases found

theorem error_iff_serious {text : String} {lexeme : Lexeme} (member : lexeme ∈ row text) :
    lexeme.token.kind = .error ↔ HasSeriousFault lexeme := by
  obtain ⟨front, last, split, cuts⟩ := rowFrom_eq_append Location.origin none text.toList
  rw [row, split, List.mem_append, List.mem_singleton] at member
  rcases member with inside | rfl
  · obtain ⟨place, indented, c, rest, rfl⟩ := cuts lexeme inside
    exact lexemeAt_error_iff place indented c rest
  · exact ⟨by simp [lexemeAtEnd], by rintro ⟨fault, found, -⟩; cases found⟩

end WidgetTree.Lexeme
