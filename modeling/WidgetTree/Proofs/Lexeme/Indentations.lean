import WidgetTree.Proofs.Lexeme.Findings

/-!
Lines that are indented otherwise than the first. Main statements: `fault_of_indentation`, what is
found in an indentation goes by its first character alone, and `indentation_warned`, it gets one
warning or none, and that is the right number unless it begins as the first indentation of the file
does and goes on otherwise.
-/

namespace WidgetTree.Lexeme

open Text (Location)

def findingsOn (log : Log) (token : Token) : Log := log.filter (·.span = token.span)

/-- The indentation has a character in it that is not `expected`. -/
def Strays (expected : Char) (token : Token) : Prop := ∃ c ∈ token.value.toList, c ≠ expected

instance (expected : Char) (token : Token) : Decidable (Strays expected token) :=
  List.decidableBEx (· ≠ expected) token.value.toList

/-- That the indentation does not begin with `expected`. -/
def indentationWarning (text : String) (expected : Char) (token : Token) : Report :=
  Report.on text .warning (Fault.inconsistentIndentation expected).message token.span

section Findings

variable {text : String} {lexeme : Lexeme} {lexemes : List Lexeme}

theorem findingsOn_append (log more : Log) (token : Token) :
    findingsOn (log ++ more) token = findingsOn log token ++ findingsOn more token :=
  List.filter_append log more

theorem findingsOn_report? (text : String) (lexeme : Lexeme) (token : Token) :
    findingsOn (report? text lexeme).toList token =
      if lexeme.token.span = token.span then (report? text lexeme).toList else [] := by
  rw [report?]
  cases lexeme.fault with
  | none => simp [findingsOn]
  | some fault => simp [findingsOn, Report.on, List.filter_singleton]

theorem findingsOn_reports_nil {token : Token}
    (apart : ∀ other ∈ lexemes, other.token.span ≠ token.span) :
    findingsOn (reports text lexemes) token = [] := by
  refine List.filter_eq_nil_iff.mpr fun report member => ?_
  obtain ⟨other, listed, found⟩ := List.mem_filterMap.mp member
  obtain ⟨fault, -, rfl⟩ := Option.map_eq_some_iff.mp found
  exact fun same => apart other listed (of_decide_eq_true same)

theorem reports_cons (text : String) (lexeme : Lexeme) (lexemes : List Lexeme) :
    reports text (lexeme :: lexemes) = (report? text lexeme).toList ++ reports text lexemes := by
  rw [reports, reports, List.filterMap_cons]
  split
  · next none => rw [none]; rfl
  · next found => rw [found]; rfl

theorem findingsOn_reports (apart : lexemes.Pairwise fun a b => a.token.span ≠ b.token.span)
    (member : lexeme ∈ lexemes) :
    findingsOn (reports text lexemes) lexeme.token = (report? text lexeme).toList := by
  induction lexemes with
  | nil => cases member
  | cons first others ih =>
      obtain ⟨different, inner⟩ := List.pairwise_cons.mp apart
      rw [reports_cons, findingsOn_append, findingsOn_report?]
      rcases List.mem_cons.mp member with rfl | later
      · have none : findingsOn (reports text others) lexeme.token = [] :=
          findingsOn_reports_nil fun other listed => (different other listed).symm
        rw [if_pos rfl, none, List.append_nil]
      · rw [if_neg (different lexeme later), List.nil_append, ih inner later]

theorem row_pairwise (text : String) :
    (row text).Pairwise fun a b => a.token.span ≠ b.token.span := by
  refine (List.pairwise_map.mp (tokens_pairwise text)).imp ?_
  intro a b ahead same
  rw [Ahead, same] at ahead
  exact Nat.lt_irrefl _ ahead

theorem findingsOn_tokenize (member : lexeme ∈ row text) :
    findingsOn (tokenize text []).2 lexeme.token = (report? text lexeme).toList := by
  rw [tokenize_eq, List.nil_append]
  exact findingsOn_reports (row_pairwise text) member

end Findings

section Indentations

variable {place : Location} {indented : Indented} {chars : List Char} {text : String}
  {token : Token}

theorem isIndent_of_indentation {lineStart : Bool} {c : Char} {rest : List Char}
    (indentation : (scan lineStart c rest).kind = .indentation) :
    ∀ d ∈ (scan lineStart c rest).value, isIndent d = true := by
  have form := scan_scans lineStart c rest
  generalize scan lineStart c rest = cut at form indentation
  cases form with
  | indentation start indents => exact fun d member => List.mem_takeWhile_imp member
  | newLine | whiteSpace | lineComment | blockComment | openComment | string | openString
  | brokenString => cases indentation
  | word solid full settles =>
      exact absurd indentation settles.worded.kind_ne_indentation
  | @mark kind marks =>
      rw [show kind = .indentation from indentation] at marks
      cases mark?_category marks

theorem fault_of_indentation {lexeme : Lexeme} (member : lexeme ∈ rowFrom place indented chars)
    (indentation : lexeme.token.kind = .indentation) :
    ∃ c expected, lexeme.token.value.toList.head? = some c ∧
      indented.or (firstIndent? ((rowFrom place indented chars).map (·.token))) = some expected ∧
      lexeme.fault = if expected = c then none else some (.inconsistentIndentation expected) := by
  -- As for the severities, the state of the scan and the lexemes to come agree on the first one.
  induction place, indented, chars using rowFrom.induct with
  | case1 place indented =>
      rw [rowFrom_nil, List.mem_singleton] at member
      rw [member] at indentation
      cases indentation
  | case2 place indented c rest cut ih =>
      rw [rowFrom_cons] at member ⊢
      rw [List.map_cons, or_firstIndent?_lexemeAt]
      rcases List.mem_cons.mp member with rfl | later
      · have kind : (scan (place.column = 0) c rest).kind = .indentation := indentation
        have head := head?_of_indentation kind
        have sound := (scan_sound (place.column = 0) c rest).faultless (by rw [kind]; decide)
        rw [Indented.after, if_pos kind, Option.or_assoc, Option.some_or, lexemeAt,
          String.toList_ofList]
        cases indented with
        | none =>
            refine ⟨c, c, head, rfl, ?_⟩
            rw [indentationFault_none, sound, if_pos rfl]
        | some expected =>
            refine ⟨c, expected, head, rfl, ?_⟩
            rw [indentationFault.eq_def, kind]
      · exact ih later

theorem isIndent_of_mem (member : token ∈ tokens text)
    (indentation : token.kind = .indentation) : ∀ c ∈ token.value.toList, isIndent c = true := by
  rw [tokens_eq_placed, List.mem_append, List.mem_singleton] at member
  rcases member with inside | rfl
  · obtain ⟨lineStart, c, rest, place, rfl, -⟩ := exists_scan_under inside
    rw [Cut.token, String.toList_ofList]
    exact isIndent_of_indentation indentation
  · cases indentation

/-- An indentation of a text gets one warning where it begins otherwise than the first one, and
none where it begins as that does. So it is warned of just where a character in it differs, but for
the indentations that begin as the first one does and go on otherwise. -/
theorem indentation_warned (member : token ∈ tokens text)
    (indentation : token.kind = .indentation) :
    ∃ expected, firstIndent? (tokens text) = some expected ∧
      (∀ c ∈ token.value.toList, isIndent c = true) ∧
      findingsOn (tokenize text []).2 token =
        (if token.value.toList.head? = some expected then []
          else [indentationWarning text expected token]) ∧
      (((findingsOn (tokenize text []).2 token).length = 1 ↔ Strays expected token) ↔
        (Strays expected token → token.value.toList.head? ≠ some expected)) := by
  obtain ⟨lexeme, listed, rfl⟩ := List.mem_map.mp member
  obtain ⟨c, expected, head, first, fault⟩ := fault_of_indentation listed indentation
  rw [Option.none_or] at first
  have found : findingsOn (tokenize text []).2 lexeme.token =
      if lexeme.token.value.toList.head? = some expected then []
        else [indentationWarning text expected lexeme.token] := by
    rw [findingsOn_tokenize listed, report?, fault, head]
    by_cases same : expected = c
    · simp [same]
    · simp [same, Ne.symm same, indentationWarning, Fault.severity]
  refine ⟨expected, first, isIndent_of_mem member indentation, found, ?_⟩
  rw [found]
  by_cases same : lexeme.token.value.toList.head? = some expected
  · simp [same]
  · have strays : Strays expected lexeme.token := by
      refine ⟨c, List.mem_of_head? head, ?_⟩
      rintro rfl
      exact same head
    simp [same, strays]

/-- A tab and a space on a line are not warned of where the file is indented with tabs; a space and
a tab are. -/
theorem indentation_warned_mixed :
    (∃ token ∈ tokens "a\n\tb\n\t c", token.kind = .indentation ∧ Strays '\t' token ∧
      firstIndent? (tokens "a\n\tb\n\t c") = some '\t' ∧
      findingsOn (tokenize "a\n\tb\n\t c" []).2 token = []) ∧
    ∃ token ∈ tokens "a\n\tb\n \tc", token.kind = .indentation ∧ Strays '\t' token ∧
      (findingsOn (tokenize "a\n\tb\n \tc" []).2 token).length = 1 := by
  constructor
  · have member : (⟨.indentation, "\t ", ⟨⟨5, 3, 0⟩, ⟨7, 3, 2⟩⟩⟩ : Token) ∈
        tokens "a\n\tb\n\t c" := by
      decide +kernel
    obtain ⟨expected, first, -, found, -⟩ := indentation_warned member rfl
    have tab : firstIndent? (tokens "a\n\tb\n\t c") = some '\t' := by decide +kernel
    obtain rfl : '\t' = expected := Option.some.inj (tab.symm.trans first)
    exact ⟨_, member, rfl, by decide, tab, found⟩
  · have member : (⟨.indentation, " \t", ⟨⟨5, 3, 0⟩, ⟨7, 3, 2⟩⟩⟩ : Token) ∈
        tokens "a\n\tb\n \tc" := by
      decide +kernel
    obtain ⟨expected, first, -, found, -⟩ := indentation_warned member rfl
    have tab : firstIndent? (tokens "a\n\tb\n \tc") = some '\t' := by decide +kernel
    obtain rfl : '\t' = expected := Option.some.inj (tab.symm.trans first)
    exact ⟨_, member, rfl, by decide, by rw [found]; rfl⟩

end Indentations

end WidgetTree.Lexeme
