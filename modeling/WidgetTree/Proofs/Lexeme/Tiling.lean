import Mathlib.Data.List.Chain
import WidgetTree.Proofs.Lexeme.Places

/-!
A text as a row of cuts, one behind the other. Main statements: `tokens_eq_placed`, the tokens of a
text are its cuts laid out from its beginning, and `tokens_tile`, they cover the text without a gap
and hold what stands under them.
-/

namespace WidgetTree.Lexeme

open Text (Location Span slice)

def cutsFrom (lineStart : Bool) : List Char → List Cut
  | [] => []
  | c :: rest =>
      let cut := scan lineStart c rest
      cut :: cutsFrom (cut.kind = .newLine) (rest.drop (cut.taken.length - 1))
termination_by text => text.length
decreasing_by simp only [List.length_drop, List.length_cons]; omega

def Cut.token (cut : Cut) (place : Location) : Token :=
  ⟨cut.kind, String.ofList cut.value, ⟨place, cut.after place⟩⟩

def behind (place : Location) (cuts : List Cut) : Location :=
  cuts.foldl (fun place cut => cut.after place) place

def placed (place : Location) : List Cut → List Token
  | [] => []
  | cut :: more => cut.token place :: placed (cut.after place) more

def endToken (place : Location) : Token := ⟨.endOfFile, "", ⟨place, place⟩⟩

section Cuts

variable {lineStart : Bool} {c : Char} {rest : List Char}

theorem cutsFrom_cons (lineStart : Bool) (c : Char) (rest : List Char) :
    cutsFrom lineStart (c :: rest) = scan lineStart c rest ::
      cutsFrom ((scan lineStart c rest).kind = .newLine)
        (rest.drop ((scan lineStart c rest).taken.length - 1)) := by
  rw [cutsFrom]

theorem cutsFrom_of_scan {cut : Cut} {more : List Char} (taken : cut.taken = c :: more)
    (same : scan lineStart c (more ++ rest) = cut) :
    cutsFrom lineStart (c :: (more ++ rest)) =
      cut :: cutsFrom (cut.kind = .newLine) rest := by
  have done : (more ++ rest).drop (cut.taken.length - 1) = rest :=
    List.drop_left' (by rw [taken, List.length_cons, Nat.add_sub_cancel])
  rw [cutsFrom_cons, same, done]

theorem taken_cutsFrom (lineStart : Bool) (text : List Char) :
    (cutsFrom lineStart text).flatMap (·.taken) = text := by
  induction lineStart, text using cutsFrom.induct with
  | case1 lineStart =>
      rw [cutsFrom]
      rfl
  | case2 lineStart c rest cut ih =>
      rw [cutsFrom_cons, List.flatMap_cons, ih]
      exact scan_taken_append lineStart c rest

theorem unbroken_of_error (failed : (scan lineStart c rest).kind = .error)
    (goes : rest.drop ((scan lineStart c rest).taken.length - 1) ≠ []) :
    ∀ d ∈ (scan lineStart c rest).taken, isNewLine d = false := by
  have whole := scan_taken_append lineStart c rest
  have form := scan_scans lineStart c rest
  generalize scan lineStart c rest = cut at form whole failed goes
  have inString_unbroken : ∀ {quote d : Char}, inString quote d = true → isNewLine d = false := by
    intro quote d inside
    simp only [inString, Bool.and_eq_true, Bool.not_eq_true'] at inside
    exact inside.2
  have quote_unbroken : isQuote c = true → isNewLine c = false := by
    intro quotes
    simp only [isQuote, Bool.or_eq_true, decide_eq_true_eq] at quotes
    rcases quotes with rfl | rfl
    · rfl
    · rfl
  cases form with
  | newLine | indentation | whiteSpace | lineComment | blockComment | string => cases failed
  | mark marks =>
      obtain rfl := failed
      cases mark?_category marks
  | openComment | openString => exact absurd (List.self_eq_append_right.mp whole.symm) goes
  | word solid _ settles =>
      rw [settles.worded.taken_eq]
      exact List.forall_mem_cons.mpr ⟨solid, settles.unbroken⟩
  | brokenString quotes inside =>
      exact List.forall_mem_cons.mpr
        ⟨quote_unbroken quotes, fun d member => inString_unbroken (inside d member)⟩

theorem column_after_iff_of_left (place : Location)
    (goes : rest.drop ((scan lineStart c rest).taken.length - 1) ≠ []) :
    ((scan lineStart c rest).after place).column = 0 ↔
      (scan lineStart c rest).kind = .newLine := by
  by_cases failed : (scan lineStart c rest).kind = .error
  · have other : (scan lineStart c rest).kind ≠ .newLine := by rw [failed]; decide
    refine iff_of_false ?_ other
    obtain ⟨more, begins⟩ := (scan_continues lineStart c rest).1
    have some : (scan lineStart c rest).taken ≠ [] := by
      rw [← begins]
      exact List.cons_ne_nil c more
    have unbroken := unbroken_of_error failed goes _ (List.getLast_mem some)
    rw [after_of_kind_ne other]
    exact column_through_ne_zero (List.getLast?_eq_some_getLast some)
      (fun same => by rw [same] at unbroken; cases unbroken) place
  · exact column_after_eq_zero_iff failed place

end Cuts

/-- The tokens from a place on are the cuts, laid out from there, and the end of the file. -/
theorem rowFrom_eq_placed (place : Location) (indented : Indented) (text : List Char) :
    (rowFrom place indented text).map (·.token) =
      placed place (cutsFrom (place.column = 0) text) ++
        [endToken (behind place (cutsFrom (place.column = 0) text))] := by
  induction place, indented, text using rowFrom.induct with
  | case1 place indented =>
      rw [rowFrom_nil, cutsFrom]
      rfl
  | case2 place indented c rest cut ih =>
      rw [rowFrom_cons, List.map_cons, cutsFrom_cons, ih]
      -- Whether a line begins behind the cut plays a part only where text is left.
      by_cases done : rest.drop ((scan (place.column = 0) c rest).taken.length - 1) = []
      · rw [done, cutsFrom, cutsFrom]
        rfl
      · rw [decide_eq_decide.mpr (column_after_iff_of_left place done)]
        rfl

theorem tokens_eq_placed (text : String) :
    tokens text = placed Location.origin (cutsFrom true text.toList) ++
      [endToken (behind Location.origin (cutsFrom true text.toList))] :=
  rowFrom_eq_placed Location.origin none text.toList

section Places

variable {place : Location} {cuts more : List Cut}

theorem behind_cons (place : Location) (cut : Cut) (more : List Cut) :
    behind place (cut :: more) = behind (cut.after place) more := rfl

theorem index_behind (place : Location) (cuts : List Cut) :
    (behind place cuts).index = place.index + (cuts.flatMap (·.taken)).length := by
  induction cuts generalizing place with
  | nil => rfl
  | cons cut cuts ih =>
      rw [behind_cons, ih, index_after, List.flatMap_cons, List.length_append]
      omega

theorem behind_append (place : Location) (cuts more : List Cut) :
    behind place (cuts ++ more) = behind (behind place cuts) more :=
  List.foldl_append

theorem placed_append (place : Location) (cuts more : List Cut) :
    placed place (cuts ++ more) = placed place cuts ++ placed (behind place cuts) more := by
  induction cuts generalizing place with
  | nil => rfl
  | cons cut cuts ih => rw [List.cons_append, placed, placed, ih, List.cons_append, behind_cons]

theorem line_behind (place : Location) (cuts : List Cut) :
    (behind place cuts).line = place.line + (cuts.flatMap (·.taken)).count '\n' := by
  induction cuts generalizing place with
  | nil => rfl
  | cons cut cuts ih =>
      rw [behind_cons, ih, line_after, List.flatMap_cons, List.count_append]
      omega

def Adjoins (a b : Token) : Prop := a.span.stop = b.span.start

theorem start_of_head {first : Token}
    (head : first ∈ (placed place cuts ++ [endToken (behind place cuts)]).head?) :
    first.span.start = place := by
  cases cuts with
  | nil =>
      cases head
      rfl
  | cons cut more =>
      cases head
      rfl

theorem placed_isChain (place : Location) (cuts : List Cut) :
    (placed place cuts ++ [endToken (behind place cuts)]).IsChain Adjoins := by
  induction cuts generalizing place with
  | nil => exact List.isChain_singleton _
  | cons cut more ih =>
      rw [placed, List.cons_append, behind_cons]
      exact (ih (cut.after place)).cons fun first head => (start_of_head head).symm

theorem slice_eq {text : String} {span : Span} {front chars others : List Char}
    (split : text.toList = front ++ (chars ++ others)) (start : span.start.index = front.length)
    (stop : span.stop.index = front.length + chars.length) :
    (slice text span).toList = chars := by
  have taken : text.toList.take span.stop.index = front ++ chars := by
    rw [split, ← List.append_assoc]
    exact List.take_left' (by rw [stop, List.length_append])
  rw [slice, String.toList_ofList, taken]
  exact List.drop_left' start.symm

theorem slice_token {text : String} {cut : Cut} {front others : List Char}
    (split : text.toList = front ++ (cut.taken ++ others)) (start : place.index = front.length) :
    (slice text (cut.token place).span).toList = cut.taken :=
  slice_eq split start (by rw [Cut.token, index_after, start])

theorem slices_placed {text : String} {front others : List Char}
    (split : text.toList = front ++ (cuts.flatMap (·.taken) ++ others))
    (start : place.index = front.length) :
    (placed place cuts).flatMap (fun token => (slice text token.span).toList) =
      cuts.flatMap (·.taken) := by
  induction cuts generalizing place front with
  | nil => rfl
  | cons cut more ih =>
      rw [List.flatMap_cons, List.append_assoc] at split
      have next : (cut.after place).index = (front ++ cut.taken).length := by
        rw [index_after, start, List.length_append]
      rw [placed, List.flatMap_cons, List.flatMap_cons, slice_token split start,
        ih (by rw [split, List.append_assoc]) next]

theorem exists_cut_of_mem {token : Token} (member : token ∈ placed place cuts) :
    ∃ front cut others, cuts = front ++ cut :: others ∧ token = cut.token (behind place front) := by
  induction cuts generalizing place with
  | nil => cases member
  | cons cut more ih =>
      rcases List.mem_cons.mp member with rfl | later
      · exact ⟨[], cut, more, rfl, rfl⟩
      · obtain ⟨front, found, others, rfl, same⟩ := ih later
        exact ⟨cut :: front, found, others, rfl, same⟩

end Places

/-- How the value of a token stands in the text: as it is, unless a quote begins the token; a string
stands between two quotes of one kind, and what is left of one stands behind one. -/
inductive Spells (chars : List Char) (token : Token) : Prop
  | plain (unquoted : ∀ c ∈ chars.head?, isQuote c = false) (other : token.kind ≠ .string)
      (same : chars = token.value.toList)
  | string (kind : token.kind = .string) (quote : Char) (quotes : isQuote quote = true)
      (free : ∀ c ∈ token.value.toList, c ≠ quote ∧ isNewLine c = false)
      (same : chars = quote :: token.value.toList ++ [quote])
  | broken (kind : token.kind = .error) (quote : Char) (quotes : isQuote quote = true)
      (same : chars = quote :: token.value.toList)

/-- The tokens cover the text from one end to the other, and say what stands under them. -/
structure Tiles (text : String) (tokens : List Token) : Prop where
  begins : ∀ first ∈ tokens.head?, first.span.start = Location.origin
  adjoin : tokens.IsChain Adjoins
  ends : ∃ front last, tokens = front ++ [last] ∧
    (last.kind = .endOfFile ∧ last.span.stop.index = text.length) ∧
      ∀ token ∈ front, token.kind ≠ .endOfFile ∧ token.span.start.index < token.span.stop.index
  spells : ∀ token ∈ tokens, Spells (slice text token.span).toList token
  whole : String.join (tokens.map fun token => slice text token.span) = text

section Spelling

variable {lineStart : Bool} {c : Char} {rest : List Char}

theorem spells_quoted (quotes : isQuote c = true) (place : Location) :
    Spells (quoted c rest).taken ((quoted c rest).token place) := by
  have inside : ∀ d ∈ rest.takeWhile (inString c), d ≠ c ∧ isNewLine d = false := by
    intro d member
    simpa [inString] using List.mem_takeWhile_imp member
  rw [quoted]
  split
  · exact .broken rfl c quotes (by simp [Cut.token])
  · split
    · exact .string rfl c quotes (by simpa [Cut.token] using inside) (by simp [Cut.token])
    · exact .broken rfl c quotes (by simp [Cut.token])

theorem value_of_unquoted (lineStart : Bool) (unquoted : isQuote c = false) (rest : List Char) :
    (scan lineStart c rest).value = (scan lineStart c rest).taken ∧
      (scan lineStart c rest).kind ≠ .string := by
  have form := scan_scans lineStart c rest
  generalize scan lineStart c rest = cut at form
  cases form with
  | newLine | indentation | whiteSpace | lineComment | blockComment | openComment =>
      exact ⟨rfl, by simp [plain]⟩
  | mark marks => exact ⟨rfl, by rintro rfl; cases mark?_category marks⟩
  | string quotes | openString quotes | brokenString quotes =>
      rw [unquoted] at quotes
      cases quotes
  | word _ _ settles =>
      have worded := settles.worded
      generalize scan lineStart c rest = cut at worded
      cases worded with
      | sound word => exact ⟨rfl, by rintro rfl; cases word⟩
      | faulty => exact ⟨rfl, by simp⟩

theorem spells_scan (lineStart : Bool) (c : Char) (rest : List Char) (place : Location) :
    Spells (scan lineStart c rest).taken ((scan lineStart c rest).token place) := by
  cases quotes : isQuote c with
  | true =>
      rw [scan_of_quote quotes]
      exact spells_quoted quotes place
  | false =>
      obtain ⟨value, other⟩ := value_of_unquoted lineStart quotes rest
      refine .plain ?_ other ?_
      · obtain ⟨more, begins⟩ := (scan_continues lineStart c rest).1
        rw [← begins]
        rintro _ ⟨⟩
        exact quotes
      · rw [Cut.token, String.toList_ofList, value]

theorem exists_scan_of_mem {cut : Cut} {text : List Char}
    (member : cut ∈ cutsFrom lineStart text) :
    ∃ lineStart c rest, cut = scan lineStart c rest := by
  induction lineStart, text using cutsFrom.induct with
  | case1 lineStart =>
      rw [cutsFrom] at member
      cases member
  | case2 lineStart c rest first ih =>
      rw [cutsFrom_cons] at member
      rcases List.mem_cons.mp member with rfl | later
      · exact ⟨lineStart, c, rest, rfl⟩
      · exact ih later

end Spelling

section Texts

variable {text : String} {token : Token}

theorem exists_scan_under
    (member : token ∈ placed Location.origin (cutsFrom true text.toList)) :
    ∃ lineStart c rest place, token = (scan lineStart c rest).token place ∧
      (slice text token.span).toList = (scan lineStart c rest).taken := by
  obtain ⟨front, cut, others, cuts, same⟩ := exists_cut_of_mem member
  obtain ⟨lineStart, c, rest, rfl⟩ : ∃ lineStart c rest, cut = scan lineStart c rest := by
    apply exists_scan_of_mem
    rw [cuts]
    exact List.mem_append_right front List.mem_cons_self
  refine ⟨lineStart, c, rest, _, same, ?_⟩
  rw [same]
  apply slice_token
  · rw [← taken_cutsFrom true text.toList, cuts, List.flatMap_append, List.flatMap_cons]
  · rw [index_behind, Location.origin, Nat.zero_add]

theorem slice_endToken (text : String) (place : Location) :
    (slice text (endToken place).span).toList = [] := by
  simp [endToken, slice]

theorem spells_token (member : token ∈ tokens text) :
    Spells (slice text token.span).toList token := by
  rw [tokens_eq_placed, List.mem_append, List.mem_singleton] at member
  rcases member with inside | rfl
  · obtain ⟨lineStart, c, rest, place, rfl, under⟩ := exists_scan_under inside
    rw [under]
    exact spells_scan lineStart c rest place
  · rw [slice_endToken]
    exact .plain (by simp) (by simp [endToken]) rfl

theorem filled_token (member : token ∈ placed Location.origin (cutsFrom true text.toList)) :
    token.kind ≠ .endOfFile ∧ token.span.start.index < token.span.stop.index := by
  obtain ⟨lineStart, c, rest, place, rfl, -⟩ := exists_scan_under member
  exact ⟨(scan_sound lineStart c rest).goes, index_lt_after place lineStart c rest⟩

theorem join_slices (text : String) :
    String.join ((tokens text).map fun token => slice text token.span) = text := by
  have whole : text.toList = [] ++ ((cutsFrom true text.toList).flatMap (·.taken) ++ []) := by
    rw [taken_cutsFrom, List.nil_append, List.append_nil]
  rw [← String.toList_inj, String.toList_join, List.flatMap_map, tokens_eq_placed,
    List.flatMap_append, List.flatMap_singleton, slice_endToken, List.append_nil,
    slices_placed whole rfl, taken_cutsFrom]

/-- Every text is tiled by its tokens. -/
theorem tokens_tile (text : String) : Tiles text (tokens text) where
  begins first head := by
    rw [tokens_eq_placed] at head
    exact start_of_head head
  adjoin := by
    rw [tokens_eq_placed]
    exact placed_isChain _ _
  ends := by
    refine ⟨_, _, tokens_eq_placed text, ⟨rfl, ?_⟩, fun token => filled_token⟩
    rw [endToken, index_behind, taken_cutsFrom, Location.origin, Nat.zero_add,
      String.length_toList]
  spells token := spells_token
  whole := join_slices text

end Texts

end WidgetTree.Lexeme
