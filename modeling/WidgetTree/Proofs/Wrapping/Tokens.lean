import WidgetTree.Proofs.Lexeme.Sorted
import WidgetTree.Proofs.Outline.Pieces

namespace WidgetTree.Wrapping

open Lexeme
open Outline (Reads reads_of_mem)
open Text (Location Span isBlank)

/-- All of a document that stands in front of its view. -/
def header : String := "Stateless .viewModel: Vm, .view: "

def wrap (view : String) : String := header ++ view

/-- The view begins with no blank and no comment. -/
def Begins (view : String) : Prop := ∀ c ∈ view.toList.head?, isBlank c = false ∧ c ≠ '!'

def breaksLine (token : Token) : Bool :=
  token.kind = .newLine || token.span.start.line < token.span.stop.line

def lineEnd? (row : List Token) : Option Nat := (row.find? breaksLine).map (·.span.stop.index)

def shifted (columns : Nat) (place : Location) : Location :=
  ⟨header.length + place.index, place.line, columns + place.column⟩

/-- A place behind the header; only those on the line of the header move to the right. -/
def moved (lineEnd : Option Nat) (place : Location) : Location :=
  shifted (if lineEnd.any (· ≤ place.index) then 0 else header.length) place

def movedToken (lineEnd : Option Nat) (token : Token) : Token :=
  ⟨token.kind, token.value, ⟨moved lineEnd token.span.start, moved lineEnd token.span.stop⟩⟩

/-- Where a place of the view lies in the document. -/
def within (view : String) : Location → Location := moved (lineEnd? (tokens view))

section Places

variable {cut : Cut} {cuts : List Cut} {lineEnd : Option Nat} {place : Location}

theorem through_shifted (columns : Nat) (place : Location) (chars : List Char) :
    (shifted columns place).through chars =
      shifted (if '\n' ∈ chars then 0 else columns) (place.through chars) := by
  induction chars generalizing place columns with
  | nil => rfl
  | cons c chars ih =>
      have step : (shifted columns place).next c =
          shifted (if c = '\n' then 0 else columns) (place.next c) := by
        rw [Location.next, Location.next]
        split
        · rfl
        · rfl
      calc
        (shifted columns place).through (c :: chars) =
            ((shifted columns place).next c).through chars := rfl
        _ = shifted (if '\n' ∈ chars then 0 else if c = '\n' then 0 else columns)
            ((place.next c).through chars) := by rw [step, ih]
        _ = shifted (if '\n' ∈ c :: chars then 0 else columns) (place.through (c :: chars)) := by
          congr 1
          by_cases feed : c = '\n'
          · simp [feed]
          · simp [feed, Ne.symm feed]

theorem breaksLine_token :
    breaksLine (cut.token place) = true ↔ cut.kind = .newLine ∨ '\n' ∈ cut.taken := by
  rw [breaksLine, Bool.or_eq_true, decide_eq_true_eq, decide_eq_true_eq]
  change _ ∨ place.line < (cut.after place).line ↔ _
  rw [line_after, Nat.lt_add_right_iff_pos, List.count_pos_iff]
  rfl

theorem after_shifted (columns : Nat) (place : Location) (cut : Cut) :
    cut.after (shifted columns place) =
      shifted (if breaksLine (cut.token place) then 0 else columns) (cut.after place) := by
  have through := through_shifted columns place cut.taken
  by_cases newLine : cut.kind = .newLine
  · rw [Cut.after, Cut.after, newLine, through, if_pos (breaksLine_token.mpr (.inl newLine))]
    rfl
  · have same : (if breaksLine (cut.token place) = true then 0 else columns) =
        if '\n' ∈ cut.taken then 0 else columns := by
      simp only [breaksLine_token, newLine, false_or]
    rw [after_of_kind_ne newLine, after_of_kind_ne newLine, through, same]

theorem index_le_after (cut : Cut) (place : Location) : place.index ≤ (cut.after place).index := by
  rw [index_after]
  exact Nat.le_add_right _ _

theorem placed_behind (still : ∀ other, place.index ≤ other.index →
    moved lineEnd other = shifted 0 other) (cuts : List Cut) :
    placed (shifted 0 place) cuts ++ [endToken (behind (shifted 0 place) cuts)] =
      (placed place cuts ++ [endToken (behind place cuts)]).map (movedToken lineEnd) := by
  induction cuts generalizing place with
  | nil =>
      have here := still place (Nat.le_refl _)
      simp [placed, behind, endToken, movedToken, here]
  | cons cut cuts ih =>
      have ahead := index_le_after cut place
      have next := ih fun other later => still other (ahead.trans later)
      rw [placed, placed, behind_cons, behind_cons, List.cons_append, List.cons_append,
        List.map_cons, after_shifted, ite_self, next]
      refine congrArg (· :: _) ?_
      rw [movedToken, Cut.token, Cut.token, after_shifted, ite_self]
      exact congrArg₂ (Token.mk cut.kind _ ⟨·, ·⟩) (still _ (Nat.le_refl _)).symm
        (still _ ahead).symm

theorem lineEnd?_cons (token : Token) (row : List Token) :
    lineEnd? (token :: row) =
      if breaksLine token then some token.span.stop.index else lineEnd? row := by
  rw [lineEnd?, List.find?_cons]
  split
  · next breaks => simp [breaks]
  · next goes => simp [goes, lineEnd?]

theorem lt_lineEnd (filled : ∀ cut ∈ cuts, cut.taken ≠ []) {stop : Nat}
    (found : lineEnd? (placed place cuts) = some stop) : place.index < stop := by
  induction cuts generalizing place with
  | nil => cases found
  | cons cut cuts ih =>
      rw [List.forall_mem_cons] at filled
      have room := List.length_pos_iff.mpr filled.1
      have ahead := index_after cut place
      rw [placed, lineEnd?_cons] at found
      split at found
      · cases found
        change place.index < (cut.after place).index
        omega
      · have := ih filled.2 found
        omega

theorem moved_of_lt (ahead : ∀ stop ∈ lineEnd, place.index < stop) :
    moved lineEnd place = shifted header.length place := by
  cases lineEnd with
  | none => rfl
  | some stop =>
      rw [moved, if_neg]
      simpa using ahead stop rfl

theorem moved_of_le {stop : Nat} (passed : stop ≤ place.index) :
    moved (some stop) place = shifted 0 place := by
  rw [moved, if_pos (by simpa using passed)]

theorem placed_moved (filled : ∀ cut ∈ cuts, cut.taken ≠ []) (place : Location) :
    placed (shifted header.length place) cuts ++
        [endToken (behind (shifted header.length place) cuts)] =
      (placed place cuts ++ [endToken (behind place cuts)]).map
        (movedToken (lineEnd? (placed place cuts))) := by
  induction cuts generalizing place with
  | nil => rfl
  | cons cut cuts ih =>
      have first : ∀ stop ∈ lineEnd? (placed place (cut :: cuts)), place.index < stop :=
        fun stop => lt_lineEnd filled
      rw [List.forall_mem_cons] at filled
      have start := moved_of_lt first
      rw [placed, lineEnd?_cons] at first start
      rw [placed, placed, behind_cons, behind_cons, List.cons_append, List.cons_append,
        List.map_cons, after_shifted, lineEnd?_cons]
      split at start
      · next breaks =>
          rw [if_pos breaks, if_pos breaks]
          have still : ∀ other, (cut.after place).index ≤ other.index →
              moved (some (cut.token place).span.stop.index) other = shifted 0 other :=
            fun other => moved_of_le
          rw [placed_behind still]
          refine congrArg (· :: _) ?_
          rw [movedToken, Cut.token, after_shifted, if_pos breaks]
          exact congrArg₂ (Token.mk cut.kind _ ⟨·, ·⟩) start.symm (still _ (Nat.le_refl _)).symm
      · next goes =>
          rw [if_neg goes, if_neg goes, ih filled.2]
          refine congrArg (· :: _) ?_
          rw [movedToken, Cut.token, after_shifted, if_neg goes]
          exact congrArg₂ (Token.mk cut.kind _ ⟨·, ·⟩) start.symm
            (moved_of_lt fun stop => lt_lineEnd filled.2).symm

end Places

section Texts

variable {kind : Kind} {value : String} {c : Char} {follow : List Char} {lineStart : Bool}

theorem cutsFrom_word (reads : Reads kind value) (word : isWordKind kind = true)
    (closes : Closes follow) :
    cutsFrom lineStart (value.toList ++ follow) =
      plain kind value.toList :: cutsFrom false follow := by
  obtain ⟨c, more, split, -, again⟩ := reads
  have other : kind ≠ .newLine := by
    rintro rfl
    cases word
  have taken : (plain kind value.toList).taken = c :: more := split
  rw [split, List.cons_append, cutsFrom_of_scan taken (again lineStart _ closes), ← split, plain,
    decide_eq_false other]

theorem cutsFrom_mark (marks : mark? c = some kind) :
    cutsFrom lineStart (c :: follow) = plain kind [c] :: cutsFrom false follow := by
  have other : kind ≠ .newLine := by
    rintro rfl
    cases mark?_category marks
  have taken : (plain kind [c]).taken = c :: [] := rfl
  have scanned := scan_of_mark? marks lineStart ([] ++ follow)
  have cuts := cutsFrom_of_scan taken scanned
  rwa [plain, decide_eq_false other] at cuts

theorem cutsFrom_space (follow : List Char) (full : Lacks isSpace follow) :
    cutsFrom false (' ' :: follow) = plain .whiteSpace [' '] :: cutsFrom false follow := by
  have scanned : scan false ' ' ([] ++ follow) = plain .whiteSpace [' '] := by
    rw [List.nil_append, scan, if_neg (by decide), if_pos (by decide), if_neg (by decide),
      List.takeWhile_cons_of_pos (by decide), takeWhile_of_lacks full]
  exact cutsFrom_of_scan rfl scanned

def headerCuts : List Cut :=
  [plain .identifier "Stateless".toList, plain .whiteSpace [' '], plain .dot ['.'],
    plain .identifier "viewModel".toList, plain .colon [':'], plain .whiteSpace [' '],
    plain .identifier "Vm".toList, plain .comma [','], plain .whiteSpace [' '], plain .dot ['.'],
    plain .identifier "view".toList, plain .colon [':'], plain .whiteSpace [' ']]

theorem reads_header : ∀ value ∈ ["Stateless", "viewModel", "Vm", "view"],
    Reads .identifier value := by
  have words : ∀ value ∈ ["Stateless", "viewModel", "Vm", "view"],
      ∃ token ∈ tokens header, token.kind = .identifier ∧ token.value = value := by
    decide +kernel
  intro value member
  obtain ⟨token, inside, kind, rfl⟩ := words value member
  have reads := reads_of_mem inside (by rw [kind]; rfl)
  rwa [kind] at reads

theorem cutsFrom_header {follow : List Char} (full : Lacks isSpace follow) :
    cutsFrom true (header.toList ++ follow) = headerCuts ++ cutsFrom false follow := by
  have word (value : String) (member : value ∈ ["Stateless", "viewModel", "Vm", "view"])
      (lineStart : Bool) {c : Char} (closing : isClosing c = true) (more : List Char) :
      cutsFrom lineStart (value.toList ++ c :: more) =
        plain .identifier value.toList :: cutsFrom false (c :: more) :=
    cutsFrom_word (reads_header value member) rfl closing
  have dot : mark? '.' = some .dot := rfl
  have colon : mark? ':' = some .colon := rfl
  have comma : mark? ',' = some .comma := rfl
  have vm {more : List Char} : Lacks isSpace ("Vm".toList ++ more) := rfl
  calc
    cutsFrom true (header.toList ++ follow) =
        cutsFrom true ("Stateless".toList ++ ' ' :: '.' :: ("viewModel".toList ++ ':' :: ' ' ::
          ("Vm".toList ++ ',' :: ' ' :: '.' :: ("view".toList ++ ':' :: ' ' :: follow)))) := by
      simp [header]
    _ = headerCuts ++ cutsFrom false follow := by
      rw [word "Stateless" (by simp) true rfl, cutsFrom_space ('.' :: _) rfl, cutsFrom_mark dot,
        word "viewModel" (by simp) false rfl, cutsFrom_mark colon,
        cutsFrom_space ("Vm".toList ++ _) vm, word "Vm" (by simp) false rfl,
        cutsFrom_mark comma, cutsFrom_space ('.' :: _) rfl, cutsFrom_mark dot,
        word "view" (by simp) false rfl, cutsFrom_mark colon, cutsFrom_space follow full]
      rfl

theorem cutsFrom_wrap {view : String} (begins : Begins view) :
    cutsFrom true (wrap view).toList = headerCuts ++ cutsFrom true view.toList := by
  rw [wrap, String.toList_append]
  cases chars : view.toList with
  | nil => rw [cutsFrom_header (show Lacks isSpace [] from rfl), cutsFrom, cutsFrom]
  | cons c rest =>
      have full := (begins c (by rw [chars]; rfl)).1
      have solid : Lacks isSpace (c :: rest) := by simp [Lacks, isSpace, full]
      rw [cutsFrom_header solid, cutsFrom_cons, cutsFrom_cons, scan_lineStart full false true]

/-- The document has the tokens of the header and, moved behind it, those of the view. -/
theorem tokens_wrap {view : String} (begins : Begins view) :
    tokens (wrap view) = placed Location.origin headerCuts ++
      (tokens view).map (movedToken (lineEnd? (tokens view))) := by
  have filled : ∀ cut ∈ cutsFrom true view.toList, cut.taken ≠ [] := by
    intro cut member
    obtain ⟨lineStart, c, rest, rfl⟩ := exists_scan_of_mem member
    exact (scan_filled lineStart c rest).some
  have place : behind Location.origin headerCuts = shifted header.length Location.origin := by
    decide +kernel
  have lines : lineEnd? (tokens view) =
      lineEnd? (placed Location.origin (cutsFrom true view.toList)) := by
    rw [tokens_eq_placed, lineEnd?, lineEnd?, List.find?_append]
    simp [breaksLine, endToken]
  rw [lines, tokens_eq_placed (wrap view), tokens_eq_placed view, cutsFrom_wrap begins,
    placed_append, behind_append, place, List.append_assoc, placed_moved filled]

end Texts

end WidgetTree.Wrapping
