import Mathlib.Data.Prod.Lex
import Mathlib.Order.Nat
import WidgetTree.Proofs.Lexeme.Redrawn

/-!
Tokens by line and column. A line feed moves on to the next line, and any run of line breaks moves
back to the first column. Main statement: `tokens_sorted_iff`, lines and columns grow from token to
token just when each of these runs has a line feed.
-/

namespace WidgetTree.Lexeme

open Text (Location)

def spot (place : Location) : Nat ×ₗ Nat := toLex (place.line, place.column)

/-- The first token begins on a line further up, or further left on the same line. -/
def Before (a b : Token) : Prop := spot a.span.start < spot b.span.start

instance : Trans Before Before Before := ⟨fun first second => lt_trans first second⟩

section Places

variable {cut : Cut} {chars : List Char}

theorem spot_lt_iff {place other : Location} :
    spot place < spot other ↔
      place.line < other.line ∨ place.line = other.line ∧ place.column < other.column :=
  Prod.Lex.toLex_lt_toLex

theorem spot_lt_next (place : Location) (c : Char) : spot place < spot (place.next c) := by
  rw [spot_lt_iff, Location.next]
  split
  · exact .inl (Nat.lt_succ_self _)
  · exact .inr ⟨rfl, Nat.lt_succ_self _⟩

theorem spot_lt_through (some : chars ≠ []) (place : Location) :
    spot place < spot (place.through chars) := by
  induction chars generalizing place with
  | nil => exact absurd rfl some
  | cons c chars ih =>
      have first := spot_lt_next place c
      cases chars with
      | nil => exact first
      | cons d more => exact first.trans (ih (List.cons_ne_nil d more) (place.next c))

theorem spot_lt_after_iff (some : cut.taken ≠ []) (place : Location) :
    spot place < spot (cut.after place) ↔ (cut.kind = .newLine → '\n' ∈ cut.taken) := by
  by_cases newLine : cut.kind = .newLine
  · have column : (cut.after place).column = 0 := by rw [Cut.after, newLine]
    rw [spot_lt_iff, line_after, column, ← List.count_pos_iff]
    constructor
    · intro moves _
      omega
    · intro feeds
      have feed := feeds newLine
      omega
  · rw [after_of_kind_ne newLine]
    exact iff_of_true (spot_lt_through some place) fun breaks => absurd breaks newLine

end Places

section Texts

variable {cut : Cut} {cuts : List Cut}

def Feeds (token : Token) : Prop := token.kind = .newLine → '\n' ∈ token.value.toList

structure Cut.Filled (cut : Cut) : Prop where
  some : cut.taken ≠ []
  same : cut.kind = .newLine → cut.value = cut.taken

theorem scan_filled (lineStart : Bool) (c : Char) (rest : List Char) :
    (scan lineStart c rest).Filled where
  some := by
    obtain ⟨more, begins, -⟩ := scan_split lineStart c rest
    rw [begins]
    exact List.cons_ne_nil c more
  same newLine := by rw [scan_newLine (kind_eq_newLine_iff.mp newLine), plain]

theorem Cut.Filled.before_iff (filled : cut.Filled) (place : Location) :
    spot place < spot (cut.after place) ↔ Feeds (cut.token place) := by
  rw [spot_lt_after_iff filled.some, Feeds, Cut.token]
  apply forall_congr'
  intro newLine
  rw [String.toList_ofList, filled.same newLine]

theorem placed_isChain_iff (filled : ∀ cut ∈ cuts, cut.Filled) (place : Location) :
    (placed place cuts ++ [endToken (behind place cuts)]).IsChain Before ↔
      ∀ token ∈ placed place cuts ++ [endToken (behind place cuts)], Feeds token := by
  induction cuts generalizing place with
  | nil =>
      refine iff_of_true (List.isChain_singleton _) ?_
      rintro token member ends
      rw [List.mem_singleton.mp member] at ends
      cases ends
  | cons cut more ih =>
      rw [List.forall_mem_cons] at filled
      have next : (∀ first ∈ (placed (cut.after place) more ++
            [endToken (behind (cut.after place) more)]).head?, Before (cut.token place) first) ↔
          Feeds (cut.token place) := by
        rw [← filled.1.before_iff]
        constructor
        · intro each
          obtain ⟨first, head⟩ : ∃ first, first ∈ (placed (cut.after place) more ++
              [endToken (behind (cut.after place) more)]).head? := by
            cases more with
            | nil => exact ⟨_, rfl⟩
            | cons second others => exact ⟨_, rfl⟩
          have before := each first head
          rwa [Before, start_of_head head] at before
        · intro moves first head
          rw [Before, start_of_head head]
          exact moves
      rw [placed, behind_cons, List.cons_append, List.isChain_cons, List.forall_mem_cons, next,
        ih filled.2]

/-- The tokens of a text are ordered by line and column just when every run of line breaks in it has
a line feed. -/
theorem tokens_sorted_iff (text : String) :
    (tokens text).Pairwise Before ↔
      ∀ token ∈ tokens text, token.kind = .newLine → '\n' ∈ token.value.toList := by
  have filled : ∀ cut ∈ cutsFrom true text.toList, cut.Filled := by
    intro cut member
    obtain ⟨lineStart, c, rest, rfl⟩ := exists_scan_of_mem member
    exact scan_filled lineStart c rest
  rw [tokens_eq_placed, ← List.isChain_iff_pairwise]
  exact placed_isChain_iff filled Location.origin

/-- Behind a lone return a word begins at the line and column where the one in front of it does;
behind a return and a line feed it does not. -/
theorem tokens_sorted_iff_return :
    ¬ (tokens "a\rb").Pairwise Before ∧
      (∃ a ∈ tokens "a\rb", ∃ b ∈ tokens "a\rb", a ≠ b ∧ spot a.span.start = spot b.span.start) ∧
      (tokens "a\r\nb").Pairwise Before := by
  refine ⟨?_, ?_, (tokens_sorted_iff _).mpr (by decide +kernel)⟩
  · rw [tokens_sorted_iff]
    decide +kernel
  · have first : (⟨.identifier, "a", ⟨⟨0, 1, 0⟩, ⟨1, 1, 1⟩⟩⟩ : Token) ∈ tokens "a\rb" := by
      decide +kernel
    have second : (⟨.identifier, "b", ⟨⟨2, 1, 0⟩, ⟨3, 1, 1⟩⟩⟩ : Token) ∈ tokens "a\rb" := by
      decide +kernel
    exact ⟨_, first, _, second, by decide, rfl⟩

end Texts

end WidgetTree.Lexeme
