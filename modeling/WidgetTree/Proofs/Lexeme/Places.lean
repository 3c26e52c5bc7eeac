import Mathlib.Data.List.Chain
import WidgetTree.Proofs.Lexeme.Row

namespace WidgetTree.Lexeme

open Text (Location)

def Ahead (a b : Token) : Prop := a.span.start.index < b.span.start.index

def Indents (a b : Token) : Prop := b.kind = .indentation → a.kind = .newLine

variable {place : Location} {indented : Indented} {text : List Char}

theorem index_lt_after (place : Location) (lineStart : Bool) (c : Char) (rest : List Char) :
    place.index < ((scan lineStart c rest).after place).index := by
  have begins := (scan_continues lineStart c rest).1.length_le
  rw [index_after]
  simp only [List.length_cons, List.length_nil] at begins
  omega

theorem place_le_of_mem {lexeme : Lexeme} (member : lexeme ∈ rowFrom place indented text) :
    place.index ≤ lexeme.token.span.start.index := by
  induction place, indented, text using rowFrom.induct with
  | case1 place indented =>
      rw [rowFrom_nil, List.mem_singleton] at member
      rw [member]
      exact Nat.le_refl _
  | case2 place indented c rest cut ih =>
      rw [rowFrom_cons] at member
      rcases List.mem_cons.mp member with rfl | behind
      · exact Nat.le_refl _
      · exact Nat.le_trans (Nat.le_of_lt (index_lt_after place _ c rest)) (ih behind)

theorem rowFrom_pairwise (place : Location) (indented : Indented) (text : List Char) :
    ((rowFrom place indented text).map (·.token)).Pairwise Ahead := by
  induction place, indented, text using rowFrom.induct with
  | case1 place indented =>
      rw [rowFrom_nil]
      exact List.pairwise_singleton Ahead _
  | case2 place indented c rest cut ih =>
      rw [rowFrom_cons, List.map_cons, List.pairwise_cons]
      refine ⟨?_, ih⟩
      intro token member
      obtain ⟨lexeme, behind, rfl⟩ := List.mem_map.mp member
      exact Nat.lt_of_lt_of_le (index_lt_after place _ c rest) (place_le_of_mem behind)

theorem tokens_pairwise (text : String) : (tokens text).Pairwise Ahead :=
  rowFrom_pairwise Location.origin none text.toList

theorem Worded.kind_ne_indentation {taken : List Char} {cut : Cut} (worded : Worded taken cut) :
    cut.kind ≠ .indentation := by
  cases worded with
  | @sound kind word =>
      rintro rfl
      cases word
  | faulty => simp

theorem lineStart_of_indentation {lineStart : Bool} {c : Char} {rest : List Char}
    (indentation : (scan lineStart c rest).kind = .indentation) : lineStart = true := by
  have form := scan_scans lineStart c rest
  generalize scan lineStart c rest = cut at form indentation
  cases form with
  | indentation start indents => exact start
  | newLine | whiteSpace | lineComment | blockComment | openComment | string | openString
  | brokenString => cases indentation
  | word solid full settles =>
      exact absurd indentation settles.worded.kind_ne_indentation
  | @mark kind marks =>
      rw [show kind = .indentation from indentation] at marks
      cases mark?_category marks

theorem column_of_head_indentation {lexeme : Lexeme}
    (head : lexeme ∈ (rowFrom place indented text).head?)
    (indentation : lexeme.token.kind = .indentation) : place.column = 0 := by
  cases text with
  | nil =>
      rw [rowFrom_nil] at head
      cases head
      cases indentation
  | cons c rest =>
      rw [rowFrom_cons] at head
      cases head
      exact of_decide_eq_true (lineStart_of_indentation indentation)

theorem rowFrom_isChain (place : Location) (indented : Indented) (text : List Char)
    (sound : ∀ lexeme ∈ rowFrom place indented text, lexeme.token.kind ≠ .error) :
    ((rowFrom place indented text).map (·.token)).IsChain Indents := by
  induction place, indented, text using rowFrom.induct with
  | case1 place indented =>
      rw [rowFrom_nil]
      exact List.isChain_singleton _
  | case2 place indented c rest cut ih =>
      rw [rowFrom_cons, List.forall_mem_cons] at sound
      rw [rowFrom_cons, List.map_cons, List.isChain_cons]
      refine ⟨?_, ih sound.2⟩
      intro token head indentation
      rw [List.head?_map] at head
      obtain ⟨lexeme, first, rfl⟩ := Option.map_eq_some_iff.mp head
      have start := column_of_head_indentation first indentation
      exact (column_after_eq_zero_iff sound.1 place).mp start

theorem tokens_isChain {text : String} (sound : ∀ token ∈ tokens text, token.kind ≠ .error) :
    (tokens text).IsChain Indents :=
  rowFrom_isChain _ _ _ fun _ member => sound _ (List.mem_map_of_mem member)

end WidgetTree.Lexeme
