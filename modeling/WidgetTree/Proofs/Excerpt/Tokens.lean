import Mathlib.Data.List.Forall2
import WidgetTree.Proofs.Grammar.Alike
import WidgetTree.Proofs.Lexeme.Lookahead
import WidgetTree.Proofs.Lexeme.Tiling

namespace WidgetTree.Excerpt

open Grammar (Solid Spanned)
open Lexeme
open Text (Location Span isBlank slice)

section Cuts

variable {lineStart : Bool} {c : Char} {rest more text : List Char} {cuts others : List Cut}
  {last : Cut}

theorem scan_alone (solid : Solid (scan lineStart c rest).kind) :
    isBlank c = false ∧ ∀ more, (scan lineStart c rest).taken = c :: more →
      scan lineStart c more = scan lineStart c rest := by
  have form := scan_scans lineStart c rest
  generalize same : scan lineStart c rest = cut at form solid
  cases form with
  | newLine | indentation | whiteSpace | lineComment | blockComment | openComment | openString
  | brokenString => simp [Solid, plain, Kind.category] at solid
  | @word rear _ full settles =>
      refine ⟨full, fun more taken => ?_⟩
      rw [settles.worded.taken_eq] at taken
      obtain rfl : rear = more := by simpa using taken
      exact settles.alone
  | @string body quotes inside =>
      have full : isBlank c = false := by
        simp only [isQuote, Bool.or_eq_true, decide_eq_true_eq] at quotes
        rcases quotes with rfl | rfl
        · decide
        · decide
      refine ⟨full, fun more taken => ?_⟩
      obtain rfl : body ++ [c] = more := by simpa using taken
      have again := quoted_of_inside inside []
      rw [List.append_nil] at again
      rw [scan_of_quote quotes, again]
  | mark marks =>
      refine ⟨mark?_full marks, fun more taken => ?_⟩
      exact scan_of_mark? marks lineStart more

theorem cutsFrom_eq_cons {cut : Cut} (split : cutsFrom lineStart text = cut :: others) :
    ∃ c more, cut.taken = c :: more ∧
      cut = scan lineStart c (more ++ others.flatMap (·.taken)) ∧
        cutsFrom (cut.kind = .newLine) (others.flatMap (·.taken)) = others := by
  cases text with
  | nil =>
      rw [cutsFrom] at split
      cases split
  | cons c rest =>
      rw [cutsFrom_cons] at split
      obtain ⟨rfl, behind⟩ := List.cons.inj split
      obtain ⟨more, begins⟩ := (scan_continues lineStart c rest).1
      have whole := scan_taken_append lineStart c rest
      have same : others.flatMap (·.taken) =
          rest.drop ((scan lineStart c rest).taken.length - 1) := by
        rw [← behind, taken_cutsFrom]
      rw [← same, ← begins] at whole
      refine ⟨c, more, begins.symm, ?_, by rw [same, behind]⟩
      rw [show more ++ others.flatMap (·.taken) = rest from (List.cons.inj whole).2]

theorem cutsFrom_behind (split : cutsFrom lineStart text = cuts ++ others) :
    ∃ lineStart, cutsFrom lineStart (others.flatMap (·.taken)) = others := by
  induction cuts generalizing lineStart text with
  | nil =>
      rw [List.nil_append] at split
      exact ⟨lineStart, by rw [← split, taken_cutsFrom]⟩
  | cons cut cuts ih =>
      obtain ⟨-, -, -, -, behind⟩ := cutsFrom_eq_cons split
      exact ih behind

theorem cutsFrom_front (split : cutsFrom lineStart text = cuts ++ last :: others)
    (solid : Solid last.kind) :
    cutsFrom lineStart ((cuts ++ [last]).flatMap (·.taken)) = cuts ++ [last] := by
  induction cuts generalizing lineStart text with
  | nil =>
      obtain ⟨c, more, taken, same, -⟩ := cutsFrom_eq_cons split
      have again : scan lineStart c (more ++ []) = last := by
        rw [same] at taken solid
        rw [List.append_nil, (scan_alone solid).2 more taken, ← same]
      rw [List.nil_append, List.flatMap_singleton, taken, ← List.append_nil more,
        cutsFrom_of_scan taken again, cutsFrom]
  | cons cut cuts ih =>
      rw [List.cons_append] at split
      obtain ⟨c, more, taken, same, behind⟩ := cutsFrom_eq_cons split
      have inner := ih behind
      have some : (cuts ++ [last]).flatMap (·.taken) ≠ [] := by
        intro none
        rw [none, cutsFrom] at inner
        simp at inner
      rw [List.append_cons, List.flatMap_append] at same
      have again : scan lineStart c (more ++ (cuts ++ [last]).flatMap (·.taken)) = cut := by
        rw [same] at taken
        rw [scan_in_front taken some, ← same]
      rw [List.cons_append, List.flatMap_cons, taken, List.cons_append,
        cutsFrom_of_scan taken again, inner]

theorem cutsFrom_part {front core behind : List Cut}
    (split : cutsFrom lineStart text = front ++ (core ++ behind))
    (begins : ∀ first ∈ core.head?, Solid first.kind)
    (ends : ∃ last ∈ core.getLast?, Solid last.kind) :
    cutsFrom true (core.flatMap (·.taken)) = core := by
  obtain ⟨last, atEnd, solid⟩ := ends
  obtain ⟨cuts, rfl⟩ := List.getLast?_eq_some_iff.mp atEnd
  obtain ⟨lineStart', inner⟩ := cutsFrom_behind split
  rw [List.append_assoc, List.singleton_append] at inner
  have again := cutsFrom_front inner solid
  cases chars : (cuts ++ [last]).flatMap (·.taken) with
  | nil =>
      rw [chars, cutsFrom] at again
      rw [cutsFrom]
      exact again
  | cons c rest =>
      rw [chars, cutsFrom_cons] at again
      have first : Solid (scan lineStart' c rest).kind := begins _ (by rw [← again]; rfl)
      have same := scan_lineStart (scan_alone first).1 true lineStart' rest
      rw [cutsFrom_cons, same, again]

end Cuts

/-- The first place is counted from the beginning of the text, the second one from a place in it.
Columns are left out: behind the first line of the excerpt they are the same. -/
structure Shifted (base here alone : Location) : Prop where
  index : here.index = base.index + alone.index
  line : here.line + 1 = base.line + alone.line

structure Echoes (base : Location) (token other : Token) : Prop where
  kind : token.kind = other.kind
  value : token.value = other.value
  spanned : Spanned (Shifted base) token.span other.span

section Places

variable {base here alone place : Location} {cuts : List Cut}

theorem shifted_origin (base : Location) : Shifted base base Location.origin :=
  ⟨rfl, rfl⟩

theorem Shifted.after (shifted : Shifted base here alone) (cut : Cut) :
    Shifted base (cut.after here) (cut.after alone) := by
  refine ⟨?_, ?_⟩
  · rw [index_after, index_after, shifted.index, Nat.add_assoc]
  · have line := shifted.line
    rw [line_after, line_after]
    omega

theorem Shifted.behind (shifted : Shifted base here alone) (cuts : List Cut) :
    Shifted base (behind here cuts) (behind alone cuts) := by
  induction cuts generalizing here alone with
  | nil => exact shifted
  | cons cut cuts ih => exact ih (shifted.after cut)

theorem placed_echoes (shifted : Shifted base here alone) (cuts : List Cut) :
    List.Forall₂ (Echoes base) (placed here cuts) (placed alone cuts) := by
  induction cuts generalizing here alone with
  | nil => exact .nil
  | cons cut cuts ih =>
      exact .cons ⟨rfl, rfl, shifted, shifted.after cut⟩ (ih (shifted.after cut))

theorem placed_eq_append {front rear : List Token} (split : placed place cuts = front ++ rear) :
    ∃ before others, cuts = before ++ others ∧ front = placed place before ∧
      rear = placed (behind place before) others := by
  induction front generalizing place cuts with
  | nil => exact ⟨[], cuts, rfl, rfl, split.symm⟩
  | cons token front ih =>
      cases cuts with
      | nil => cases split
      | cons cut cuts =>
          rw [placed, List.cons_append] at split
          obtain ⟨rfl, inner⟩ := List.cons.inj split
          obtain ⟨before, others, rfl, rfl, rfl⟩ := ih inner
          exact ⟨cut :: before, others, rfl, rfl, rfl⟩

theorem stop_of_last {last : Token} (atEnd : last ∈ (placed place cuts).getLast?) :
    last.span.stop = behind place cuts := by
  induction cuts generalizing place with
  | nil => cases atEnd
  | cons cut cuts ih =>
      cases cuts with
      | nil =>
          cases atEnd
          rfl
      | cons second cuts =>
          rw [placed, placed, List.getLast?_cons_cons] at atEnd
          exact ih atEnd

theorem start_of_first {first : Token} (head : first ∈ (placed place cuts).head?) :
    first.span.start = place := by
  cases cuts with
  | nil => cases head
  | cons cut cuts =>
      cases head
      rfl

theorem kinds_placed (place : Location) (cuts : List Cut) :
    (placed place cuts).map (·.kind) = cuts.map (·.kind) := by
  induction cuts generalizing place with
  | nil => rfl
  | cons cut cuts ih => rw [placed, List.map_cons, List.map_cons, ih, Lexeme.Cut.token]

end Places

theorem exists_cuts {text : String} {front core rear : List Token} {last : Token}
    (split : tokens text = front ++ (core ++ rear)) (atEnd : last ∈ core.getLast?)
    (goes : last.kind ≠ .endOfFile) :
    ∃ before inner others, cutsFrom true text.toList = before ++ (inner ++ others) ∧
      core = placed (behind Location.origin before) inner := by
  have some : core ≠ [] := by
    rintro rfl
    cases atEnd
  obtain ⟨left, cuts⟩ : ∃ left, placed Location.origin (cutsFrom true text.toList) =
      (front ++ core) ++ left := by
    rw [tokens_eq_placed, ← List.append_assoc] at split
    rcases List.append_eq_append_iff.mp split with ⟨extra, whole, finish⟩ | ⟨left, inner, -⟩
    · rcases List.append_eq_singleton_iff.mp finish.symm with ⟨none, -⟩ | ⟨one, -⟩
      · rw [none, List.append_nil] at whole
        exact ⟨[], by rw [whole, List.append_nil]⟩
      · have final := List.getLast?_append_of_ne_nil front some
        rw [whole, one, List.getLast?_concat, atEnd] at final
        cases final
        exact absurd rfl goes
    · exact ⟨left, inner⟩
  rw [List.append_assoc] at cuts
  obtain ⟨before, others, split, -, behind⟩ := placed_eq_append cuts
  obtain ⟨inner, others, rfl, same, -⟩ := placed_eq_append behind.symm
  exact ⟨before, inner, others, split, same⟩

theorem tokens_excerpt {text : String} {front core rear : List Token} {first last : Token}
    {span : Span} (split : tokens text = front ++ (core ++ rear))
    (head : first ∈ core.head?) (atEnd : last ∈ core.getLast?)
    (begins : Solid first.kind) (ends : Solid last.kind)
    (start : span.start = first.span.start) (stop : span.stop = last.span.stop) :
    ∃ finish, finish.kind = .endOfFile ∧
      List.Forall₂ (Echoes span.start) (core ++ [finish]) (tokens (slice text span)) := by
  obtain ⟨before, inner, others, cuts, rfl⟩ := exists_cuts split atEnd (ends.ne (.inr rfl))
  rw [start_of_first head] at start
  rw [stop_of_last atEnd] at stop
  have kinds := kinds_placed (behind Location.origin before) inner
  have part : cutsFrom true (inner.flatMap (·.taken)) = inner := by
    refine cutsFrom_part cuts (fun cut member => ?_) ?_
    · have same := congrArg List.head? kinds
      rw [List.head?_map, List.head?_map, head, member] at same
      have kind : first.kind = cut.kind := Option.some.inj same
      exact kind ▸ begins
    · have same := congrArg List.getLast? kinds
      rw [List.getLast?_map, List.getLast?_map, atEnd] at same
      obtain ⟨cut, final, kind⟩ := Option.map_eq_some_iff.mp same.symm
      exact ⟨cut, final, kind ▸ ends⟩
  have chars : (slice text span).toList = inner.flatMap (·.taken) := by
    have whole := taken_cutsFrom true text.toList
    rw [cuts, List.flatMap_append, List.flatMap_append] at whole
    refine slice_eq whole.symm ?_ ?_
    · rw [start, index_behind]
      exact Nat.zero_add _
    · rw [stop, index_behind, index_behind]
      simp only [Location.origin, Nat.zero_add]
  have shifted := shifted_origin (behind Location.origin before)
  have ended := shifted.behind inner
  refine ⟨endToken (behind (behind Location.origin before) inner), rfl, ?_⟩
  rw [tokens_eq_placed, chars, part, start]
  exact List.rel_append (placed_echoes shifted inner) (.cons ⟨rfl, rfl, ended, ended⟩ .nil)

end WidgetTree.Excerpt
