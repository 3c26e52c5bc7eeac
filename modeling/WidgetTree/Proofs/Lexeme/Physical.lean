import Mathlib.Data.List.DropRight
import Mathlib.Data.List.Infix
import WidgetTree.Proofs.Lexeme.Redrawn

/-!
Tokens on physical lines. A line feed begins a physical line, and a carriage return has to be paired
with one. Main statement: `place_physical`, where a token begins or stops, the line feeds in front
of it are counted by the line and the characters behind the last of them by the column.
-/

namespace WidgetTree.Text

def behindFeed (chars : List Char) : List Char := chars.rtakeWhile (· != '\n')

theorem behindFeed_concat (chars : List Char) (c : Char) :
    behindFeed (chars ++ [c]) = if c = '\n' then [] else behindFeed chars ++ [c] := by
  by_cases breaks : c = '\n'
  · rw [if_pos breaks]
    exact List.rtakeWhile_concat_neg _ _ _ (by simp [breaks])
  · rw [if_neg breaks]
    exact List.rtakeWhile_concat_pos _ _ _ (by simp [breaks])

theorem Location.through_append (place : Location) (chars more : List Char) :
    place.through (chars ++ more) = (place.through chars).through more :=
  List.foldl_append

theorem column_through_origin (chars : List Char) :
    (Location.origin.through chars).column = (behindFeed chars).length := by
  -- The characters are added at the end, where the column moves on.
  induction chars using List.reverseRecOn with
  | nil => rfl
  | append_singleton chars c ih =>
      have step : (Location.origin.through chars).through [c] =
          (Location.origin.through chars).next c := rfl
      rw [Location.through_append, step, Location.next, behindFeed_concat]
      split
      · rfl
      · rw [List.length_append, ← ih]
        rfl

/-- Every carriage return stands in front of a line feed. -/
def Paired (text : List Char) : Prop := ∀ rest, '\r' :: rest <:+ text → rest.head? = some '\n'

instance (text : List Char) : Decidable (Paired text) :=
  decidable_of_iff (∀ tail ∈ text.tails, tail.head? = some '\r' → tail.tail.head? = some '\n') (by
    simp only [List.mem_tails, Paired]
    constructor
    · intro each rest behind
      exact each _ behind rfl
    · intro paired tail behind returns
      obtain ⟨rest, rfl⟩ := List.head?_eq_some_iff.mp returns
      exact paired rest behind)

theorem Paired.suffix {text rest : List Char} (paired : Paired text) (behind : rest <:+ text) :
    Paired rest :=
  fun more inside => paired more (inside.trans behind)

end WidgetTree.Text

namespace WidgetTree.Lexeme

open Text (Location Paired behindFeed column_through_origin)

section Cuts

variable {lineStart : Bool} {c : Char} {rest text : List Char}

theorem getLast?_of_newLine (paired : Paired (c :: rest))
    (newLine : (scan lineStart c rest).kind = .newLine) :
    (scan lineStart c rest).taken.getLast? = some '\n' := by
  have run := taken_of_newLine newLine
  obtain ⟨more, begins, -⟩ := scan_split lineStart c rest
  obtain ⟨d, last⟩ : ∃ d, (scan lineStart c rest).taken.getLast? = some d := by
    rw [begins]
    exact ⟨_, List.getLast?_cons⟩
  have breaks : isNewLine d = true := by
    apply List.mem_takeWhile_imp
    rw [← run]
    exact List.mem_of_getLast? last
  simp only [isNewLine, Bool.or_eq_true, decide_eq_true_eq] at breaks
  rcases breaks with rfl | rfl
  · -- The line feed that belongs to the return would be in the run.
    obtain ⟨front, whole⟩ := List.getLast?_eq_some_iff.mp last
    have behind : '\r' :: (c :: rest).dropWhile isNewLine <:+ c :: rest := by
      refine ⟨front, ?_⟩
      rw [List.append_cons, ← whole, run, List.takeWhile_append_dropWhile]
    have lacks := lacks_dropWhile isNewLine (c :: rest)
    rw [Lacks, paired _ behind] at lacks
    cases lacks
  · exact last

theorem column_through_eq_zero {chars : List Char} (last : chars.getLast? = some '\n')
    (place : Location) : (place.through chars).column = 0 := by
  obtain ⟨front, rfl⟩ := List.getLast?_eq_some_iff.mp last
  rw [Location.through_append]
  rfl

theorem after_eq_through (paired : Paired (c :: rest)) (place : Location) :
    (scan lineStart c rest).after place = place.through (scan lineStart c rest).taken := by
  by_cases newLine : (scan lineStart c rest).kind = .newLine
  · have start := column_through_eq_zero (getLast?_of_newLine paired newLine) place
    rw [Cut.after, newLine, ← start]
  · exact after_of_kind_ne newLine

theorem after_of_mem_cutsFrom (lineStart : Bool) (paired : Paired text) :
    ∀ cut ∈ cutsFrom lineStart text, ∀ place, cut.after place = place.through cut.taken := by
  induction lineStart, text using cutsFrom.induct with
  | case1 lineStart =>
      rw [cutsFrom]
      exact List.forall_mem_nil _
  | case2 lineStart c rest cut ih =>
      rw [cutsFrom_cons, List.forall_mem_cons]
      refine ⟨after_eq_through paired, ih (paired.suffix ?_)⟩
      exact (List.drop_suffix _ rest).trans (List.suffix_cons c rest)

theorem behind_eq_through {cuts : List Cut}
    (each : ∀ cut ∈ cuts, ∀ place, cut.after place = place.through cut.taken) (place : Location) :
    behind place cuts = place.through (cuts.flatMap (·.taken)) := by
  induction cuts generalizing place with
  | nil => rfl
  | cons cut cuts ih =>
      rw [List.forall_mem_cons] at each
      calc
        behind place (cut :: cuts) = behind (cut.after place) cuts := behind_cons place cut cuts
        _ = (place.through cut.taken).through (cuts.flatMap (·.taken)) := by
          rw [each.1, ih each.2]
        _ = place.through ((cut :: cuts).flatMap (·.taken)) := by
          rw [List.flatMap_cons, Location.through_append]

end Cuts

section Texts

variable {text : String} {token : Token} {place : Location}

theorem exists_front (member : token ∈ tokens text)
    (side : place = token.span.start ∨ place = token.span.stop) :
    ∃ front others, cutsFrom true text.toList = front ++ others ∧
      place = behind Location.origin front := by
  rw [tokens_eq_placed, List.mem_append, List.mem_singleton] at member
  rcases member with inside | rfl
  · obtain ⟨front, cut, others, cuts, rfl⟩ := exists_cut_of_mem inside
    rcases side with rfl | rfl
    · exact ⟨front, cut :: others, cuts, rfl⟩
    · refine ⟨front ++ [cut], others, ?_, ?_⟩
      · rw [cuts, List.append_assoc, List.singleton_append]
      · rw [behind_append]
        rfl
  · refine ⟨_, [], (List.append_nil _).symm, ?_⟩
    rcases side with rfl | rfl
    · rfl
    · rfl

/-- Where a token begins or stops, its line is one more than the line feeds in front of it. Where
all carriage returns are paired, its column is the number of characters behind the last of them. -/
theorem place_physical (member : token ∈ tokens text)
    (side : place = token.span.start ∨ place = token.span.stop) :
    place.index ≤ text.length ∧
      place.line = 1 + (text.toList.take place.index).count '\n' ∧
      (Paired text.toList →
        place.column = (behindFeed (text.toList.take place.index)).length) := by
  obtain ⟨front, others, cuts, rfl⟩ := exists_front member side
  have whole : front.flatMap (·.taken) ++ others.flatMap (·.taken) = text.toList := by
    rw [← List.flatMap_append, ← cuts, taken_cutsFrom]
  have index : (behind Location.origin front).index = (front.flatMap (·.taken)).length := by
    rw [index_behind, Location.origin, Nat.zero_add]
  have before : text.toList.take (behind Location.origin front).index =
      front.flatMap (·.taken) := by
    rw [← whole]
    exact List.take_left' index.symm
  refine ⟨?_, ?_, fun paired => ?_⟩
  · rw [index, ← String.length_toList, ← whole, List.length_append]
    omega
  · rw [before]
    exact line_behind Location.origin front
  · have each := after_of_mem_cutsFrom true paired
    rw [cuts, List.forall_mem_append] at each
    rw [before, behind_eq_through each.1, column_through_origin]

/-- A widget behind a comment that breaks the line, in a text with both kinds of breaks. -/
theorem place_physical_comment :
    ∃ token ∈ tokens "!! a\r\n b !! Row\n'c\r\n", token.kind = .widget ∧
      token.span.start = ⟨12, 2, 6⟩ ∧ Paired "!! a\r\n b !! Row\n'c\r\n".toList ∧
      token.span.start.column =
        (behindFeed ("!! a\r\n b !! Row\n'c\r\n".toList.take token.span.start.index)).length := by
  have paired : Paired "!! a\r\n b !! Row\n'c\r\n".toList := by decide
  have member : (⟨.widget, "Row", ⟨⟨12, 2, 6⟩, ⟨15, 2, 9⟩⟩⟩ : Token) ∈
      tokens "!! a\r\n b !! Row\n'c\r\n" := by
    decide +kernel
  obtain ⟨-, -, column⟩ := place_physical member (.inl rfl)
  exact ⟨_, member, rfl, rfl, paired, column paired⟩

end Texts

end WidgetTree.Lexeme
