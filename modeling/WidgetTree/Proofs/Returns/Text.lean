import WidgetTree.Proofs.Lexeme.Breaks

namespace WidgetTree.Returns

open Lexeme (isNewLine)
open Text (Location lines linesBetween withoutReturn)

def returned (text : List Char) : List Char :=
  text.flatMap fun c => if c = '\n' then ['\r', '\n'] else [c]

def withReturns (text : String) : String := String.ofList (returned text.toList)

def Unreturned (text : String) : Prop := '\r' ∉ text.toList

instance (text : String) : Decidable (Unreturned text) := inferInstanceAs (Decidable (¬ _))

section Characters

variable {c : Char} {text : List Char}

@[simp] theorem returned_nil : returned [] = [] := rfl

@[simp] theorem returned_feed (text : List Char) :
    returned ('\n' :: text) = '\r' :: '\n' :: returned text := rfl

theorem returned_cons (other : c ≠ '\n') (text : List Char) :
    returned (c :: text) = c :: returned text := by
  rw [returned, List.flatMap_cons, if_neg other]
  rfl

theorem returned_append (text more : List Char) :
    returned (text ++ more) = returned text ++ returned more :=
  List.flatMap_append

theorem returned_eq_self (unbroken : ∀ c ∈ text, c ≠ '\n') : returned text = text := by
  induction text with
  | nil => rfl
  | cons c text ih =>
      rw [List.forall_mem_cons] at unbroken
      rw [returned_cons unbroken.1, ih unbroken.2]

theorem length_le_returned (text : List Char) : text.length ≤ (returned text).length := by
  induction text with
  | nil => exact Nat.le_refl 0
  | cons c text ih =>
      by_cases breaks : c = '\n'
      · subst breaks
        simp only [returned_feed, List.length_cons]
        omega
      · rw [returned_cons breaks, List.length_cons, List.length_cons]
        exact Nat.succ_le_succ ih

theorem returned_eq_nil_iff : returned text = [] ↔ text = [] := by
  constructor
  · intro none
    have most := length_le_returned text
    rw [none] at most
    exact List.length_eq_zero_iff.mp (Nat.le_zero.mp most)
  · rintro rfl
    rfl

theorem takeWhile_returned (text : List Char) :
    (returned text).takeWhile isNewLine = returned (text.takeWhile isNewLine) := by
  induction text with
  | nil => rfl
  | cons c text ih =>
      by_cases feed : c = '\n'
      · subst feed
        have return' : isNewLine '\r' = true := rfl
        have feed : isNewLine '\n' = true := rfl
        rw [returned_feed, List.takeWhile_cons_of_pos return', List.takeWhile_cons_of_pos feed, ih,
          List.takeWhile_cons_of_pos feed, returned_feed]
      · rw [returned_cons feed]
        cases breaks : isNewLine c with
        | true =>
            rw [List.takeWhile_cons_of_pos breaks, List.takeWhile_cons_of_pos breaks, ih,
              returned_cons feed]
        | false =>
            rw [List.takeWhile_cons_of_neg (by simp [breaks]),
              List.takeWhile_cons_of_neg (by simp [breaks]), returned_nil]

end Characters

section Lines

theorem splitOn_cons (c : Char) (text : List Char) :
    (c :: text).splitOn '\n' =
      if c = '\n' then [] :: text.splitOn '\n' else (text.splitOn '\n').modifyHead (c :: ·) := by
  rw [List.splitOn, List.splitOnP_cons_eq_if_modifyHead]
  simp [List.splitOn]

theorem withoutReturn_cons {c : Char} (other : c ≠ '\r') (line : List Char) :
    withoutReturn (c :: line) = c :: withoutReturn line := by
  cases line with
  | nil => simp [withoutReturn, other]
  | cons d line =>
      rw [withoutReturn, withoutReturn, List.getLast?_cons_cons]
      split <;> rfl

theorem map_withoutReturn_modifyHead {c : Char} (other : c ≠ '\r') (lines : List (List Char)) :
    (lines.modifyHead (c :: ·)).map withoutReturn =
      (lines.map withoutReturn).modifyHead (c :: ·) := by
  cases lines with
  | nil => rfl
  | cons line lines =>
      rw [List.modifyHead_cons, List.map_cons, withoutReturn_cons other, List.map_cons,
        List.modifyHead_cons]

theorem splitOn_returned {text : List Char} (clean : '\r' ∉ text) :
    ((returned text).splitOn '\n').map withoutReturn =
      (text.splitOn '\n').map withoutReturn := by
  induction text with
  | nil => rfl
  | cons c text ih =>
      obtain ⟨other, rest⟩ := not_or.mp (List.mem_cons.not.mp clean)
      by_cases feed : c = '\n'
      · subst feed
        rw [returned_feed, splitOn_cons, if_neg (by decide), splitOn_cons, if_pos rfl,
          List.modifyHead_cons, List.map_cons, ih rest, splitOn_cons, if_pos rfl, List.map_cons]
        rfl
      · rw [returned_cons feed, splitOn_cons, if_neg feed, splitOn_cons, if_neg feed,
          map_withoutReturn_modifyHead (Ne.symm other), ih rest,
          map_withoutReturn_modifyHead (Ne.symm other)]

theorem lines_withReturns {text : String} (clean : Unreturned text) :
    lines (withReturns text) = lines text := by
  have same := splitOn_returned clean
  have whole : ∀ chars : List (List Char), (chars.map fun line =>
      String.ofList (withoutReturn line)) = (chars.map withoutReturn).map String.ofList := by
    intro chars
    rw [List.map_map]
    rfl
  rw [lines, lines, whole, whole, withReturns, String.toList_ofList, same]

theorem linesBetween_withReturns {text : String} (clean : Unreturned text) (first last : Nat) :
    linesBetween (withReturns text) first last = linesBetween text first last := by
  rw [linesBetween, linesBetween, lines_withReturns clean]

end Lines

section Places

structure Aligned (place other : Location) : Prop where
  line : other.line = place.line
  column : other.column = place.column

structure Widened (text : List Char) (place other : Location) : Prop where
  aligned : Aligned place other
  within : place.index ≤ text.length
  index : other.index = (returned (text.take place.index)).length

theorem Aligned.next {place other : Location} (aligned : Aligned place other) (c : Char) :
    Aligned (place.next c) ((returned [c]).foldl Location.next other) := by
  rcases aligned with ⟨line, column⟩
  by_cases feed : c = '\n'
  · subst feed
    exact ⟨congrArg (· + 1) line, rfl⟩
  · rw [returned_cons feed, returned_nil, List.foldl_cons, List.foldl_nil, Location.next,
      Location.next, if_neg feed, if_neg feed]
    exact ⟨line, congrArg (· + 1) column⟩

theorem Aligned.through {place other : Location} (aligned : Aligned place other)
    (chars : List Char) : Aligned (place.through chars) (other.through (returned chars)) := by
  induction chars generalizing place other with
  | nil => exact aligned
  | cons c chars ih =>
      have step : returned (c :: chars) = returned [c] ++ returned chars :=
        returned_append [c] chars
      rw [step, Location.through, Location.through, List.foldl_append]
      exact ih (aligned.next c)

theorem Widened.behind {text : List Char} {a b c d : Location} (first : Widened text a b)
    (second : Widened text c d) : a.index < c.index ↔ b.index < d.index := by
  have grows : ∀ {i j : Nat}, i ≤ j →
      (returned (text.take j)).length =
        (returned (text.take i)).length + (returned ((text.take j).drop i)).length := by
    intro i j le
    have split : text.take j = text.take i ++ (text.take j).drop i := by
      have whole := List.take_append_drop i (text.take j)
      rw [List.take_take, Nat.min_eq_left le] at whole
      exact whole.symm
    rw [split, returned_append, List.length_append, ← split]
  rw [first.index, second.index]
  have bound := second.within
  constructor
  · intro less
    have least := length_le_returned ((text.take c.index).drop a.index)
    rw [List.length_drop, List.length_take] at least
    rw [grows (Nat.le_of_lt less)]
    omega
  · intro less
    by_contra notLess
    have most := grows (Nat.le_of_not_lt notLess)
    omega

end Places

end WidgetTree.Returns
