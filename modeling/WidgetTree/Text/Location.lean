namespace WidgetTree.Text

/-- The number of characters before a place, its line counted from one, its column from zero. The
program keeps line and column in 32 bits; natural numbers leave its overflow out, which only texts
of 4 GiB and more can come to. -/
structure Location where
  index : Nat := 0
  line : Nat := 0
  column : Nat := 0
  deriving DecidableEq, Repr, Inhabited

namespace Location

def origin : Location := ⟨0, 1, 0⟩

/-- The place after a character: a line feed begins a line, all else moves one column on. -/
def next (place : Location) (c : Char) : Location :=
  if c = '\n' then ⟨place.index + 1, place.line + 1, 0⟩
  else ⟨place.index + 1, place.line, place.column + 1⟩

def through (place : Location) (chars : List Char) : Location := chars.foldl next place

theorem index_next (place : Location) (c : Char) : (place.next c).index = place.index + 1 := by
  unfold next
  split <;> rfl

theorem index_through (place : Location) (chars : List Char) :
    (place.through chars).index = place.index + chars.length := by
  induction chars generalizing place with
  | nil => rfl
  | cons c cs ih =>
      have step : place.through (c :: cs) = (place.next c).through cs := rfl
      rw [step, ih, index_next, List.length_cons]
      omega

end Location

structure Span where
  start : Location := {}
  stop : Location := {}
  deriving DecidableEq, Repr, Inhabited

namespace Span

/-- A span that runs backwards has length zero. -/
def length (span : Span) : Nat := span.stop.index - span.start.index

def isEmpty (span : Span) : Bool := span.length = 0

/-- Compares indices alone: lines and columns play no part. -/
def contains (outer inner : Span) : Bool :=
  outer.start.index ≤ inner.start.index && inner.stop.index ≤ outer.stop.index

end Span

end WidgetTree.Text
