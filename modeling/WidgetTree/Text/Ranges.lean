namespace WidgetTree.Text

/-- Ascending, disjoint ranges of code points, both ends included. -/
abbrev Ranges := List (Nat × Nat)

def Ranges.contains : Ranges → Nat → Bool
  | [], _ => false
  | (first, last) :: rest, n => !(n < first) && (n ≤ last || contains rest n)

end WidgetTree.Text
