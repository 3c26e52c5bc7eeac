import Mathlib.Data.List.Chain
import Mathlib.Data.List.DropRight
import WidgetTree.Compilation

/-!
The offside rule, and the rows that break it although they are read. Main definitions:
`OffsideRule`, every child stands on its parent's line or on a line that is indented deeper, and
`Orderly`, none of the three ways out of the rule is taken.
-/

namespace WidgetTree.Offside

open Grammar (lineIndent)
open Lexeme (Kind Token)
open Text (Location)
open WidgetTree.Tree (Node)

mutual

/-- The parents of a tree, each with its children one by one. -/
def families : Node → List (Node × Node)
  | .leaf .. => []
  | .single role name child span =>
      (.single role name child span, child) :: families child
  | .many role name children span =>
      children.map (.many role name children span, ·) ++ familiesOf children

def familiesOf : List Node → List (Node × Node)
  | [] => []
  | node :: more => families node ++ familiesOf more

end

def before (row : List Token) (place : Location) : List Token :=
  row.takeWhile (·.span.start ≠ place)

def onward (row : List Token) (place : Location) : List Token :=
  row.dropWhile (·.span.start ≠ place)

/-- The tokens from the first one of a parent up to the first one of a child. The name of a
property follows its point at once. -/
def between (row : List Token) (parent child : Node) : List Token :=
  (before row child.span.start).drop (before row parent.span.start).length

def Breaks (tokens : List Token) : Prop := ∃ token ∈ tokens, token.kind = .newLine

instance (tokens : List Token) : Decidable (Breaks tokens) :=
  inferInstanceAs (Decidable (∃ token ∈ tokens, token.kind = .newLine))

def lastLine (tokens : List Token) : List Token := tokens.rtakeWhile (·.kind ≠ .newLine)

def level (row : List Token) (node : Node) : Nat :=
  lineIndent 0 (lastLine (before row node.span.start))

def opening? (row : List Token) (node : Node) : Option Token :=
  (before row node.span.start).getLast?.filter (·.kind = .indentation)

def Deeper (row : List Token) (indent : Nat) (node : Node) : Prop :=
  ∃ indentation ∈ opening? row node, indent < indentation.span.length

instance (row : List Token) (indent : Nat) (node : Node) : Decidable (Deeper row indent node) :=
  inferInstanceAs (Decidable (∃ indentation ∈ opening? row node, _))

def InPlace (row : List Token) (parent child : Node) : Prop :=
  ¬ Breaks (between row parent child) ∨ Deeper row (level row parent) child

instance (row : List Token) (parent child : Node) : Decidable (InPlace row parent child) :=
  inferInstanceAs (Decidable (_ ∨ _))

/-- A line goes on with the view only where it is indented; others end the text. -/
def Rejects (a b : Token) : Prop :=
  a.kind = .newLine → b.kind ∈ [Kind.newLine, .indentation, .endOfFile]

instance : DecidableRel Rejects := fun _ _ => inferInstanceAs (Decidable (_ → _))

/-- The offside rule for the tree of a view. -/
structure OffsideRule (row : List Token) (view : Node) : Prop where
  inPlace : ∀ family ∈ families view, InPlace row family.1 family.2
  rejects : (onward row view.span.start).IsChain Rejects

/-- A line break stands between the two, but no indentation in front of the child: a block on the
way has taken the line break, and the parent's line goes on behind it. -/
def Carried (row : List Token) (parent child : Node) : Prop :=
  Breaks (between row parent child) ∧ opening? row child = none

instance (row : List Token) (parent child : Node) : Decidable (Carried row parent child) :=
  inferInstanceAs (Decidable (_ ∧ _))

/-- The parent stands on the view's own line, which counts as not indented, and the child on a line
that is indented no deeper. -/
def Undercut (row : List Token) (view parent child : Node) : Prop :=
  ¬ Breaks (between row view parent) ∧ Breaks (between row parent child) ∧
    ∃ indentation ∈ opening? row child, indentation.span.length ≤ level row parent

instance (row : List Token) (view parent child : Node) :
    Decidable (Undercut row view parent child) :=
  inferInstanceAs (Decidable (_ ∧ _))

/-- No line begins with a comma or a colon: neither belongs to a node below. -/
def Bare (a b : Token) : Prop := a.kind = .newLine → b.kind ≠ .comma ∧ b.kind ≠ .colon

instance : DecidableRel Bare := fun _ _ => inferInstanceAs (Decidable (_ → _))

/-- None of the ways out of the offside rule is taken. -/
structure Orderly (row : List Token) (view : Node) : Prop where
  uncarried : ∀ family ∈ families view, ¬ Carried row family.1 family.2
  undercut : ∀ family ∈ families view, ¬ Undercut row view family.1 family.2
  bare : (onward row view.span.start).IsChain Bare

instance (row : List Token) (view : Node) : Decidable (Orderly row view) :=
  decidable_of_iff
    ((∀ family ∈ families view, ¬ Carried row family.1 family.2) ∧
      (∀ family ∈ families view, ¬ Undercut row view family.1 family.2) ∧
        (onward row view.span.start).IsChain Bare)
    ⟨fun ⟨uncarried, undercut, bare⟩ => ⟨uncarried, undercut, bare⟩,
      fun ⟨uncarried, undercut, bare⟩ => ⟨uncarried, undercut, bare⟩⟩

theorem InPlace.not_carried {row : List Token} {parent child : Node}
    (inPlace : InPlace row parent child) : ¬ Carried row parent child := by
  intro carried
  rcases carried with ⟨breaks, unopened⟩
  rcases inPlace with unbroken | ⟨indentation, opening, -⟩
  · exact unbroken breaks
  · rw [unopened] at opening
    cases opening

theorem InPlace.not_undercut {row : List Token} {view parent child : Node}
    (inPlace : InPlace row parent child) : ¬ Undercut row view parent child := by
  intro undercut
  rcases undercut with ⟨-, breaks, indentation, opening, shallow⟩
  rcases inPlace with unbroken | ⟨other, opens, deeper⟩
  · exact unbroken breaks
  · cases Option.mem_unique opening opens
    exact Nat.not_lt.mpr shallow deeper

theorem Rejects.bare {a b : Token} (rejects : Rejects a b) : Bare a b := by
  intro newLine
  have kind := rejects newLine
  constructor
  · intro comma
    simp [comma] at kind
  · intro colon
    simp [colon] at kind

theorem OffsideRule.orderly {row : List Token} {view : Node} (rule : OffsideRule row view) :
    Orderly row view where
  uncarried family member := (rule.inPlace family member).not_carried
  undercut family member := (rule.inPlace family member).not_undercut
  bare := rule.rejects.imp fun _ _ => Rejects.bare

end WidgetTree.Offside
