import WidgetTree.Proofs.Grammar.Places
import WidgetTree.Proofs.Lexeme.Places
import WidgetTree.Proofs.Offside.Rule

namespace WidgetTree.Offside

open Grammar
open Lexeme (Ahead Indents Kind Token)
open WidgetTree.Tree (Document Node)

structure Laid (row : List Token) : Prop where
  ordered : row.Pairwise Ahead
  indents : row.IsChain Indents

section Rows

variable {before : Option Token} {tokens : List Token} {token : Token}

theorem head_of_head_significantFrom (indents : tokens.IsChain Indents)
    (head : token ∈ (significantFrom before tokens).head?)
    (indentation : token.kind = .indentation) : token ∈ tokens.head? := by
  induction tokens generalizing before with
  | nil => exact head
  | cons first rest ih =>
      have behind : token ∈ rest.head? → first.kind = .newLine := fun next =>
        indents.rel_head? next indentation
      rw [significantFrom] at head
      split at head
      · next trivia =>
          have newLine := behind (ih indents.tail head)
          rw [Token.isTrivia, newLine] at trivia
          cases trivia
      · split at head
        · next blank =>
            have newLine := behind (ih indents.tail head)
            simp [newLine] at blank
        · exact head

theorem significantFrom_isChain (indents : tokens.IsChain Indents) (before : Option Token) :
    (significantFrom before tokens).IsChain Indents := by
  induction tokens generalizing before with
  | nil => exact indents
  | cons first rest ih =>
      rw [significantFrom]
      split
      · exact ih indents.tail before
      · split
        · exact ih indents.tail (some first)
        · apply (ih indents.tail (some first)).cons
          intro token head indentation
          have next := head_of_head_significantFrom indents.tail head indentation
          exact indents.rel_head? next indentation

theorem laid_significant {text : String}
    (sound : ∀ token ∈ Lexeme.tokens text, token.kind ≠ .error) :
    Laid (significant (Lexeme.tokens text)) := by
  rw [significant_eq]
  exact ⟨(Lexeme.tokens_pairwise text).sublist (significantFrom_sublist none _),
    significantFrom_isChain (Lexeme.tokens_isChain sound) none⟩

end Rows

section Before

variable {row front gap tokens rest others : List Token} {token : Token}

theorem split_behind (split : row = front ++ tokens) (inside : tokens = gap ++ rest) :
    row = (front ++ gap) ++ rest := by
  rw [split, inside, List.append_assoc]

theorem before_eq (laid : Laid row) (split : row = front ++ token :: others) :
    before row token.span.start = front := by
  subst split
  have ahead : ∀ other ∈ front, Ahead other token := fun other member =>
    (List.pairwise_append.mp laid.ordered).2.2 other member token List.mem_cons_self
  rw [before, List.takeWhile_append_of_pos, List.takeWhile_cons_of_neg (by simp),
    List.append_nil]
  intro other member
  apply decide_eq_true
  intro same
  have less : other.span.start.index < token.span.start.index := ahead other member
  rw [same] at less
  exact Nat.lt_irrefl _ less

theorem onward_eq (laid : Laid row) (split : row = front ++ token :: others) :
    onward row token.span.start = token :: others := by
  have whole : before row token.span.start ++ onward row token.span.start = row :=
    List.takeWhile_append_dropWhile
  rw [before_eq laid split] at whole
  exact List.append_cancel_left (whole.trans split)

end Before

section Lines

variable {row front gap more : List Token} {first indentation : Token} {parent child node : Node}

theorem between_eq
    (behind : before row child.span.start = before row parent.span.start ++ gap) :
    between row parent child = gap := by
  rw [between, behind, List.drop_left]

theorem breaks_append : Breaks (gap ++ more) ↔ Breaks gap ∨ Breaks more := by
  simp only [Breaks, List.mem_append, or_and_right, exists_or]

theorem Breaks.of_drop {n : Nat} (breaks : Breaks (gap.drop n)) : Breaks gap := by
  rcases breaks with ⟨token, member, newLine⟩
  exact ⟨token, List.mem_of_mem_drop member, newLine⟩

theorem Breaks.of_drop_append (breaks : Breaks (more.drop (front ++ gap).length)) :
    Breaks (more.drop front.length) := by
  rw [List.length_append, ← List.drop_drop] at breaks
  exact breaks.of_drop

theorem unbroken_of_kind {kind : Kind} (same : ∀ token ∈ gap, token.kind = kind)
    (other : kind ≠ .newLine) : ¬ Breaks gap := by
  intro breaks
  rcases breaks with ⟨token, member, newLine⟩
  exact other ((same token member).symm.trans newLine)

theorem unbroken_nil : ¬ Breaks [] := by simp [Breaks]

theorem unbroken_cons {token : Token} (solid : Solid token.kind) (unbroken : ¬ Breaks gap) :
    ¬ Breaks (token :: gap) := by
  intro breaks
  rcases breaks with ⟨other, member, newLine⟩
  rcases List.mem_cons.mp member with rfl | inside
  · exact solid.ne (.inl rfl) newLine
  · exact unbroken ⟨other, inside, newLine⟩

theorem lastLine_append (unbroken : ¬ Breaks gap) :
    lastLine (front ++ gap) = lastLine front ++ gap := by
  have goes : ∀ token ∈ gap.reverse, decide (token.kind ≠ .newLine) = true :=
    fun token member => decide_eq_true fun newLine =>
      unbroken ⟨token, List.mem_reverse.mp member, newLine⟩
  rw [lastLine, List.rtakeWhile, List.reverse_append, List.takeWhile_append_of_pos goes,
    List.reverse_append, List.reverse_reverse]
  rfl

theorem level_eq_of_unbroken (solid : first.kind ≠ .indentation)
    (behind : before row child.span.start = before row parent.span.start ++ first :: more)
    (unbroken : ¬ Breaks (first :: more)) : level row child = level row parent := by
  rw [level, level, behind, lastLine_append unbroken]
  cases lastLine (before row parent.span.start) with
  | nil => exact if_neg solid
  | cons token others => rfl

theorem level_of_indentation (laid : Laid row) (kind : indentation.kind = .indentation)
    (behind : before row node.span.start = front ++ [indentation]) :
    level row node = indentation.span.length := by
  have whole : before row node.span.start ++ onward row node.span.start = row :=
    List.takeWhile_append_dropWhile
  have indents := laid.indents
  rw [← whole, behind] at indents
  have start : lastLine front = [] := by
    rw [lastLine, List.rtakeWhile_eq_nil_iff]
    intro some
    have newLine : (front.getLast some).kind = .newLine :=
      indents.left_of_append.rel_getLast_head_of_append some (List.cons_ne_nil _ _) kind
    simp [newLine]
  have unbroken : ¬ Breaks [indentation] := by
    intro breaks
    rcases breaks with ⟨token, member, newLine⟩
    rw [List.mem_singleton.mp member, kind] at newLine
    cases newLine
  rw [level, behind, lastLine_append unbroken, start, List.nil_append]
  exact if_pos kind

theorem opening_of_indentation (kind : indentation.kind = .indentation)
    (behind : before row node.span.start = front ++ [indentation]) :
    opening? row node = some indentation := by
  rw [opening?, behind, List.getLast?_concat]
  exact if_pos (decide_eq_true kind)

theorem opening_of_closed (closed : Closed gap) (some : gap ≠ [])
    (behind : before row node.span.start = front ++ gap) : opening? row node = none := by
  rw [opening?, behind, List.getLast?_append_of_ne_nil front some, Option.filter_eq_none_iff]
  intro token last
  simpa using closed token last

end Lines

end WidgetTree.Offside
