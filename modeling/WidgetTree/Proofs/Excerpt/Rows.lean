import WidgetTree.Proofs.Excerpt.Tokens
import WidgetTree.Proofs.Grammar.Spread
import WidgetTree.Proofs.Offside.Rows

namespace WidgetTree.Excerpt

open Grammar
open Lexeme (Token)
open Text (slice)
open WidgetTree.Tree (Node)

section Kept

variable {before : Option Token} {tokens front core rear : List Token}
  {token last : Token}

theorem significantFrom_behind (split : significantFrom before tokens = front ++ rear)
    (some : rear ≠ []) : ∃ left right before, tokens = left ++ right ∧
      significantFrom before right = rear ∧ right.head? = rear.head? := by
  induction tokens generalizing before front with
  | nil =>
      rw [significantFrom] at split
      exact absurd (List.append_eq_nil_iff.mp split.symm).2 some
  | cons token tokens ih =>
      obtain ⟨kept, next, one, step⟩ := significantFrom_step before token tokens
      have here := step tokens rfl
      rw [split] at here
      have further : ∀ {front}, significantFrom next tokens = front ++ rear →
          ∃ left right before, token :: tokens = left ++ right ∧
            significantFrom before right = rear ∧ right.head? = rear.head? := by
        intro front split
        obtain ⟨left, right, before, rfl, same, head⟩ := ih split
        exact ⟨token :: left, right, before, rfl, same, head⟩
      rcases one with rfl | rfl
      · exact further here.symm
      · cases front with
        | nil =>
            rw [List.nil_append] at here split
            exact ⟨[], token :: tokens, before, rfl, split, by rw [here]; rfl⟩
        | cons first front => exact further (List.cons.inj here).2.symm

theorem significantFrom_front (split : significantFrom before tokens = front ++ last :: rear)
    (stays : Stays last.kind) : ∃ left right, tokens = left ++ last :: right ∧ ∀ others,
      significantFrom before (left ++ last :: others) =
        front ++ last :: significantFrom (some last) others := by
  induction tokens generalizing before front with
  | nil =>
      rw [significantFrom] at split
      simp at split
  | cons token tokens ih =>
      obtain ⟨kept, next, one, step⟩ := significantFrom_step before token tokens
      have here := step tokens rfl
      rw [split] at here
      have further : ∀ {front'}, front = kept ++ front' →
          significantFrom next tokens = front' ++ last :: rear →
          ∃ left right, token :: tokens = left ++ last :: right ∧ ∀ others,
            significantFrom before (left ++ last :: others) =
              front ++ last :: significantFrom (some last) others := by
        intro front' whole split
        obtain ⟨left, right, rfl, again⟩ := ih split
        refine ⟨token :: left, right, rfl, fun others => ?_⟩
        have found : ∀ others, (last :: others).find? (!·.isTrivia) = some last := fun others =>
          List.find?_cons_of_pos (by simp [Token.isTrivia, stays.1])
        have same : (left ++ last :: others).find? (!·.isTrivia) =
            (left ++ last :: right).find? (!·.isTrivia) := by
          rw [List.find?_append, List.find?_append, found, found]
        rw [List.cons_append, step _ same, again others, whole, List.append_assoc]
      rcases one with rfl | rfl
      · exact further rfl here.symm
      · cases front with
        | nil =>
            obtain ⟨rfl, -⟩ := List.cons.inj here
            exact ⟨[], tokens, rfl, fun others => significantFrom_stays stays⟩
        | cons first front =>
            obtain ⟨rfl, behind⟩ := List.cons.inj here
            exact further rfl behind.symm

theorem significantFrom_of_head (stays : Stays token.kind) (head : token ∈ tokens.head?)
    (before before' : Option Token) :
    significantFrom before tokens = significantFrom before' tokens := by
  obtain ⟨rest, rfl⟩ := List.head?_eq_some_iff.mp head
  rw [significantFrom_stays stays, significantFrom_stays stays]

/-- The tokens from which some that are kept come; alone they keep the same, and what stands behind
them. -/
theorem exists_part {first : Token} (split : significantFrom none tokens = front ++ (core ++ rear))
    (head : first ∈ core.head?) (atEnd : last ∈ core.getLast?) (begins : Stays first.kind)
    (ends : Stays last.kind) :
    ∃ left inner right, tokens = left ++ (inner ++ right) ∧ first ∈ inner.head? ∧
      last ∈ inner.getLast? ∧ ∀ others,
        significantFrom none (inner ++ others) = core ++ significantFrom (some last) others := by
  obtain ⟨kept, rfl⟩ := List.getLast?_eq_some_iff.mp atEnd
  have filled : (kept ++ [last]) ++ rear ≠ [] := by simp
  obtain ⟨left, inner, before, rfl, behind, same⟩ := significantFrom_behind split filled
  rw [List.append_assoc, List.singleton_append] at behind
  obtain ⟨inner, right, rfl, again⟩ := significantFrom_front behind ends
  have some : inner ++ [last] ≠ [] := by simp
  have some' : kept ++ [last] ≠ [] := by simp
  have leads : ∀ others, first ∈ ((inner ++ [last]) ++ others).head? := by
    intro others
    rw [List.append_cons, List.head?_append_of_ne_nil (inner ++ [last]) some,
      List.head?_append_of_ne_nil (kept ++ [last]) some'] at same
    rw [List.head?_append_of_ne_nil (inner ++ [last]) some, same]
    exact head
  refine ⟨left, inner ++ [last], right, by simp, ?_, List.getLast?_concat, fun others => ?_⟩
  · have leads := leads []
    rwa [List.append_nil] at leads
  · rw [significantFrom_of_head begins (leads others) none before, List.append_assoc,
      List.singleton_append, again, List.append_assoc, List.singleton_append]

end Kept

/-- What the grammar keeps of an excerpt is what it keeps of the text there. -/
theorem significant_excerpt {text : String} {front core rear : List Token} {node : Node}
    (split : significant (Lexeme.tokens text) = front ++ (core ++ rear))
    (spans : Spans core node) :
    ∃ finish, finish.kind = .endOfFile ∧ List.Forall₂ (Echoes node.span.start) (core ++ [finish])
      (significant (Lexeme.tokens (slice text node.span))) := by
  obtain ⟨first, head, begins, start⟩ := spans.first
  obtain ⟨last, atEnd, ends, stop⟩ := spans.last
  rw [significant_eq] at split
  obtain ⟨left, inner, right, tokens, head', atEnd', again⟩ :=
    exists_part split head atEnd begins.stays ends.stays
  obtain ⟨finish, final, echoes⟩ := tokens_excerpt tokens head' atEnd' begins ends start stop
  have kept := significantFrom_related (fun _ _ echoes => echoes.kind) echoes
    (rfl : endsLine none = endsLine none)
  have finishStays : Stays finish.kind := by
    rw [final]
    decide
  rw [again, significantFrom_stays finishStays, significantFrom, ← significant_eq] at kept
  exact ⟨finish, final, kept⟩

end WidgetTree.Excerpt
