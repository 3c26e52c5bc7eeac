import Mathlib.Data.List.Forall2
import WidgetTree.Grammar.Significant
import WidgetTree.Proofs.Lexeme.Row

namespace WidgetTree.Grammar

open Lexeme (Kind Token)

variable {before : Option Token} {token : Token} {rest : List Token}

def Stays (kind : Kind) : Prop := kind.isTrivia = false ∧ kind ≠ .indentation

instance (kind : Kind) : Decidable (Stays kind) := inferInstanceAs (Decidable (_ ∧ _))

def Solid (kind : Kind) : Prop :=
  kind.category = .constant ∨ kind.category = .identifier ∨ kind.category = .punctuation

theorem Solid.ne {kind other : Kind} (solid : Solid kind)
    (layout : other.category = .whiteSpace ∨ other.category = .metadata) : kind ≠ other := by
  rintro rfl
  rcases layout with layout | layout <;> simp [Solid, layout] at solid

theorem Solid.not_trivia {kind : Kind} (solid : Solid kind) : kind.isTrivia = false := by
  cases kind <;> first | rfl | simp [Solid, Kind.category] at solid

theorem Solid.stays {kind : Kind} (solid : Solid kind) : Stays kind :=
  ⟨solid.not_trivia, solid.ne (.inl rfl)⟩

theorem significantFrom_sublist (before : Option Token) (tokens : List Token) :
    (significantFrom before tokens).Sublist tokens := by
  induction tokens generalizing before with
  | nil => exact List.Sublist.refl []
  | cons token rest ih =>
      rw [significantFrom]
      split
      · exact (ih before).cons token
      · split
        · exact (ih _).cons token
        · exact (ih _).cons_cons token

theorem significantFrom_trivia (trivia : token.isTrivia = true) :
    significantFrom before (token :: rest) = significantFrom before rest := by
  rw [significantFrom, if_pos trivia]

theorem significantFrom_stays (stays : Stays token.kind) :
    significantFrom before (token :: rest) = token :: significantFrom (some token) rest := by
  rw [significantFrom, if_neg (by simpa [Token.isTrivia] using stays.1),
    if_neg (by simp [stays.2])]

theorem mem_significantFrom {tokens : List Token} (stays : Stays token.kind)
    (member : token ∈ tokens) : token ∈ significantFrom before tokens := by
  induction tokens generalizing before with
  | nil => cases member
  | cons first rest ih =>
      rcases List.mem_cons.mp member with rfl | member
      · rw [significantFrom_stays stays]
        exact List.mem_cons_self
      · rw [significantFrom]
        split
        · exact ih member
        · split
          · exact ih member
          · exact List.mem_cons_of_mem _ (ih member)

def Filled : List Token → Prop
  | [] => True
  | token :: rest =>
      (token.kind = .indentation → ∃ next others, rest = next :: others ∧ Solid next.kind) ∧
        Filled rest

theorem significantFrom_eq_filter {tokens : List Token} (filled : Filled tokens)
    (before : Option Token) : significantFrom before tokens = tokens.filter (!·.isTrivia) := by
  induction tokens generalizing before with
  | nil => rfl
  | cons token rest ih =>
      rcases filled with ⟨behind, others⟩
      cases trivia : token.isTrivia with
      | true =>
          rw [significantFrom_trivia trivia, List.filter_cons_of_neg (by simp [trivia])]
          exact ih others before
      | false =>
          have next : (token.kind = .indentation && endsLine before &&
              endsLine (rest.find? (!·.isTrivia))) = false := by
            by_cases indentation : token.kind = .indentation
            · obtain ⟨next, after, rfl, solid⟩ := behind indentation
              have found : (next :: after).find? (!·.isTrivia) = some next :=
                List.find?_cons_of_pos (by simp [Token.isTrivia, solid.not_trivia])
              have unbroken : next.kind ≠ .newLine := solid.ne (.inl rfl)
              have goes : next.kind ≠ .endOfFile := solid.ne (.inr rfl)
              rw [found]
              simp [endsLine, unbroken, goes]
            · simp [indentation]
          rw [significantFrom, trivia, next, List.filter_cons_of_pos (by simp [trivia]),
            ih others (some token)]
          simp

theorem significantFrom_append_last {last : Token} (stays : Stays last.kind)
    (front : List Token) (before : Option Token) :
    ∃ kept, significantFrom before (front ++ [last]) = kept ++ [last] ∧ kept.Sublist front := by
  induction front generalizing before with
  | nil => exact ⟨[], significantFrom_stays stays, List.Sublist.refl []⟩
  | cons token rest ih =>
      rw [List.cons_append, significantFrom]
      split
      · obtain ⟨kept, split, less⟩ := ih before
        exact ⟨kept, split, less.cons token⟩
      · split
        · obtain ⟨kept, split, less⟩ := ih (some token)
          exact ⟨kept, split, less.cons token⟩
        · obtain ⟨kept, split, less⟩ := ih (some token)
          exact ⟨token :: kept, by rw [split, List.cons_append], less.cons_cons token⟩

theorem closed_append_last {last : Token} (ends : last.kind = .endOfFile) (front : List Token) :
    closed (front ++ [last]) = front ++ [last] := by
  rw [closed, List.getLast?_concat, if_pos (by simp [ends])]

theorem significant_append_last {last : Token} (ends : last.kind = .endOfFile)
    (front : List Token) :
    ∃ kept, significant (front ++ [last]) = kept ++ [last] ∧ kept.Sublist front := by
  have stays : Stays last.kind := by
    rw [ends]
    decide
  obtain ⟨kept, split, less⟩ := significantFrom_append_last stays front none
  exact ⟨kept, by rw [significant, split, closed_append_last ends], less⟩

theorem significant_eq (text : String) :
    significant (Lexeme.tokens text) = significantFrom none (Lexeme.tokens text) := by
  obtain ⟨front, last, split, ends, -⟩ := Lexeme.tokens_eq_append text
  have stays : Stays last.kind := by
    rw [ends]
    decide
  obtain ⟨kept, whole, -⟩ := significantFrom_append_last stays front none
  rw [split, significant, whole, closed_append_last ends]

/-- The row that the grammar reads of a text: it ends where the file does, and nowhere before. -/
theorem significant_tokens (text : String) :
    ∃ kept last, significant (Lexeme.tokens text) = kept ++ [last] ∧ last.kind = .endOfFile ∧
      (kept ++ [last]).Sublist (Lexeme.tokens text) ∧ (∀ token ∈ kept, token.kind ≠ .endOfFile) ∧
        ∀ token ∈ Lexeme.tokens text, Stays token.kind → token ∈ kept ++ [last] := by
  obtain ⟨front, last, split, ends, goes⟩ := Lexeme.tokens_eq_append text
  obtain ⟨kept, whole, less⟩ := significant_append_last ends front
  refine ⟨kept, last, by rw [split, whole], ends, ?_, fun token member => ?_, ?_⟩
  · rw [split]
    exact less.append_right [last]
  · exact goes token (less.subset member)
  · intro token member stays
    rw [← whole, ← split, significant, closed]
    have kept : token ∈ significantFrom none (Lexeme.tokens text) :=
      mem_significantFrom stays member
    split
    · exact kept
    · exact List.mem_append_left _ kept

theorem significantFrom_step (before : Option Token) (token : Token) (rest : List Token) :
    ∃ kept next, (kept = [] ∨ kept = [token]) ∧ ∀ others,
      others.find? (!·.isTrivia) = rest.find? (!·.isTrivia) →
        significantFrom before (token :: others) = kept ++ significantFrom next others := by
  by_cases trivia : token.isTrivia = true
  · exact ⟨[], before, .inl rfl, fun others _ => by rw [significantFrom, if_pos trivia]; rfl⟩
  by_cases blank : (token.kind = .indentation && endsLine before &&
      endsLine (rest.find? (!·.isTrivia))) = true
  · refine ⟨[], some token, .inl rfl, fun others same => ?_⟩
    rw [significantFrom, if_neg trivia, same, if_pos blank]
    rfl
  · refine ⟨[token], some token, .inr rfl, fun others same => ?_⟩
    rw [significantFrom, if_neg trivia, same, if_neg blank]
    rfl

section Related

variable {relation : Token → Token → Prop} {before before' : Option Token}
  {tokens tokens' : List Token}

theorem find?_related (kinds : ∀ a b, relation a b → a.kind = b.kind)
    (related : List.Forall₂ relation tokens tokens') :
    endsLine (tokens.find? (!·.isTrivia)) = endsLine (tokens'.find? (!·.isTrivia)) := by
  induction related with
  | nil => rfl
  | @cons a b tokens tokens' same rest ih =>
      have kind := kinds a b same
      have trivia : a.isTrivia = b.isTrivia := by rw [Token.isTrivia, Token.isTrivia, kind]
      rw [List.find?_cons, List.find?_cons, trivia]
      cases b.isTrivia with
      | true => exact ih
      | false => simp only [Bool.not_false, endsLine, kind]

theorem significantFrom_related (kinds : ∀ a b, relation a b → a.kind = b.kind)
    (related : List.Forall₂ relation tokens tokens')
    (ends : endsLine before = endsLine before') :
    List.Forall₂ relation (significantFrom before tokens) (significantFrom before' tokens') := by
  induction related generalizing before before' with
  | nil => exact .nil
  | @cons a b tokens tokens' same rest ih =>
      have kind := kinds a b same
      have trivia : a.isTrivia = b.isTrivia := by rw [Token.isTrivia, Token.isTrivia, kind]
      have next : endsLine (some a) = endsLine (some b) := by rw [endsLine, endsLine, kind]
      rw [significantFrom, significantFrom, trivia, kind, ends, find?_related kinds rest]
      split
      · exact ih ends
      · split
        · exact ih next
        · exact .cons same (ih next)

end Related

section Ends

variable {core tail tail' : List Token}

theorem significantFrom_of_ends (ends : ∀ token ∈ tail, endsLine (some token) = true)
    (before : Option Token) : significantFrom before tail = tail := by
  induction tail generalizing before with
  | nil => rfl
  | cons token rest ih =>
      rw [List.forall_mem_cons] at ends
      have stays : Stays token.kind := by
        have kind : token.kind = .newLine ∨ token.kind = .endOfFile := by
          simpa [endsLine] using ends.1
        rcases kind with kind | kind
        · rw [kind]
          decide
        · rw [kind]
          decide
      rw [significantFrom_stays stays, ih ends.2]

theorem significantFrom_append_ends (ends : ∀ token ∈ tail, endsLine (some token) = true)
    (ends' : ∀ token ∈ tail', endsLine (some token) = true) (before : Option Token)
    (core : List Token) :
    ∃ kept, significantFrom before (core ++ tail) = kept ++ tail ∧
      significantFrom before (core ++ tail') = kept ++ tail' := by
  induction core generalizing before with
  | nil => exact ⟨[], significantFrom_of_ends ends before, significantFrom_of_ends ends' before⟩
  | cons token core ih =>
      have closes : ∀ {tail : List Token}, (∀ token ∈ tail, endsLine (some token) = true) →
          endsLine (tail.find? (!·.isTrivia)) = true := by
        intro tail ends
        cases found : tail.find? (!·.isTrivia) with
        | none => rfl
        | some token => exact ends token (List.mem_of_find?_eq_some found)
      have next : endsLine ((core ++ tail).find? (!·.isTrivia)) =
          endsLine ((core ++ tail').find? (!·.isTrivia)) := by
        rw [List.find?_append, List.find?_append]
        cases core.find? (!·.isTrivia) with
        | none => rw [Option.none_or, Option.none_or, closes ends, closes ends']
        | some token => rfl
      rw [List.cons_append, List.cons_append, significantFrom, significantFrom, next]
      split
      · exact ih before
      · split
        · exact ih _
        · obtain ⟨kept, same, same'⟩ := ih (some token)
          exact ⟨token :: kept, congrArg _ same, congrArg _ same'⟩

end Ends

end WidgetTree.Grammar
