import Mathlib.Logic.Relation
import WidgetTree.Proofs.Grammar.Colons

/-!
Trivia and blank lines inserted into a row of tokens. Main definitions: `Insertion`, one of them is
inserted, and `Spaced`, what an insertion makes of the row that the grammar reads. Main statement:
`parse_inserted`, with any number of insertions the same is read and the same problem found.
-/

namespace WidgetTree.Grammar

open Lexeme (Token)
open WidgetTree.Tree (Document Node)

/-- What may stand on a blank line: trivia, and no more than one indentation. -/
inductive Blank : List Token → Prop
  | trivia {gap : List Token} (trivia : ∀ token ∈ gap, token.isTrivia = true) : Blank gap
  | indented {front rear : List Token} {indentation : Token}
      (lead : ∀ token ∈ front, token.isTrivia = true) (kind : indentation.kind = .indentation)
      (trail : ∀ token ∈ rear, token.isTrivia = true) : Blank (front ++ indentation :: rear)

/-- Trivia inserted anywhere, or a blank line behind a line break. -/
inductive Insertion : List Token → List Token → Prop
  | trivia (front rear : List Token) {token : Token} (trivia : token.isTrivia = true) :
      Insertion (front ++ rear) (front ++ token :: rear)
  | line (front rear : List Token) {newLine next : Token} {gap : List Token}
      (behind : newLine.kind = .newLine) (blank : Blank gap) (ends : next.kind = .newLine) :
      Insertion (front ++ newLine :: rear) (front ++ newLine :: (gap ++ next :: rear))

section Significant

variable {before before' : Option Token} {gap rear others : List Token} {token next : Token}

theorem significantFrom_congr (same : endsLine before = endsLine before') (tokens : List Token) :
    significantFrom before tokens = significantFrom before' tokens := by
  have related : List.Forall₂ (· = ·) tokens tokens := List.forall₂_refl tokens
  exact List.forall₂_eq_eq_eq ▸ significantFrom_related (fun _ _ same => same ▸ rfl) related same

theorem significantFrom_append_trivia (trivia : ∀ token ∈ gap, token.isTrivia = true)
    (before : Option Token) (rear : List Token) :
    significantFrom before (gap ++ rear) = significantFrom before rear := by
  induction gap with
  | nil => rfl
  | cons token gap ih =>
      rw [List.forall_mem_cons] at trivia
      rw [List.cons_append, significantFrom_trivia trivia.1, ih trivia.2]

theorem find?_append_trivia (trivia : ∀ token ∈ gap, token.isTrivia = true) (rear : List Token) :
    (gap ++ rear).find? (!·.isTrivia) = rear.find? (!·.isTrivia) := by
  have none : gap.find? (!·.isTrivia) = none := by simpa using trivia
  rw [List.find?_append, none, Option.none_or]

theorem significantFrom_append_alike
    (same : rear.find? (!·.isTrivia) = others.find? (!·.isTrivia)) (before : Option Token)
    (front : List Token) :
    ∃ kept next, significantFrom before (front ++ rear) = kept ++ significantFrom next rear ∧
      significantFrom before (front ++ others) = kept ++ significantFrom next others := by
  induction front generalizing before with
  | nil => exact ⟨[], before, rfl, rfl⟩
  | cons token front ih =>
      obtain ⟨first, middle, -, step⟩ := significantFrom_step before token (front ++ others)
      have goes : (front ++ rear).find? (!·.isTrivia) = (front ++ others).find? (!·.isTrivia) := by
        rw [List.find?_append, List.find?_append, same]
      obtain ⟨kept, next, split, split'⟩ := ih middle
      refine ⟨first ++ kept, next, ?_, ?_⟩
      · rw [List.cons_append, step _ goes, split, List.append_assoc]
      · rw [List.cons_append, step _ rfl, split', List.append_assoc]

theorem significantFrom_blank (blank : Blank gap) (begins : endsLine before = true)
    (ends : next.kind = .newLine) (rear : List Token) :
    significantFrom before (gap ++ next :: rear) = next :: significantFrom before rear := by
  have stays : Stays next.kind := by
    rw [ends]
    decide
  have found : (next :: rear).find? (!·.isTrivia) = some next :=
    List.find?_cons_of_pos (by simp [Token.isTrivia, stays.1])
  have closes : endsLine (some next) = true := by simp [endsLine, ends]
  have behind : significantFrom (some next) rear = significantFrom before rear :=
    significantFrom_congr (closes.trans begins.symm) rear
  cases blank with
  | trivia trivia =>
      rw [significantFrom_append_trivia trivia, significantFrom_stays stays, behind]
  | @indented front trail indentation lead kind trivia =>
      have layout : indentation.isTrivia = false := by
        rw [Token.isTrivia, kind]
        rfl
      rw [List.append_assoc, significantFrom_append_trivia lead, List.cons_append, significantFrom,
        find?_append_trivia trivia, found]
      simp only [layout, Bool.false_eq_true, if_false, kind, begins, closes, decide_true,
        Bool.and_self, if_true]
      rw [significantFrom_append_trivia trivia, significantFrom_stays stays, behind]

end Significant

/-- The same tokens up to the first end of the file, with further line breaks behind line breaks. -/
inductive Spaced : List Token → List Token → Prop
  | ended {last : Token} (ends : last.kind = .endOfFile) (rest others : List Token) :
      Spaced (last :: rest) (last :: others)
  | token (token : Token) {rest others : List Token} (behind : Spaced rest others) :
      Spaced (token :: rest) (token :: others)
  | line {newLine next : Token} {rest others : List Token} (breaks : newLine.kind = .newLine)
      (again : next.kind = .newLine) (behind : Spaced rest others) :
      Spaced (newLine :: rest) (newLine :: next :: others)
  | nil : Spaced [] []

namespace Spaced

variable {tokens others : List Token}

theorem refl (tokens : List Token) : Spaced tokens tokens := by
  induction tokens with
  | nil => exact .nil
  | cons token rest ih => exact .token token ih

theorem append (spaced : Spaced tokens others) (front : List Token) :
    Spaced (front ++ tokens) (front ++ others) := by
  induction front with
  | nil => exact spaced
  | cons token front ih => exact .token token ih

theorem append_of_ends (spaced : Spaced tokens others)
    (ends : ∃ token ∈ tokens, token.kind = .endOfFile) (tail tail' : List Token) :
    Spaced (tokens ++ tail) (others ++ tail') := by
  induction spaced with
  | ended last rest others => exact .ended last _ _
  | @token first rest others behind ih =>
      obtain ⟨last, member, kind⟩ := ends
      rcases List.mem_cons.mp member with rfl | member
      · exact .ended kind _ _
      · exact .token first (ih ⟨last, member, kind⟩)
  | @line newLine next rest others breaks again behind ih =>
      obtain ⟨last, member, kind⟩ := ends
      rcases List.mem_cons.mp member with rfl | member
      · cases breaks.symm.trans kind
      · exact .line breaks again (ih ⟨last, member, kind⟩)
  | nil => simp at ends

theorem lines (spaced : Spaced tokens others) :
    Spaced (skipNewLines tokens) (skipNewLines others) := by
  induction spaced with
  | @ended last ends rest others =>
      have stays : last.kind ≠ .newLine := by simp [ends]
      rw [skipNewLines_cons_of_ne stays, skipNewLines_cons_of_ne stays]
      exact .ended ends rest others
  | @token first rest others behind ih =>
      by_cases breaks : first.kind = .newLine
      · rw [skipNewLines_cons_of_eq breaks, skipNewLines_cons_of_eq breaks]
        exact ih
      · rw [skipNewLines_cons_of_ne breaks, skipNewLines_cons_of_ne breaks]
        exact .token first behind
  | line breaks again behind ih =>
      rw [skipNewLines_cons_of_eq breaks, skipNewLines_cons_of_eq breaks,
        skipNewLines_cons_of_eq again]
      exact ih
  | nil => exact .nil

theorem current_eq (spaced : Spaced tokens others) : current tokens = current others := by
  cases spaced with
  | ended | token | line | nil => rfl

end Spaced

def Pairing.spaced : Pairing where
  toLikeness := Pairing.itself.toLikeness
  row := Spaced
  problem := Eq
  step := by
    intro tokens others spaced
    have front : ∀ token, Pairing.itself.toLikeness.Front token token := fun token =>
      ⟨rfl, fun _ => ⟨rfl, rfl, fun _ => ⟨rfl, rfl⟩, fun _ => rfl⟩, fun _ => rfl⟩
    cases spaced with
    | @ended last ends rest others =>
        refine .token (front last) fun taken => ?_
        simp [ends, Solid, Lexeme.Kind.category] at taken
    | token token behind => exact .token (front token) fun _ => behind
    | @line newLine next rest others breaks again behind =>
        refine .token (front newLine) fun taken => ?_
        simp [breaks, Solid, Lexeme.Kind.category] at taken
    | nil => exact .done
  lines := Spaced.lines
  missed expected spaced := by rw [unexpected, unexpected, spaced.current_eq]
  caused cause _ spanned := by rw [spanned.eq]

section Inserted

variable {tokens others : List Token}

theorem Insertion.subset (insertion : Insertion tokens others) : tokens ⊆ others := by
  cases insertion with
  | trivia front rear trivia => simp
  | line front rear behind blank ends =>
      intro token member
      simp only [List.mem_append, List.mem_cons] at member ⊢
      tauto

theorem Insertion.ends (insertion : Insertion tokens others)
    (ends : ∃ token ∈ tokens, token.kind = .endOfFile) :
    ∃ token ∈ others, token.kind = .endOfFile := by
  obtain ⟨last, member, kind⟩ := ends
  exact ⟨last, insertion.subset member, kind⟩

theorem Insertion.significantFrom_spaced (insertion : Insertion tokens others) :
    Spaced (significantFrom none tokens) (significantFrom none others) := by
  cases insertion with
  | @trivia front rear token trivia =>
      have same : rear.find? (!·.isTrivia) = (token :: rear).find? (!·.isTrivia) :=
        (List.find?_cons_of_neg (by simp [trivia])).symm
      obtain ⟨kept, next, split, split'⟩ := significantFrom_append_alike same none front
      rw [split, split', significantFrom_trivia trivia]
      exact .refl _
  | @line front rear newLine next gap behind blank ends =>
      have stays : Stays newLine.kind := by
        rw [behind]
        decide
      have found : ∀ rest : List Token,
          (newLine :: rest).find? (!·.isTrivia) = some newLine := fun rest =>
        List.find?_cons_of_pos (by simp [Token.isTrivia, stays.1])
      have closes : endsLine (some newLine) = true := by simp [endsLine, behind]
      obtain ⟨kept, before, split, split'⟩ := significantFrom_append_alike
        ((found rear).trans (found (gap ++ next :: rear)).symm) none front
      rw [split, split', significantFrom_stays stays, significantFrom_stays stays,
        significantFrom_blank blank closes ends]
      exact (Spaced.line behind ends (.refl _)).append kept

theorem exists_significant_eq (tokens : List Token) :
    ∃ tail, significant tokens = significantFrom none tokens ++ tail := by
  rw [significant, closed]
  split
  · exact ⟨[], (List.append_nil _).symm⟩
  · exact ⟨_, rfl⟩

theorem Insertion.significant_spaced (insertion : Insertion tokens others)
    (ends : ∃ token ∈ tokens, token.kind = .endOfFile) :
    Spaced (significant tokens) (significant others) := by
  obtain ⟨last, member, kind⟩ := ends
  have stays : Stays last.kind := by
    rw [kind]
    decide
  obtain ⟨tail, split⟩ := exists_significant_eq tokens
  obtain ⟨tail', split'⟩ := exists_significant_eq others
  rw [split, split']
  exact insertion.significantFrom_spaced.append_of_ends
    ⟨last, mem_significantFrom stays member, kind⟩ tail tail'

theorem Spaced.parse_eq (spaced : Spaced (significant tokens) (significant others))
    (options : Options) :
    parseDocument options others = parseDocument options tokens ∧
      parseFragment options others = parseFragment options tokens := by
  have row : Pairing.spaced.row (significant tokens) (significant others) := spaced
  have documents : ∀ document other : Document, AlikeDocuments Eq document other →
      document = other := fun _ _ alike => alike.eq
  have nodes : ∀ node other : Node, Alike Eq node other → node = other :=
    fun node _ alike => eq_of_alike node alike
  constructor
  · exact (Agrees.eq (fun _ _ same => same) documents rfl (document_agrees id rfl row)).symm
  · exact (Agrees.eq (fun _ _ same => same) nodes rfl (fragment_agrees id rfl row)).symm

theorem Insertion.parse_eq (insertion : Insertion tokens others)
    (ends : ∃ token ∈ tokens, token.kind = .endOfFile) (options : Options) :
    parseDocument options others = parseDocument options tokens ∧
      parseFragment options others = parseFragment options tokens :=
  (insertion.significant_spaced ends).parse_eq options

/-- Trivia anywhere and blank lines behind line breaks change nothing that is read of a row or
reported on it. -/
theorem parse_inserted (options : Options) (text : String)
    (inserted : Relation.ReflTransGen Insertion tokens others)
    (ends : ∃ token ∈ tokens, token.kind = .endOfFile) :
    (parseDocument options others = parseDocument options tokens ∧
      reports text (parseDocument options others) = reports text (parseDocument options tokens)) ∧
    parseFragment options others = parseFragment options tokens ∧
      reports text (parseFragment options others) =
        reports text (parseFragment options tokens) := by
  have same : (∃ token ∈ others, token.kind = .endOfFile) ∧
      parseDocument options others = parseDocument options tokens ∧
      parseFragment options others = parseFragment options tokens := by
    induction inserted with
    | refl => exact ⟨ends, rfl, rfl⟩
    | tail _ insertion ih =>
        obtain ⟨ends, document, fragment⟩ := ih
        obtain ⟨document', fragment'⟩ := insertion.parse_eq ends options
        exact ⟨insertion.ends ends, document'.trans document, fragment'.trans fragment⟩
  obtain ⟨-, document, fragment⟩ := same
  rw [document, fragment]
  exact ⟨⟨rfl, rfl⟩, rfl, rfl⟩

/-- A comment behind a header, and a blank line with an indentation of its own below it. -/
theorem parse_inserted_comment :
    ∃ tokens others : List Token, tokens.length + 4 = others.length ∧
      Relation.ReflTransGen Insertion tokens others ∧
      (∃ token ∈ tokens, token.kind = .endOfFile) ∧ (parseFragment {} tokens).isOk = true ∧
      parseFragment {} others = parseFragment {} tokens := by
  let header : Token := ⟨.widget, "Text", {}⟩
  let newLine : Token := ⟨.newLine, "\n", {}⟩
  let indentation : Token := ⟨.indentation, "\t", ⟨{}, ⟨1, 0, 1⟩⟩⟩
  let rest : List Token := [indentation, ⟨.identifier, "bold", {}⟩, ⟨.endOfFile, "", {}⟩]
  let note : Token := ⟨.lineComment, "! a note", {}⟩
  let deep : Token := ⟨.indentation, "\t\t", ⟨{}, ⟨2, 0, 2⟩⟩⟩
  let late : Token := ⟨.blockComment, "!!!!", {}⟩
  have first : Insertion (header :: newLine :: rest) (header :: note :: newLine :: rest) :=
    .trivia [header] (newLine :: rest) rfl
  have second : Insertion (header :: note :: newLine :: rest)
      (header :: note :: newLine :: ([deep, late] ++ newLine :: rest)) :=
    .line [header, note] rest rfl (.indented (List.forall_mem_nil _) rfl (by simp [late]; rfl)) rfl
  have inserted := Relation.ReflTransGen.refl.tail first |>.tail second
  have ends : ∃ token ∈ header :: newLine :: rest, token.kind = .endOfFile := by simp [rest]
  exact ⟨_, _, rfl, inserted, ends, by decide +kernel,
    (parse_inserted {} "" inserted ends).2.1⟩

end Inserted

end WidgetTree.Grammar
