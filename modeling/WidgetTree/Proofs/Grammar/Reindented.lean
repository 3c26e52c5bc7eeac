import Mathlib.Order.Monotone.Basic
import WidgetTree.Compilation
import WidgetTree.Proofs.Grammar.Colons
import WidgetTree.Proofs.Lexeme.Redrawn
import WidgetTree.Proofs.Outline.Writing

/-!
Rows and texts that are indented otherwise. The rules compare indentations and ask for nothing else
of them, so their order is all that counts. Main statement: `parse_reindented`, what is read of a
row or of a text does not change with the lengths of its indentations as long as their order stays.
-/

namespace WidgetTree.Grammar

open Lexeme (Cut Redrawn Token endToken placed)
open Text (Location)
open WidgetTree.Tree (Document Node Property)

/-- The same token; the length of an indentation is changed by `relength`. -/
structure Reindented (relength : Nat → Nat) (token other : Token) : Prop where
  kind : other.kind = token.kind
  value : other.value = token.value
  span : token.kind ≠ .indentation → other.span = token.span
  length : token.kind = .indentation → other.span.length = relength token.span.length

theorem deeper_of_strictMono {relength : Nat → Nat} (increasing : StrictMono relength)
    {a b c d : Nat} (level : b = relength a) (level' : d = relength c) : a < c ↔ b < d := by
  rw [level, level', increasing.lt_iff_lt]

def reindenting {relength : Nat → Nat} (increasing : StrictMono relength) : Likeness where
  place := Eq
  level indent other := other = relength indent
  later := later_of_eq
  deeper := deeper_of_strictMono increasing

structure Likeness.Quoted (like : Likeness) (token other : Lexeme.Token) : Prop extends
    Likeness.Front like token other where
  value : token.value = other.value

section Rows

variable {relength : Nat → Nat} {like : Likeness} {token other : Lexeme.Token}
  {tokens others : List Lexeme.Token}

theorem Reindented.quoted (increasing : StrictMono relength)
    (same : Reindented relength token other) : (reindenting increasing).Quoted token other where
  kind := same.kind.symm
  solid solid := by
    have kept := same.span (solid.ne (.inl rfl))
    exact ⟨same.kind.symm, same.value.symm, fun _ => kept ▸ ⟨rfl, rfl⟩, same.length⟩
  level := same.length
  value := same.value.symm

theorem Likeness.Quoted.quote (quoted : like.Quoted token other) : token.quote = other.quote := by
  rw [Token.quote, Token.quote, quoted.kind, quoted.value]

theorem quoted_endAfter (last last' : Option Lexeme.Token) :
    like.Quoted (endAfter last) (endAfter last') := by
  have ended : ∀ last : Option Lexeme.Token,
      (endAfter last).kind = .endOfFile ∧ (endAfter last).value = "" := by
    intro last
    cases last with
    | none | some => exact ⟨rfl, rfl⟩
  refine ⟨⟨(ended last).1.trans (ended last').1.symm, fun solid => ?_, fun indentation => ?_⟩,
    (ended last).2.trans (ended last').2.symm⟩
  · exact absurd (ended last).1 (solid.ne (.inr rfl))
  · cases (ended last).1.symm.trans indentation

theorem closed_quoted (row : List.Forall₂ like.Quoted tokens others) :
    List.Forall₂ like.Quoted (closed tokens) (closed others) := by
  have last := getLast?_alike row
  have same : tokens.getLast?.any (·.kind = .endOfFile) =
      others.getLast?.any (·.kind = .endOfFile) := by
    generalize tokens.getLast? = token?, others.getLast? = other? at last ⊢
    cases last with
    | none => rfl
    | some quoted => simp only [Option.any_some, quoted.kind]
  rw [closed, closed, same]
  split
  · exact row
  · exact List.rel_append row (.cons (quoted_endAfter _ _) .nil)

theorem significant_quoted (row : List.Forall₂ like.Quoted tokens others) :
    List.Forall₂ like.Quoted (significant tokens) (significant others) :=
  closed_quoted (significantFrom_related (fun _ _ quoted => quoted.kind) row rfl)

end Rows

def Likeness.quoting (like : Likeness) : Pairing :=
  .ofTokens like (fun _ _ (quoted : like.Quoted _ _) => quoted.toFront)
    (fun problem other => problem.cause = other.cause)
    (fun expected row => by
      cases row with
      | nil => rfl
      | cons quoted _ => simp only [unexpected, current, quoted.quote])
    fun _ _ _ => rfl

section Trees

variable {place : Location → Location → Prop}

mutual

theorem withoutSpans_alike (node : Node) {other : Node} (alike : Alike place node other) :
    node.withoutSpans = other.withoutSpans := by
  cases alike with
  | leaf leaf value spanned => rfl
  | @single role name child child' _ _ below spanned =>
      rw [Node.withoutSpans, Node.withoutSpans, withoutSpans_alike child below]
  | @many role name children children' _ _ below spanned =>
      rw [Node.withoutSpans, Node.withoutSpans, withoutSpansAll_alike children below]

theorem withoutSpansAll_alike (nodes : List Node) {others : List Node}
    (alike : List.Forall₂ (Alike place) nodes others) :
    Tree.withoutSpansAll nodes = Tree.withoutSpansAll others := by
  cases alike with
  | nil => rfl
  | @cons node other nodes others first rest =>
      rw [Tree.withoutSpansAll, Tree.withoutSpansAll, withoutSpans_alike node first,
        withoutSpansAll_alike nodes rest]

end

theorem AlikeProperties.withoutSpans {property other : Property}
    (alike : AlikeProperties place property other) :
    property.withoutSpans = other.withoutSpans := by
  rcases property with ⟨name, child, span⟩
  rcases other with ⟨name', child', span'⟩
  cases alike with
  | single _ _ below _ =>
      rw [Property.withoutSpans, Property.withoutSpans, withoutSpans_alike child below]

theorem AlikeDocuments.withoutSpans {document other : Document}
    (alike : AlikeDocuments place document other) :
    document.withoutSpans = other.withoutSpans := by
  rw [Document.withoutSpans, Document.withoutSpans, alike.kind, alike.viewModel.withoutSpans,
    alike.view.withoutSpans]

end Trees

section Texts

variable {relength : Nat → Nat} {increasing : StrictMono relength}

def redrawing {relength : Nat → Nat} (increasing : StrictMono relength) : Likeness where
  place _ _ := True
  level indent other := other = relength indent
  later _ _ := trivial
  deeper := deeper_of_strictMono increasing

theorem front_of_redrawn {cut other : Cut} (redrawn : cut.Redrawn relength other)
    (place place' : Location) :
    (redrawing increasing).Front (cut.token place) (other.token place') where
  kind := redrawn.kind.symm
  solid solid := by
    have stays : cut.kind ≠ .indentation := solid.ne (.inl rfl)
    have value : other.bare.value = cut.bare.value := congrArg Cut.value (redrawn.same stays)
    exact ⟨redrawn.kind.symm, congrArg String.ofList value.symm, fun _ => ⟨trivial, trivial⟩,
      fun kind => absurd kind stays⟩
  level kind := by
    have width : ∀ (cut : Cut) (place : Location),
        (cut.token place).span.length = cut.taken.length := by
      intro cut place
      rw [Cut.token, Text.Span.length, Lexeme.index_after, Nat.add_sub_cancel_left]
    rw [width, width]
    exact redrawn.length kind

theorem placed_redrawn {cuts others : List Cut}
    (redrawn : List.Forall₂ (Cut.Redrawn relength) cuts others) (place place' : Location) :
    List.Forall₂ (redrawing increasing).Front (placed place cuts) (placed place' others) := by
  induction redrawn generalizing place place' with
  | nil => exact .nil
  | cons first _ ih => exact .cons (front_of_redrawn first place place') (ih _ _)

theorem significant_redrawn {text other : String} (increasing : StrictMono relength)
    (positive : ∀ n, 0 < n → 0 < relength n)
    (redrawn : Redrawn relength (Lexeme.cutsFrom true text.toList) other.toList) :
    List.Forall₂ (redrawing increasing).Front (significant (Lexeme.tokens text))
      (significant (Lexeme.tokens other)) := by
  have ended : ∀ place place' : Location,
      (redrawing increasing).Front (endToken place) (endToken place') := by
    intro place place'
    refine ⟨rfl, fun solid => ?_, nofun⟩
    exact absurd rfl (solid.ne (.inr rfl))
  rw [significant_eq, significant_eq, Lexeme.tokens_eq_placed, Lexeme.tokens_eq_placed]
  refine significantFrom_related (fun _ _ front => front.kind) ?_ rfl
  exact List.rel_append (placed_redrawn (redrawn.cuts positive) _ _) (.cons (ended _ _) .nil)

def Likeness.fronting (like : Likeness) : Pairing :=
  .ofTokens like (fun _ _ (front : like.Front _ _) => front) (fun _ _ => True)
    (fun _ _ => trivial) fun _ _ _ => trivial

theorem Agrees.toOption_eq {pairing : Pairing} {options : Options} {α β : Type}
    {related : α → α → Prop} {outcome outcome' : Except Problem α} (tell : α → β)
    (values : ∀ value other, related value other → tell value = tell other)
    (agrees : Agrees pairing options options related outcome outcome') :
    outcome.toOption.map tell = outcome'.toOption.map tell := by
  cases agrees with
  | read same => exact congrArg some (values _ _ same)
  | stopped _ _ => rfl
  | refused lax strict _ => exact absurd (lax.symm.trans strict) Bool.false_ne_true

end Texts

/-- Under indentations of other lengths in the same order the same document and the same node are
read, places included, or the same is wrong. A text that is indented otherwise holds the same tree,
whatever the width, in spaces or in tabs. -/
theorem parse_reindented {relength : Nat → Nat} (increasing : StrictMono relength)
    (flat : relength 0 = 0) (options : Options) :
    (∀ tokens others : List Token, List.Forall₂ (Reindented relength) tokens others →
      (parseDocument options tokens).mapError (·.cause) =
          (parseDocument options others).mapError (·.cause) ∧
        (parseFragment options tokens).mapError (·.cause) =
          (parseFragment options others).mapError (·.cause)) ∧
    ∀ text other : String, Redrawn relength (Lexeme.cutsFrom true text.toList) other.toList →
      (compile options text).outcome.toOption.map Document.withoutSpans =
          (compile options other).outcome.toOption.map Document.withoutSpans ∧
        (parseFragment options (Lexeme.tokens text)).toOption.map Node.withoutSpans =
          (parseFragment options (Lexeme.tokens other)).toOption.map Node.withoutSpans := by
  constructor
  · intro tokens others same
    have row : (reindenting increasing).quoting.row (significant tokens) (significant others) :=
      significant_quoted (same.imp fun _ _ same => same.quoted increasing)
    have documents : ∀ document other : Document, AlikeDocuments Eq document other →
        document = other := fun _ _ alike => alike.eq
    have nodes : ∀ node other : Node, Alike Eq node other → node = other :=
      fun node _ alike => eq_of_alike node alike
    constructor
    · exact Agrees.mapError_eq _ (fun _ _ same => same) documents rfl
        (document_agrees id flat.symm row)
    · exact Agrees.mapError_eq _ (fun _ _ same => same) nodes rfl (fragment_agrees id flat.symm row)
  · intro text other redrawn
    have positive : ∀ n, 0 < n → 0 < relength n := fun n some => flat ▸ increasing some
    have row : (redrawing increasing).fronting.row (significant (Lexeme.tokens text))
        (significant (Lexeme.tokens other)) := significant_redrawn increasing positive redrawn
    constructor
    · exact Agrees.toOption_eq _ (fun _ _ alike => alike.withoutSpans)
        (document_agrees id flat.symm row)
    · exact Agrees.toOption_eq _ (fun node _ alike => withoutSpans_alike node alike)
        (fragment_agrees id flat.symm row)

/-- A block three tabs deep inside a block one tab deep, then under two and six spaces; and a text
with such blocks. -/
theorem parse_reindented_spaces :
    ∃ (tokens others : List Token) (text other : String),
      StrictMono (2 * ·) ∧ List.Forall₂ (Reindented (2 * ·)) tokens others ∧ tokens ≠ others ∧
      (parseFragment .strict tokens).isOk = true ∧
      (parseFragment .strict tokens).mapError (·.cause) =
        (parseFragment .strict others).mapError (·.cause) ∧
      Redrawn (2 * ·) (Lexeme.cutsFrom true text.toList) other.toList ∧ text ≠ other ∧
      (parseFragment .strict (Lexeme.tokens text)).isOk = true ∧
      (parseFragment .strict (Lexeme.tokens text)).toOption.map Node.withoutSpans =
        (parseFragment .strict (Lexeme.tokens other)).toOption.map Node.withoutSpans := by
  let lines (deep deeper : Token) : List Token :=
    [⟨.widget, "Row", {}⟩, ⟨.colon, ":", {}⟩, ⟨.newLine, "\n", {}⟩, deep, ⟨.widget, "Text", {}⟩,
      ⟨.colon, ":", {}⟩, ⟨.newLine, "\n", {}⟩, deeper, ⟨.string, "a", {}⟩, ⟨.endOfFile, "", {}⟩]
  let tokens := lines ⟨.indentation, "\t", ⟨{}, ⟨1, 0, 1⟩⟩⟩ ⟨.indentation, "\t", ⟨{}, ⟨3, 0, 3⟩⟩⟩
  let others := lines ⟨.indentation, "\t", ⟨{}, ⟨2, 0, 2⟩⟩⟩ ⟨.indentation, "\t", ⟨{}, ⟨6, 0, 6⟩⟩⟩
  have increasing : StrictMono (2 * ·) := fun _ _ less => by dsimp only; omega
  have kept (token : Token) (other : token.kind ≠ .indentation) :
      Reindented (2 * ·) token token :=
    ⟨rfl, rfl, fun _ => rfl, fun indentation => absurd indentation other⟩
  have same : List.Forall₂ (Reindented (2 * ·)) tokens others := by
    refine .cons (kept _ (by decide)) (.cons (kept _ (by decide)) (.cons (kept _ (by decide))
      (.cons ?_ (.cons (kept _ (by decide)) (.cons (kept _ (by decide))
      (.cons (kept _ (by decide)) (.cons ?_ (.cons (kept _ (by decide))
      (.cons (kept _ (by decide)) .nil)))))))))
    · exact ⟨rfl, rfl, fun other => absurd rfl other, fun _ => rfl⟩
    · exact ⟨rfl, rfl, fun other => absurd rfl other, fun _ => rfl⟩
  have cuts : Lexeme.cutsFrom true "Row:\n\tText".toList =
      [⟨.widget, "Row".toList, "Row".toList, none⟩, ⟨.colon, [':'], [':'], none⟩,
        ⟨.newLine, ['\n'], ['\n'], none⟩, ⟨.indentation, ['\t'], ['\t'], none⟩,
        ⟨.widget, "Text".toList, "Text".toList, none⟩] := by
    decide +kernel
  have redrawn : Redrawn (2 * ·) (Lexeme.cutsFrom true "Row:\n\tText".toList)
      "Row:\n  Text".toList := by
    have split : "Row:\n  Text".toList =
        "Row".toList ++ ([':'] ++ (['\n'] ++ ([' ', ' '] ++ ("Text".toList ++ [])))) := by
      decide
    rw [cuts, split]
    exact .kept nofun (.kept nofun (.kept nofun (.indentation rfl (by simp [Lexeme.isIndent]) rfl
      (.kept nofun .nil))))
  have wholes := parse_reindented increasing rfl .strict
  exact ⟨tokens, others, "Row:\n\tText", "Row:\n  Text", increasing, same, by decide,
    by decide +kernel, (wholes.1 _ _ same).2, redrawn, by decide, by decide +kernel,
    (wholes.2 _ _ redrawn).2⟩

end WidgetTree.Grammar
