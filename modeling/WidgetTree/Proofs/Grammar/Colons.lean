import WidgetTree.Proofs.Grammar.Lockstep

/-!
The options side by side. Main statement: `enforceColons_only_rejects`, to ask for all colons
refuses rows but changes nothing else that is read of them or found in them.
-/

namespace WidgetTree.Grammar

open Lexeme (Token)
open Text (Span)
open WidgetTree.Tree (Document Node Property)

section Sameness

theorem Spanned.eq {span other : Span} (spanned : Spanned Eq span other) : span = other := by
  rcases span with ⟨start, stop⟩
  rcases spanned with ⟨rfl, rfl⟩
  rfl

mutual

theorem eq_of_alike (node : Node) {other : Node} (alike : Alike Eq node other) : node = other := by
  cases alike with
  | leaf leaf value spanned => rw [spanned.eq]
  | @single role name child child' span _ below spanned =>
      rw [spanned.eq, eq_of_alike child below]
  | @many role name children children' span _ below spanned =>
      rw [spanned.eq, eqAll_of_alike children below]

theorem eqAll_of_alike (nodes : List Node) {others : List Node}
    (alike : List.Forall₂ (Alike Eq) nodes others) : nodes = others := by
  cases alike with
  | nil => rfl
  | @cons node other nodes others first rest =>
      rw [eq_of_alike node first, eqAll_of_alike nodes rest]

end

theorem AlikeProperties.eq {property other : Property}
    (alike : AlikeProperties Eq property other) : property = other := by
  have nodes : property.toNode = other.toNode := eq_of_alike _ alike
  rcases property with ⟨name, child, span⟩
  rcases other with ⟨name', child', span'⟩
  obtain ⟨-, rfl, rfl, rfl⟩ := Node.single.inj nodes
  rfl

theorem AlikeDocuments.eq {document other : Document} (alike : AlikeDocuments Eq document other) :
    document = other := by
  rcases document with ⟨kind, viewModel, view⟩
  rcases other with ⟨kind', viewModel', view'⟩
  obtain rfl : kind = kind' := alike.kind
  obtain rfl : viewModel = viewModel' := alike.viewModel.eq
  obtain rfl : view = view' := alike.view.eq
  rfl

def Pairing.itself : Pairing where
  place := Eq
  level := Eq
  later := later_of_eq
  deeper := deeper_of_eq
  row := Eq
  problem := Eq
  step := by
    rintro tokens _ rfl
    cases tokens with
    | nil => exact .done
    | cons token rest =>
        have same : Spanned Eq token.span token.span := ⟨rfl, rfl⟩
        exact .token ⟨rfl, fun _ => ⟨rfl, rfl, fun _ => same, fun _ => rfl⟩, fun _ => rfl⟩
          fun _ => rfl
  lines := by
    rintro _ _ rfl
    rfl
  missed := by
    rintro _ _ _ rfl
    rfl
  caused := by
    intro _ _ _ _ spanned
    rw [spanned.eq]

end Sameness

section Outcomes

variable {α : Type} {options options' : Options} {related : α → α → Prop}
  {outcome outcome' : Except Problem α}

/-- The same outcome and the same finding on it, or a colon that is missed in `enforcing` alone. -/
structure OnlyRefuses (text : String) (enforcing lax : Except Problem α) : Prop where
  same : (enforcing = lax ∧ reports text enforcing = reports text lax) ∨
    ∃ problem, enforcing = .error problem ∧ problem.WantsColon
  lenient : ∀ problem, lax = .error problem → ¬ problem.WantsColon

theorem eq_of_agrees (eq : ∀ value other, related value other → value = other)
    (agrees : Agrees .itself options options' related outcome outcome')
    (asked : options.enforceColons = options'.enforceColons) : outcome = outcome' :=
  agrees.eq (fun _ _ same => same) eq asked

theorem lenient_of_agrees (lax : options.enforceColons = false)
    (agrees : Agrees .itself options options related outcome outcome') {problem : Problem}
    (failed : outcome' = .error problem) : ¬ problem.WantsColon := by
  intro wants
  cases agrees with
  | read same => cases failed
  | stopped same asked =>
      cases failed
      have enforces : options.enforceColons = true := asked (Eq.symm same ▸ wants)
      exact Bool.false_ne_true (lax.symm.trans enforces)
  | refused _ strict _ => exact Bool.false_ne_true (lax.symm.trans strict)

theorem onlyRefuses_of_agrees (text : String)
    (eq : ∀ value other, related value other → value = other)
    (lax : options.enforceColons = false)
    (itself : Agrees .itself options options related outcome outcome)
    (agrees : Agrees .itself options options' related outcome outcome') :
    OnlyRefuses text outcome' outcome := by
  refine ⟨?_, fun problem => lenient_of_agrees lax itself⟩
  cases agrees with
  | read same =>
      rw [eq _ _ same]
      exact .inl ⟨rfl, rfl⟩
  | stopped same _ =>
      rw [Eq.symm same]
      exact .inl ⟨rfl, rfl⟩
  | refused _ _ wants => exact .inr ⟨_, rfl, wants⟩

end Outcomes

section Options

variable {options options' : Options}

theorem document_agrees_itself (loosens : options.Loosens options') (tokens : List Token) :
    Agrees .itself options options' (AlikeDocuments Eq) (parseDocument options tokens)
      (parseDocument options' tokens) :=
  document_agrees loosens rfl rfl

theorem fragment_agrees_itself (loosens : options.Loosens options') (tokens : List Token) :
    Agrees .itself options options' (Alike Eq) (parseFragment options tokens)
      (parseFragment options' tokens) :=
  fragment_agrees loosens rfl rfl

/-- To ask for all colons turns some outcomes into a missing colon and changes no other, however
the indentation is asked for, which changes nothing at all. -/
theorem enforceColons_only_rejects (text : String) (tokens : List Token) :
    (∀ indentation indentation' : Bool,
      OnlyRefuses text (parseDocument ⟨indentation, true⟩ tokens)
        (parseDocument ⟨indentation', false⟩ tokens) ∧
      OnlyRefuses text (parseFragment ⟨indentation, true⟩ tokens)
        (parseFragment ⟨indentation', false⟩ tokens)) ∧
    ∀ indentation indentation' colons : Bool,
      parseDocument ⟨indentation, colons⟩ tokens = parseDocument ⟨indentation', colons⟩ tokens ∧
      parseFragment ⟨indentation, colons⟩ tokens = parseFragment ⟨indentation', colons⟩ tokens := by
  have documents : ∀ value other : Document, AlikeDocuments Eq value other → value = other :=
    fun _ _ alike => alike.eq
  have nodes : ∀ value other : Node, Alike Eq value other → value = other :=
    fun _ _ alike => eq_of_alike _ alike
  constructor
  · intro indentation indentation'
    have loosens : Options.Loosens ⟨indentation', false⟩ ⟨indentation, true⟩ := fun _ => rfl
    constructor
    · exact onlyRefuses_of_agrees text documents rfl (document_agrees_itself id tokens)
        (document_agrees_itself loosens tokens)
    · exact onlyRefuses_of_agrees text nodes rfl (fragment_agrees_itself id tokens)
        (fragment_agrees_itself loosens tokens)
  · intro indentation indentation' colons
    have loosens : Options.Loosens ⟨indentation, colons⟩ ⟨indentation', colons⟩ := id
    constructor
    · exact eq_of_agrees documents (document_agrees_itself loosens tokens) rfl
    · exact eq_of_agrees nodes (fragment_agrees_itself loosens tokens) rfl

end Options

end WidgetTree.Grammar
