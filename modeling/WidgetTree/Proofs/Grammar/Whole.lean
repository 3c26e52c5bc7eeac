import WidgetTree.Grammar.Document
import WidgetTree.Proofs.Grammar.Derivation

namespace WidgetTree.Grammar

open Lexeme (Kind Token)
open WidgetTree.Tree (Document Node Property WidgetKind)

variable {options : Options} {tokens rest : List Token}

def AtEnd (tokens : List Token) : Prop :=
  ∃ last others, skipNewLines tokens = last :: others ∧ last.kind = .endOfFile

theorem expectEnd_eq_ok_iff : expectEnd tokens = .ok () ↔ AtEnd tokens := by
  constructor
  · intro ran
    rw [expectEnd] at ran
    cases found : expect [.endOfFile] (skipNewLines tokens) with
    | error problem => rw [found] at ran; cases ran
    | ok last =>
        obtain ⟨front, kind⟩ := expect_yields_iff.mp (.of_eq found)
        exact ⟨last.value, last.rest, front, by simpa using kind⟩
  · intro atEnd
    rcases atEnd with ⟨last, others, front, kind⟩
    obtain ⟨shorter, ran⟩ := expect_cons others (List.mem_singleton.mpr kind)
    rw [expectEnd, front, ran]
    rfl

theorem property_yields_iff {indent : Nat} {node : Node} :
    Yields (property options indent tokens) node rest ↔
      (current tokens).kind = .dot ∧ Derives options .content indent tokens [node] rest := by
  constructor
  · intro read
    rcases read with ⟨shorter, ran⟩
    refine ⟨?_, derives_of_property options indent tokens ran⟩
    rw [property] at ran
    split at ran
    · cases ran
    · next dot found =>
        obtain ⟨front, kind⟩ := expect_yields_iff.mp (.of_eq found)
        rw [front]
        simpa [current] using kind
  · intro found
    rcases found with ⟨dot, derives⟩
    obtain ⟨child, same, shorter, ran⟩ := derives.reads
    cases same
    refine ⟨shorter, ?_⟩
    cases tokens with
    | nil => simp [current] at dot
    | cons token others => rwa [content_of_dot (show token.kind = .dot from dot)] at ran

theorem viewModel?_eq_some_iff {node : Node} {property : Property} :
    viewModel? node = some property ↔
      property.toNode = node ∧ property.name = "viewModel" ∧
        ∃ value span, property.child = .leaf .identifier value span := by
  rcases property with ⟨name, child, span⟩
  constructor
  · intro found
    rw [viewModel?.eq_def] at found
    split at found
    · split at found
      · next same =>
          cases found
          exact ⟨rfl, same, _, _, rfl⟩
      · cases found
    · cases found
  · intro found
    rcases found with ⟨rfl, named, value, inner, held⟩
    simp only at named held
    rw [held, Property.toNode, viewModel?, if_pos named]

theorem view?_eq_some_iff {node : Node} {property : Property} :
    view? node = some property ↔ property.toNode = node ∧ property.name = "view" := by
  rcases property with ⟨name, child, span⟩
  constructor
  · intro found
    rw [view?.eq_def] at found
    split at found
    · split at found
      · next same =>
          cases found
          exact ⟨rfl, same⟩
      · cases found
    · cases found
  · intro found
    rcases found with ⟨rfl, named⟩
    simp only at named
    rw [Property.toNode, view?, if_pos named]

theorem ofName?_eq_some_iff {name : String} {kind : WidgetKind} :
    WidgetKind.ofName? name = some kind ↔ kind.name = name := by
  constructor
  · intro found
    simpa using List.find?_some found
  · rintro rfl
    cases kind <;> decide

inductive Composes (options : Options) (tokens : List Token) : Document → Prop
  | intro {root comma : Token} {afterRoot afterFirst afterComma afterSecond : List Token}
      {kind : WidgetKind} {first second : Node} {viewModel view : Property}
      (begins : skipNewLines tokens = root :: afterRoot) (rootKind : root.kind = .identifier)
      (named : WidgetKind.ofName? root.value = some kind)
      (firstDot : (current (skipNewLines afterRoot)).kind = .dot)
      (firstRead : Derives options .content 0 (skipNewLines afterRoot) [first] afterFirst)
      (isViewModel : viewModel? first = some viewModel)
      (divided : afterFirst = comma :: afterComma) (commaKind : comma.kind = .comma)
      (secondDot : (current (skipNewLines afterComma)).kind = .dot)
      (secondRead : Derives options .content 0 (skipNewLines afterComma) [second] afterSecond)
      (isView : view? second = some view) (shows : isWidget view.child = true)
      (ends : AtEnd afterSecond) : Composes options tokens ⟨kind, viewModel, view⟩

theorem bind_eq_ok_iff {α β : Type} {step : Except Problem α} {next : α → Except Problem β}
    {result : β} :
    (step >>= next) = .ok result ↔ ∃ value, step = .ok value ∧ next value = .ok result := by
  cases step with
  | error problem => simp [bind, Except.bind]
  | ok value => simp [bind, Except.bind]

theorem exists_ok_of_isOk {ε α : Type} {outcome : Except ε α} (reads : outcome.isOk = true) :
    ∃ value, outcome = .ok value := by
  cases outcome with
  | error problem => cases reads
  | ok value => exact ⟨value, rfl⟩

theorem document_eq_ok_iff {document : Document} :
    Grammar.document options tokens = .ok document ↔ Composes options tokens document := by
  constructor
  · intro ran
    rw [Grammar.document] at ran
    obtain ⟨root, rootRan, ran⟩ := bind_eq_ok_iff.mp ran
    split at ran
    · next kind named =>
        obtain ⟨first, firstRan, ran⟩ := bind_eq_ok_iff.mp ran
        split at ran
        · next viewModel isViewModel =>
            obtain ⟨comma, commaRan, ran⟩ := bind_eq_ok_iff.mp ran
            obtain ⟨second, secondRan, ran⟩ := bind_eq_ok_iff.mp ran
            split at ran
            · next view isView =>
                split at ran
                · next shows =>
                    obtain ⟨_, endRan, ran⟩ := bind_eq_ok_iff.mp ran
                    cases ran
                    obtain ⟨begins, rootKind⟩ := expect_yields_iff.mp (.of_eq rootRan)
                    obtain ⟨divided, commaKind⟩ := expect_yields_iff.mp (.of_eq commaRan)
                    obtain ⟨firstDot, firstRead⟩ := property_yields_iff.mp (.of_eq firstRan)
                    obtain ⟨secondDot, secondRead⟩ := property_yields_iff.mp (.of_eq secondRan)
                    exact .intro begins (List.mem_singleton.mp rootKind) named firstDot firstRead
                      isViewModel divided (List.mem_singleton.mp commaKind) secondDot secondRead
                      isView shows (expectEnd_eq_ok_iff.mp endRan)
                · cases ran
            · cases ran
        · cases ran
    · cases ran
  · rintro ⟨begins, rootKind, named, firstDot, firstRead, isViewModel, divided, commaKind,
      secondDot, secondRead, isView, shows, ends⟩
    obtain ⟨_, rootRan⟩ := expect_yields_iff.mpr ⟨begins, List.mem_singleton.mpr rootKind⟩
    obtain ⟨_, firstRan⟩ := property_yields_iff.mpr ⟨firstDot, firstRead⟩
    obtain ⟨_, commaRan⟩ := expect_yields_iff.mpr ⟨divided, List.mem_singleton.mpr commaKind⟩
    obtain ⟨_, secondRan⟩ := property_yields_iff.mpr ⟨secondDot, secondRead⟩
    have endRan := expectEnd_eq_ok_iff.mpr ends
    rw [Grammar.document]
    simp only [bind, Except.bind, rootRan, named, firstRan, isViewModel, commaRan, secondRan,
      isView, shows, if_true, endRan, pure, Except.pure]

theorem fragment_eq_ok_iff {node : Node} :
    fragment options tokens = .ok node ↔
      ∃ rest, Derives options .node 0 (skipNewLines tokens) [node] rest ∧
        AtEnd (skipComma rest) := by
  constructor
  · intro ran
    rw [fragment] at ran
    obtain ⟨read, nodeRan, ran⟩ := bind_eq_ok_iff.mp ran
    obtain ⟨_, endRan, ran⟩ := bind_eq_ok_iff.mp ran
    cases ran
    exact ⟨read.rest, derives_of_node options 0 _ nodeRan, expectEnd_eq_ok_iff.mp endRan⟩
  · intro found
    rcases found with ⟨rest, derives, ends⟩
    obtain ⟨child, same, _, ran⟩ := derives.reads
    cases same
    rw [fragment]
    simp only [bind, Except.bind, ran, expectEnd_eq_ok_iff.mpr ends, pure, Except.pure]

end WidgetTree.Grammar
