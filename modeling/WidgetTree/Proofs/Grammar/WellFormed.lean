import WidgetTree.Compilation
import WidgetTree.Proofs.Grammar.Extent
import WidgetTree.Proofs.Grammar.Subtrees
import WidgetTree.Proofs.Lexeme.Tiling
import WidgetTree.Proofs.Outline.Writing

/-!
Trees in the text that they were read from. Main statements: `ordered_tokens`, the tokens of a text
stand in its order, and `parse_wellFormed`, in every tree that is read a node has the children that
its form asks for, and its span lies in the text around those of its children.
-/

namespace WidgetTree.Grammar

open Lexeme (Cut Kind Token behind endToken placed)
open Text (Location)
open WidgetTree.Tree (Document Node Regular)

section Texts

theorem reaches_after (place : Location) (cut : Cut) : Reaches place (cut.after place) := by
  rw [Reaches, Lexeme.index_after, Lexeme.line_after]
  exact ⟨Nat.le_add_right _ _, Nat.le_add_right _ _⟩

theorem reaches_of_mem {place : Location} {cuts : List Cut} {token : Token}
    (member : token ∈ placed place cuts ++ [endToken (behind place cuts)]) :
    Reaches place token.span.start := by
  induction cuts generalizing place with
  | nil =>
      rw [List.mem_singleton.mp member]
      exact .refl place
  | cons cut more ih =>
      rcases List.mem_cons.mp member with rfl | later
      · exact .refl place
      · exact (reaches_after place cut).trans (ih later)

theorem placed_follow (place : Location) (cuts : List Cut) :
    (placed place cuts ++ [endToken (behind place cuts)]).Pairwise
      fun a b => Reaches a.span.stop b.span.start := by
  induction cuts generalizing place with
  | nil => exact List.pairwise_singleton _ _
  | cons cut more ih => exact .cons (fun token member => reaches_of_mem member) (ih _)

theorem ordered_tokens (text : String) : Ordered (Lexeme.tokens text) := by
  rw [Lexeme.tokens_eq_placed]
  refine ⟨placed_follow _ _, fun token member => ?_, fun token member goes => ?_⟩
  · rcases List.mem_append.mp member with inside | last
    · obtain ⟨front, cut, others, -, rfl⟩ := Lexeme.exists_cut_of_mem inside
      exact reaches_after _ cut
    · rw [List.mem_singleton.mp last]
      exact .refl _
  · rcases List.mem_append.mp member with inside | last
    · exact (Lexeme.filled_token inside).2
    · rw [List.mem_singleton.mp last] at goes
      exact absurd rfl goes

theorem stop_le_length {text : String} {token : Token} (member : token ∈ Lexeme.tokens text) :
    token.span.stop.index ≤ text.length := by
  have follow := (ordered_tokens text).follow
  obtain ⟨front, last, split, ⟨-, stop⟩, -⟩ := (Lexeme.tokens_tile text).ends
  have forward := (ordered_tokens text).forward last (by simp [split])
  rw [split] at member follow
  rcases List.mem_append.mp member with inside | atEnd
  · have reaches := (List.pairwise_append.mp follow).2.2 token inside last (by simp)
    exact stop ▸ (reaches.trans forward).1
  · rw [List.mem_singleton.mp atEnd]
    exact Nat.le_of_eq stop

theorem significant_sublist (text : String) :
    (significant (Lexeme.tokens text)).Sublist (Lexeme.tokens text) := by
  obtain ⟨kept, last, same, -, less, -⟩ := significant_tokens text
  rwa [same]

theorem ordered_significant (text : String) : Ordered (significant (Lexeme.tokens text)) :=
  (ordered_tokens text).sublist (significant_sublist text)

end Texts

section Spans

variable {tokens : List Token} {node : Node} {nodes : List Node}

theorem Spans.around (spans : Spans tokens node) (ordered : Ordered tokens) :
    ∀ token ∈ tokens, Reaches node.span.start token.span.start ∧
      Reaches token.span.stop node.span.stop := by
  obtain ⟨first, head, -, start⟩ := spans.first
  obtain ⟨last, atEnd, -, stop⟩ := spans.last
  obtain ⟨others, front⟩ := List.head?_eq_some_iff.mp head
  obtain ⟨inner, rear⟩ := List.getLast?_eq_some_iff.mp atEnd
  rw [start, stop]
  intro token member
  constructor
  · have follow := ordered.follow
    have forward := ordered.forward first (List.mem_of_head? head)
    rw [front] at member follow
    rcases List.mem_cons.mp member with rfl | later
    · exact .refl _
    · exact forward.trans (List.rel_of_pairwise_cons follow later)
  · have follow := ordered.follow
    have forward := ordered.forward last (List.mem_of_getLast? atEnd)
    rw [rear] at member follow
    rcases List.mem_append.mp member with before | same
    · exact ((List.pairwise_append.mp follow).2.2 token before last (by simp)).trans forward
    · rw [List.mem_singleton.mp same]
      exact .refl _

theorem Spans.filled (spans : Spans tokens node) (ordered : Ordered tokens) :
    node.span.start.index < node.span.stop.index := by
  obtain ⟨first, head, solid, start⟩ := spans.first
  have member := List.mem_of_head? head
  have room := ordered.filled first member (solid.ne (.inr rfl))
  exact start ▸ Nat.lt_of_lt_of_le room (spans.around ordered first member).2.1

theorem Spans.forward (spans : Spans tokens node) (ordered : Ordered tokens) :
    Reaches node.span.start node.span.stop := by
  obtain ⟨first, head, -⟩ := spans.first
  have member := List.mem_of_head? head
  obtain ⟨before, behind⟩ := spans.around ordered first member
  exact before.trans ((ordered.forward first member).trans behind)

theorem Spans.inside {text : String} (spans : Spans tokens node)
    (less : tokens.Sublist (Lexeme.tokens text)) : node.span.stop.index ≤ text.length := by
  obtain ⟨last, atEnd, -, stop⟩ := spans.last
  rw [stop]
  exact stop_le_length (less.subset (List.mem_of_getLast? atEnd))

theorem Lays.exists_spans (lays : Lays Spans tokens nodes) :
    ∀ node ∈ nodes, ∃ own, own.Sublist tokens ∧ Spans own node := by
  induction lays with
  | nil => exact List.forall_mem_nil _
  | @cons own more node nodes gap spans others ih =>
      refine List.forall_mem_cons.mpr ⟨⟨own, ?_, spans⟩, fun node member => ?_⟩
      · exact .trans (List.sublist_append_left own more) (List.sublist_append_right gap _)
      · obtain ⟨inner, less, spans⟩ := ih node member
        have behind := List.sublist_append_right (gap ++ own) more
        exact ⟨inner, less.trans (List.append_assoc gap own more ▸ behind), spans⟩

theorem Lays.apart (lays : Lays Spans tokens nodes) (ordered : Ordered tokens) :
    nodes.Pairwise fun a b => a.span.stop.index ≤ b.span.start.index := by
  induction lays with
  | nil => exact .nil
  | @cons own more node nodes gap spans others ih =>
      have behind : Ordered (own ++ more) := ordered.right
      refine .cons (fun other member => ?_) (ih behind.right)
      obtain ⟨inner, less, spans'⟩ := others.exists_spans other member
      obtain ⟨last, atEnd, -, stop⟩ := spans.last
      obtain ⟨first, head, -, start⟩ := spans'.first
      rw [stop, start]
      exact ((List.pairwise_append.mp behind.follow).2.2 last (List.mem_of_getLast? atEnd) first
        (less.subset (List.mem_of_head? head))).1

end Spans

def Counted : Node → Prop
  | .leaf leaf value span => (Node.leaf leaf value span).children.length = 0
  | .single role name child span => (Node.single role name child span).children.length = 1
  | .many role name children span => 2 ≤ (Node.many role name children span).children.length

/-- A node fits its text: as many children as its form says, room under its span, and the children
inside the span, one behind the other. -/
structure WellFormed (text : String) (node : Node) : Prop where
  counted : Counted node
  filled : node.span.start.index < node.span.stop.index
  forward : node.span.start.line ≤ node.span.stop.line
  inside : node.span.stop.index ≤ text.length
  holds : ∀ child ∈ node.children, node.span.contains child.span = true
  apart : node.children.Pairwise fun a b => a.span.stop.index ≤ b.span.start.index

inductive Shown : Node → Prop
  | single (name : String) (child : Node) (span : Text.Span) :
      Shown (.single .element name child span)
  | many (name : String) (children : List Node) (span : Text.Span) :
      Shown (.many .element name children span)
  | name (name : String) (span : Text.Span) (known : name ∈ Lexeme.widgetNames) :
      Shown (.leaf .identifier name span)

/-- A document fits its text, at every depth; the view model is a name in front of the view. -/
structure DocumentWellFormed (text : String) (document : Document) : Prop where
  nodes : ∀ node ∈ document.nodes, WellFormed text node
  names : document.viewModel.name = "viewModel" ∧ document.view.name = "view"
  before : document.viewModel.span.stop.index < document.view.span.start.index
  named : ∃ value span, document.viewModel.child = .leaf .identifier value span
  shown : Shown document.view.child

theorem counted_of_regular {node : Node} (regular : Regular node) : Counted node := by
  cases regular with
  | leaf leaf value span => rfl
  | @parent role name span children some all =>
      match children with
      | [] => exact absurd rfl some
      | [_] => rfl
      | _ :: _ :: _ => exact Nat.le_add_left 2 _

theorem shown_of_isWidget {node : Node} (shows : isWidget node = true) : Shown node := by
  rw [isWidget.eq_def] at shows
  split at shows
  · exact .single ..
  · exact .many ..
  · exact .name _ _ (List.contains_iff_mem.mp shows)
  · cases shows

section Nodes

variable {options : Options} {text : String} {indent : Nat} {tokens rest : List Token}
  {nodes : List Node}

theorem Covers.wellFormed {core : List Token} {node : Node} (covers : Covers core node)
    (regular : Regular node) (less : core.Sublist (Lexeme.tokens text)) :
    WellFormed text node := by
  have ordered := (ordered_tokens text).sublist less
  have spans := covers.toSpans
  obtain ⟨head, inner, tail, split, -, lays⟩ := covers.children
  have within : inner.Sublist core := by
    rw [split]
    exact .trans (List.sublist_append_left inner tail) (List.sublist_append_right head _)
  refine ⟨counted_of_regular regular, spans.filled ordered, (spans.forward ordered).2,
    spans.inside less, fun child member => ?_, lays.apart (ordered.sublist within)⟩
  obtain ⟨own, least, child⟩ := lays.exists_spans child member
  obtain ⟨first, front, -, start⟩ := child.first
  obtain ⟨last, atEnd, -, stop⟩ := child.last
  have starts := within.subset (least.subset (List.mem_of_head? front))
  have stops := within.subset (least.subset (List.mem_of_getLast? atEnd))
  rw [Text.Span.contains, Bool.and_eq_true, decide_eq_true_eq, decide_eq_true_eq, start, stop]
  exact ⟨(spans.around ordered first starts).1.1, (spans.around ordered last stops).2.1⟩

theorem ReadFrom.covers {node : Node} (read : ReadFrom options tokens node)
    (ordered : Ordered tokens) : ∃ core, core.Sublist tokens ∧ Covers core node ∧ Regular node := by
  obtain ⟨inner, indent, rest, ⟨front, rfl⟩, derives⟩ := read
  obtain ⟨core, gap, split, extent⟩ := derives.extent ordered.right
  obtain ⟨_, ⟨⟩, covers⟩ := extent.arranged
  refine ⟨core, ?_, covers, derives.regular node (List.mem_singleton_self node)⟩
  rw [split]
  exact .trans (List.sublist_append_left core _) (List.sublist_append_right front _)

theorem ReadFrom.wellFormed {node : Node}
    (read : ReadFrom options (significant (Lexeme.tokens text)) node) : WellFormed text node := by
  obtain ⟨core, less, covers, regular⟩ := read.covers (ordered_significant text)
  exact covers.wellFormed regular (less.trans (significant_sublist text))

theorem Composes.wellFormed {document : Document}
    (composes : Composes options (significant (Lexeme.tokens text)) document) :
    DocumentWellFormed text document := by
  have parts := composes
  obtain @⟨root, comma, afterRoot, afterFirst, afterComma, afterSecond, kind, first, second,
    viewModel, view, begins, -, -, -, firstRead, isViewModel, divided, commaKind, -, secondRead,
    isView, shows, -⟩ := parts
  obtain ⟨rfl, viewModelName, named⟩ := viewModel?_eq_some_iff.mp isViewModel
  obtain ⟨rfl, viewName⟩ := view?_eq_some_iff.mp isView
  have behind := (takes_newLines (significant (Lexeme.tokens text))).suffix
  rw [begins] at behind
  have lines := (takes_newLines afterRoot).suffix.trans ((List.suffix_cons root _).trans behind)
  have ordered : Ordered (skipNewLines afterRoot) :=
    (ordered_significant text).sublist lines.sublist
  obtain ⟨core, gap, split, extent⟩ := firstRead.extent ordered
  obtain ⟨breaks, skipped, -⟩ := takes_newLines afterComma
  have rear : skipNewLines afterComma <:+ skipNewLines afterRoot := by
    rw [split, divided]
    refine .trans ?_ (List.suffix_append core _)
    exact .trans ((takes_newLines afterComma).suffix.trans (List.suffix_cons comma _))
      (List.suffix_append gap _)
  refine ⟨fun node member => (composes.readFrom node member).wellFormed,
    ⟨viewModelName, viewName⟩, ?_, named, shown_of_isWidget shows⟩
  · obtain ⟨_, ⟨⟩, covers⟩ := extent.arranged
    obtain ⟨own, gap', split', extent'⟩ := secondRead.extent (ordered.sublist rear.sublist)
    obtain ⟨_, ⟨⟩, covers'⟩ := extent'.arranged
    obtain ⟨last, atEnd, -, stop⟩ := covers.last
    obtain ⟨token, head, -, start⟩ := covers'.first
    have ahead : last.span.stop.index ≤ comma.span.start.index := by
      rw [split, divided] at ordered
      exact ((List.pairwise_append.mp ordered.follow).2.2 last (List.mem_of_getLast? atEnd) comma
        (by simp)).1
    have row : Ordered (comma :: afterComma) := by
      rw [split, divided] at ordered
      exact ordered.right.right
    have behind : comma.span.stop.index ≤ token.span.start.index := by
      refine (List.rel_of_pairwise_cons row.follow ?_).1
      rw [skipped, split']
      exact List.mem_append_right _ (List.mem_append_left _ (List.mem_of_head? head))
    have room := row.filled comma List.mem_cons_self (by rw [commaKind]; decide)
    rw [show viewModel.span = viewModel.toNode.span from rfl,
      show view.span = view.toNode.span from rfl, stop, start]
    exact Nat.lt_of_le_of_lt ahead (Nat.lt_of_lt_of_le room behind)

/-- Documents and single nodes fit the text that they are read from, at every depth. -/
theorem parse_wellFormed (options : Options) (text : String) :
    (∀ document, (compile options text).outcome = .ok document →
        DocumentWellFormed text document) ∧
      ∀ node, parseFragment options (Lexeme.tokens text) = .ok node →
        ∀ below ∈ node.subtrees, WellFormed text below := by
  refine ⟨fun document compiled => ?_, fun node parsed below member => ?_⟩
  · exact (document_eq_ok_iff.mp compiled).wellFormed
  · obtain ⟨rest, derives, -⟩ := fragment_eq_ok_iff.mp parsed
    rw [← Tree.subtreesOf_singleton] at member
    exact ((derives.of_subtree below member).further (takes_newLines _).suffix).wellFormed

/-- A header that reaches behind its children to its colon, and lines below it. -/
theorem parse_wellFormed_colon :
    (∃ document, (compile {}
          "Stateless .viewModel: Home, .view: Row Text:\n\tText 'hi', 1\n").outcome = .ok document ∧
        DocumentWellFormed
          "Stateless .viewModel: Home, .view: Row Text:\n\tText 'hi', 1\n" document) ∧
      ∃ node, parseFragment {} (Lexeme.tokens "Row Text:\n\tText 'hi', 1\n") = .ok node ∧
        ∀ below ∈ node.subtrees, WellFormed "Row Text:\n\tText 'hi', 1\n" below := by
  have compiles : (compile {}
      "Stateless .viewModel: Home, .view: Row Text:\n\tText 'hi', 1\n").outcome.isOk = true := by
    decide +kernel
  have parses : (parseFragment {} (Lexeme.tokens "Row Text:\n\tText 'hi', 1\n")).isOk = true := by
    decide +kernel
  obtain ⟨document, compiled⟩ := exists_ok_of_isOk compiles
  obtain ⟨node, parsed⟩ := exists_ok_of_isOk parses
  exact ⟨⟨document, compiled, (parse_wellFormed {} _).1 document compiled⟩, node, parsed,
    (parse_wellFormed {} _).2 node parsed⟩

end Nodes

end WidgetTree.Grammar
