import WidgetTree.Proofs.Grammar.Places
import WidgetTree.Proofs.Grammar.Whole

namespace WidgetTree.Tree

mutual

def Node.subtrees : Node → List Node
  | .leaf leaf value span => [.leaf leaf value span]
  | .single role name child span => .single role name child span :: child.subtrees
  | .many role name children span => .many role name children span :: subtreesOf children

def subtreesOf : List Node → List Node
  | [] => []
  | node :: more => node.subtrees ++ subtreesOf more

end

def Document.nodes (document : Document) : List Node :=
  document.viewModel.toNode.subtrees ++ document.view.toNode.subtrees

theorem Node.subtrees_eq (node : Node) : node.subtrees = node :: subtreesOf node.children := by
  cases node with
  | leaf leaf value span => rfl
  | single role name child span => simp [Node.subtrees, subtreesOf, Node.children]
  | many role name children span => rfl

theorem subtreesOf_append (nodes more : List Node) :
    subtreesOf (nodes ++ more) = subtreesOf nodes ++ subtreesOf more := by
  induction nodes with
  | nil => rfl
  | cons node nodes ih => rw [List.cons_append, subtreesOf, subtreesOf, ih, List.append_assoc]

theorem subtreesOf_singleton (node : Node) : subtreesOf [node] = node.subtrees := by
  rw [subtreesOf, subtreesOf, List.append_nil]

theorem mem_subtreesOf {node : Node} {nodes : List Node} :
    node ∈ subtreesOf nodes ↔ ∃ child ∈ nodes, node ∈ child.subtrees := by
  induction nodes with
  | nil => simp [subtreesOf]
  | cons child nodes ih => simp [subtreesOf, ih]

theorem mem_subtreesOf_singleton {node below : Node} :
    below ∈ subtreesOf [node] ↔ below = node ∨ below ∈ subtreesOf node.children := by
  rw [subtreesOf_singleton, Node.subtrees_eq, List.mem_cons]

end WidgetTree.Tree

namespace WidgetTree.Grammar

open Lexeme (Kind Token)
open WidgetTree.Tree (Document Node subtreesOf subtreesOf_append mem_subtreesOf_singleton)

variable {options : Options} {part : Part} {indent : Nat} {tokens rest : List Token}
  {nodes : List Node}

def ReadFrom (options : Options) (tokens : List Token) (node : Node) : Prop :=
  ∃ inner indent rest, inner <:+ tokens ∧ Derives options .content indent inner [node] rest

theorem ReadFrom.further {more : List Token} {node : Node} (read : ReadFrom options more node)
    (behind : more <:+ tokens) : ReadFrom options tokens node := by
  rcases read with ⟨inner, indent, rest, suffix, derives⟩
  exact ⟨inner, indent, rest, suffix.trans behind, derives⟩

theorem Derives.of_subtree (derives : Derives options part indent tokens nodes rest) :
    ∀ node ∈ subtreesOf nodes, ReadFrom options tokens node := by
  induction derives with
  | node inner ih =>
      intro node member
      exact (ih node member).further (takes_indentation _).suffix
  | constant literal =>
      intro node member
      rcases mem_subtreesOf_singleton.mp member with rfl | none
      · exact ⟨_, 0, _, List.suffix_rfl, .constant literal⟩
      · cases none
  | reference marked named =>
      intro node member
      rcases mem_subtreesOf_singleton.mp member with rfl | none
      · exact ⟨_, 0, _, List.suffix_rfl, .reference marked named⟩
      · cases none
  | name header alone =>
      intro node member
      rcases mem_subtreesOf_singleton.mp member with rfl | none
      · exact ⟨_, _, _, List.suffix_rfl, .name header alone⟩
      · cases none
  | @element _ name rest _ _ _ _ _ _ header parent beside ended under besideIh underIh =>
      intro node member
      rcases mem_subtreesOf_singleton.mp member with rfl | inside
      · exact ⟨_, _, _, List.suffix_rfl, .element header parent beside ended under⟩
      · rw [elementNode, Tree.Node.children_element, subtreesOf_append, List.mem_append] at inside
        have behindName := List.suffix_cons name rest
        rcases inside with inline | below
        · exact (besideIh node inline).further behindName
        · have lines := (takes_headerColon ended).suffix.trans beside.suffix
          exact (underIh node below).further (lines.trans behindName)
  | @property _ dot name rest _ _ _ _ _ marked named ended held built ih =>
      intro node member
      rcases mem_subtreesOf_singleton.mp member with rfl | inside
      · exact ⟨_, _, _, List.suffix_rfl, .property marked named ended held built⟩
      · rw [(of_propertyNode built).2] at inside
        have behindName := (List.suffix_cons name rest).trans (List.suffix_cons dot _)
        exact (ih node inside).further ((takes_colon ended).suffix.trans behindName)
  | argumentsEnd | blockEnd =>
      intro node member
      cases member
  | argument goes first others firstIh othersIh =>
      intro node member
      rw [subtreesOf_append, List.mem_append] at member
      rcases member with inside | later
      · exact firstIh node inside
      · exact (othersIh node later).further ((takes_comma _).suffix.trans first.suffix)
  | @line indent tokens rest left nodes more deeper first others firstIh othersIh =>
      intro node member
      rw [subtreesOf_append, List.mem_append] at member
      have lines := (takes_newLines tokens).suffix
      rcases member with inside | later
      · exact (firstIh node inside).further lines
      · exact (othersIh node later).further (first.suffix.trans lines)

theorem Composes.readFrom {document : Document} (composes : Composes options tokens document) :
    ∀ node ∈ document.nodes, ReadFrom options tokens node := by
  obtain ⟨begins, -, -, -, firstRead, isViewModel, divided, -, -, secondRead, isView, -, -⟩ :=
    composes
  obtain ⟨rfl, -⟩ := viewModel?_eq_some_iff.mp isViewModel
  obtain ⟨rfl, -⟩ := view?_eq_some_iff.mp isView
  have root := (takes_newLines tokens).suffix
  rw [begins] at root
  have first := (takes_newLines _).suffix.trans ((List.suffix_cons _ _).trans root)
  have comma := firstRead.suffix.trans first
  rw [divided] at comma
  have second := (takes_newLines _).suffix.trans ((List.suffix_cons _ _).trans comma)
  intro node member
  rw [Document.nodes, List.mem_append, ← Tree.subtreesOf_singleton, ← Tree.subtreesOf_singleton]
    at member
  rcases member with inside | inside
  · exact (firstRead.of_subtree node inside).further first
  · exact (secondRead.of_subtree node inside).further second

end WidgetTree.Grammar
