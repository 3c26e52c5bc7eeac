import WidgetTree.Proofs.Grammar.Conservation

namespace WidgetTree.Tree

open Text (Span)

/-- The quotes that a string is written in: single ones, unless it holds one. -/
def quoteFor (value : String) : Char := if value.toList.contains '\x27' then '\x22' else '\x27'

def quotedIn (quote : Char) (value : String) : String :=
  String.ofList (quote :: value.toList ++ [quote])

def Leaf.write (value : String) : Leaf → String
  | identifier => value
  | call => "$" ++ value
  | callback => "@" ++ value
  | constant .string => quotedIn (quoteFor value) value
  | constant _ => value

def Role.write (name : String) : Role → String
  | element => name ++ ":"
  | property => "." ++ name ++ ":"

def tabs (depth : Nat) : String := String.ofList (List.replicate depth '\t')

mutual

/-- The node on its line, without the line break, and its children one deeper on the lines below. -/
def Node.outline (depth : Nat) : Node → String
  | .leaf leaf value _ => tabs depth ++ leaf.write value
  | .single role name child _ =>
      tabs depth ++ role.write name ++ "\n" ++ child.outline (depth + 1)
  | .many role name children _ => tabs depth ++ role.write name ++ outlines (depth + 1) children

def outlines (depth : Nat) : List Node → String
  | [] => ""
  | node :: more => "\n" ++ node.outline depth ++ outlines depth more

end

/-- The text of a document: the view model on the first line, the tree of the view below. -/
def Document.outline (document : Document) : String :=
  document.kind.name ++ " .viewModel: " ++ document.viewModelClass ++ ", .view:\n" ++
    document.root.outline 1

example : (Node.single .element "Center" (.leaf (.constant .string) "it's" {}) {}).outline 1 =
    "\tCenter:\n\t\t\"it's\"" := by
  decide

mutual

/-- The same tree, wherever it was read from. -/
def Node.withoutSpans : Node → Node
  | .leaf leaf value _ => .leaf leaf value {}
  | .single role name child _ => .single role name child.withoutSpans {}
  | .many role name children _ => .many role name (withoutSpansAll children) {}

def withoutSpansAll : List Node → List Node
  | [] => []
  | node :: more => node.withoutSpans :: withoutSpansAll more

end

def Property.withoutSpans (property : Property) : Property :=
  ⟨property.name, property.child.withoutSpans, {}⟩

def Document.withoutSpans (document : Document) : Document :=
  ⟨document.kind, document.viewModel.withoutSpans, document.view.withoutSpans⟩

theorem withoutSpansAll_eq_map (nodes : List Node) :
    withoutSpansAll nodes = nodes.map Node.withoutSpans := by
  induction nodes with
  | nil => rfl
  | cons node more ih => rw [withoutSpansAll, ih, List.map_cons]

def Node.parent (role : Role) (name : String) (span : Span) : List Node → Node
  | [child] => .single role name child span
  | children => .many role name children span

namespace Node

variable {role : Role} {name : String} {span : Span} {children : List Node}

theorem element_eq_parent (some : children ≠ []) :
    element name span children = parent .element name span children := by
  match children with
  | [] => exact absurd rfl some
  | [_] | _ :: _ :: _ => rfl

theorem property?_eq_parent (some : children ≠ []) :
    property? name span children = .some (parent .property name span children) := by
  match children with
  | [] => exact absurd rfl some
  | [_] | _ :: _ :: _ => rfl

theorem outline_parent (depth : Nat) (some : children ≠ []) :
    (parent role name span children).outline depth =
      tabs depth ++ role.write name ++ outlines (depth + 1) children := by
  match children with
  | [] => exact absurd rfl some
  | [child] => simp only [parent, outline, outlines, String.append_empty, String.append_assoc]
  | _ :: _ :: _ => rfl

theorem withoutSpans_parent :
    (parent role name span children).withoutSpans =
      parent role name {} (children.map withoutSpans) := by
  match children with
  | [] | [_] | _ :: _ :: _ => simp [parent, withoutSpans, withoutSpansAll_eq_map]

theorem pieces_parent :
    Grammar.nodePieces (parent role name span children) =
      Grammar.headerPieces name role ++ Grammar.nodesPieces children := by
  match children with
  | [] | [_] | _ :: _ :: _ =>
      simp [parent, Grammar.nodePieces, Grammar.nodesPieces]

end Node

inductive Regular : Node → Prop
  | leaf (leaf : Leaf) (value : String) (span : Span) : Regular (.leaf leaf value span)
  | parent (role : Role) (name : String) (span : Span) {children : List Node}
      (some : children ≠ []) (all : ∀ child ∈ children, Regular child) :
      Regular (.parent role name span children)

theorem Node.children_parent {role : Role} {name : String} {span : Span} {children : List Node} :
    (parent role name span children).children = children := by
  match children with
  | [] | [_] | _ :: _ :: _ => rfl

theorem Regular.child {node child : Node} (regular : Regular node)
    (member : child ∈ node.children) : Regular child := by
  cases regular with
  | leaf => cases member
  | parent role name span some all =>
      rw [Node.children_parent] at member
      exact all child member

end WidgetTree.Tree

namespace WidgetTree.Grammar

open Lexeme (Token)
open WidgetTree.Tree (Node Regular)

theorem elementNode_regular {name : Token} {inline below : List Node} {colon : Option Token}
    (beside : ∀ child ∈ inline, Regular child) (under : ∀ child ∈ below, Regular child) :
    Regular (elementNode name inline colon below) := by
  have all : ∀ child ∈ inline ++ below, Regular child := by
    intro child member
    exact (List.mem_append.mp member).elim (beside child) (under child)
  rw [elementNode]
  cases none : (inline ++ below).isEmpty with
  | true =>
      rw [List.isEmpty_iff.mp none]
      exact .leaf ..
  | false =>
      have some : inline ++ below ≠ [] := List.isEmpty_eq_false_iff.mp none
      rw [Node.element_eq_parent some]
      exact .parent _ _ _ some all

theorem propertyNode_regular {dot name : Token} {colon : Option Token} {children : List Node}
    {node : Node} (built : propertyNode dot name colon children = .ok node)
    (all : ∀ child ∈ children, Regular child) : Regular node := by
  rw [propertyNode] at built
  cases none : children.isEmpty with
  | true =>
      rw [List.isEmpty_iff.mp none] at built
      cases built
  | false =>
      have some : children ≠ [] := List.isEmpty_eq_false_iff.mp none
      simp only [Node.property?_eq_parent some] at built
      cases built
      exact .parent _ _ _ some all

theorem Derives.regular {options : Options} {part : Part} {indent : Nat}
    {tokens rest : List Token} {nodes : List Node}
    (derives : Derives options part indent tokens nodes rest) :
    ∀ node ∈ nodes, Regular node := by
  induction derives with
  | node _ ih => exact ih
  | constant | reference | name =>
      intro node member
      rw [List.mem_singleton.mp member]
      exact .leaf ..
  | element _ _ _ _ _ besideIh underIh =>
      intro node member
      rw [List.mem_singleton.mp member]
      exact elementNode_regular besideIh underIh
  | property _ _ _ _ built ih =>
      intro node member
      rw [List.mem_singleton.mp member]
      exact propertyNode_regular built ih
  | argumentsEnd | blockEnd =>
      intro node member
      cases member
  | argument _ _ _ firstIh othersIh =>
      intro node member
      exact (List.mem_append.mp member).elim (firstIh node) (othersIh node)
  | line _ _ _ firstIh othersIh =>
      intro node member
      exact (List.mem_append.mp member).elim (firstIh node) (othersIh node)

end WidgetTree.Grammar
