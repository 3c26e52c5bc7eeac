import WidgetTree.Command.Listing
import WidgetTree.Proofs.Json
import WidgetTree.Proofs.Outline.Writing

namespace WidgetTree.Command

open WidgetTree.Tree (ConstantKind Document Leaf Node Property Role WidgetKind withoutSpansAll)

section Reading

def leafOf? : String → Option Leaf
  | "Identifier" => some .identifier
  | "FunctionCall" => some .call
  | "Callback" => some .callback
  | _ => none

def constantOf? : String → Option ConstantKind
  | "Null" => some .null
  | "Integer" => some .integer
  | "Float" => some .float
  | "String" => some .string
  | "Boolean" => some .boolean
  | _ => none

def singleOf? : String → Option Role
  | "ElementSingle" => some .element
  | "AttributeSingle" => some .property
  | _ => none

def manyOf? : String → Option Role
  | "Element" => some .element
  | "Attribute" => some .property
  | _ => none

mutual

def nodeOf? : Json → Option Node
  | .object [("kind", .text kind), ("value", .text value)] => do
      return .leaf (← leafOf? kind) value {}
  | .object [("kind", .text "Constant"), ("value", .text value),
      ("constant_kind", .text kind)] => do
      return .leaf (.constant (← constantOf? kind)) value {}
  | .object [("kind", .text kind), ("value", .text name), ("child", child)] => do
      return .single (← singleOf? kind) name (← nodeOf? child) {}
  | .object [("kind", .text kind), ("value", .text name), ("children", .array children)] => do
      return .many (← manyOf? kind) name (← nodesOf? children) {}
  | _ => none

def nodesOf? : List Json → Option (List Node)
  | [] => some []
  | node :: more => do return (← nodeOf? node) :: (← nodesOf? more)

end

def propertyOf? : Json → Option Property
  | .object [("value", .text name), ("child", child)] => do return ⟨name, ← nodeOf? child, {}⟩
  | _ => none

def kindOf? : String → Option WidgetKind
  | "Stateless" => some .stateless
  | "Stateful" => some .stateful
  | _ => none

def documentOf? : Json → Option Document
  | .object [("kind", .text kind), ("view_model", viewModel), ("view", view)] => do
      return ⟨← kindOf? kind, ← propertyOf? viewModel, ← propertyOf? view⟩
  | _ => none

/-- The tree that a text is the listing of. -/
def printedTree? (text : String) : Option Document := Json.parse? text >>= documentOf?

end Reading

section Listing

theorem singleOf?_label (role : Role) : singleOf? (role.label ++ "Single") = some role := by
  cases role <;> rfl

theorem manyOf?_label (role : Role) : manyOf? role.label = some role := by
  cases role <;> rfl

theorem kindOf?_name (kind : WidgetKind) : kindOf? kind.name = some kind := by
  cases kind <;> rfl

theorem nodeOf?_leaf (leaf : Leaf) (value : String) (span : Text.Span) :
    nodeOf? (nodeListing (.leaf leaf value span)) = some (.leaf leaf value {}) := by
  cases leaf with
  | identifier | call | callback => rfl
  | constant kind => cases kind <;> rfl

mutual

theorem nodeOf?_nodeListing (node : Node) :
    nodeOf? (nodeListing node) = some node.withoutSpans := by
  match node with
  | .leaf leaf value span => exact nodeOf?_leaf leaf value span
  | .single role name child span =>
      have below := nodeOf?_nodeListing child
      simp [nodeListing, nodeOf?, singleOf?_label, below, Node.withoutSpans]
  | .many role name children span =>
      have below := nodesOf?_nodesListing children
      simp [nodeListing, nodeOf?, manyOf?_label, below, Node.withoutSpans]

theorem nodesOf?_nodesListing (nodes : List Node) :
    nodesOf? (nodesListing nodes) = some (withoutSpansAll nodes) := by
  match nodes with
  | [] => rfl
  | node :: more =>
      rw [nodesListing, nodesOf?, nodeOf?_nodeListing node, nodesOf?_nodesListing more]
      rfl

end

theorem propertyOf?_propertyListing (property : Property) :
    propertyOf? (propertyListing property) = some property.withoutSpans := by
  rw [propertyListing, propertyOf?, nodeOf?_nodeListing]
  rfl

theorem documentOf?_documentListing (document : Document) :
    documentOf? (documentListing document) = some document.withoutSpans := by
  rw [documentListing, documentOf?, kindOf?_name, propertyOf?_propertyListing,
    propertyOf?_propertyListing]
  rfl

theorem printedTree?_documentListing (document : Document) :
    printedTree? ((documentListing document).pretty 0 ++ "\n") = some document.withoutSpans := by
  rw [printedTree?, Json.parse?_pretty]
  exact documentOf?_documentListing document

theorem printedTree?_empty : printedTree? "" = none := by
  have none : Json.Unread.value? [] = none := by
    rw [Json.Unread.value?]
    rfl
  have unread : Json.parse? "" = .none := by
    rw [Json.parse?, String.toList_empty, none]
    rfl
  rw [printedTree?, unread]
  rfl

end Listing

end WidgetTree.Command
