import WidgetTree.Text.Location

/-!
Trees of elements, properties and values. A parent with exactly one child has a form of its own,
since such a child may be written on its parent's line. Main statement: `children_element`, a
parent built from a list of children holds that list.
-/

namespace WidgetTree.Tree

open Text (Span)

inductive ConstantKind
  | null
  | integer
  | float
  | string
  | boolean
  deriving DecidableEq, Repr

inductive Leaf
  | identifier
  | call
  | callback
  | constant (kind : ConstantKind)
  deriving DecidableEq, Repr

inductive Role
  | element
  | property
  deriving DecidableEq, Repr

inductive Node
  | leaf (leaf : Leaf) (value : String) (span : Span)
  | single (role : Role) (name : String) (child : Node) (span : Span)
  | many (role : Role) (name : String) (children : List Node) (span : Span)

inductive Category
  | element
  | property
  | value
  deriving DecidableEq, Repr

def Role.category : Role → Category
  | element => .element
  | property => .property

def Role.label : Role → String
  | element => "Element"
  | property => "Attribute"

def Leaf.label : Leaf → String
  | identifier => "Identifier"
  | call => "FunctionCall"
  | callback => "Callback"
  | constant _ => "Constant"

def ConstantKind.label : ConstantKind → String
  | null => "Null"
  | integer => "Integer"
  | float => "Float"
  | string => "String"
  | boolean => "Boolean"

def Category.label : Category → String
  | element => "Element"
  | property => "Attribute"
  | value => "Value"

namespace Node

def name : Node → String
  | leaf _ value _ => value
  | single _ name _ _ => name
  | many _ name _ _ => name

def span : Node → Span
  | leaf _ _ span => span
  | single _ _ _ span => span
  | many _ _ _ span => span

def children : Node → List Node
  | leaf .. => []
  | single _ _ child _ => [child]
  | many _ _ children _ => children

def category : Node → Category
  | leaf .. => .value
  | single role .. => role.category
  | many role .. => role.category

def isValue (node : Node) : Bool := node.category = .value

def label : Node → String
  | leaf kind _ _ => kind.label
  | single role .. => role.label ++ "Single"
  | many role .. => role.label

def kindName (node : Node) : String := node.label ++ "Node"

/-- An element without children is a bare name. -/
def element (name : String) (span : Span) : List Node → Node
  | [] => leaf .identifier name span
  | [child] => single .element name child span
  | children => many .element name children span

/-- A property has at least one child. -/
def property? (name : String) (span : Span) : List Node → Option Node
  | [] => none
  | [child] => some (single .property name child span)
  | children => some (many .property name children span)

mutual

def decideEq : (a b : Node) → Decidable (a = b)
  | leaf kind value span, leaf kind' value' span' =>
      decidable_of_iff (kind = kind' ∧ value = value' ∧ span = span') (by simp)
  | single role name child span, single role' name' child' span' =>
      have := decideEq child child'
      decidable_of_iff (role = role' ∧ name = name' ∧ child = child' ∧ span = span') (by simp)
  | many role name children span, many role' name' children' span' =>
      have := decideEqAll children children'
      decidable_of_iff (role = role' ∧ name = name' ∧ children = children' ∧ span = span')
        (by simp)
  | leaf .., single .. | leaf .., many .. | single .., leaf .. | single .., many ..
  | many .., leaf .. | many .., single .. => isFalse (by simp)

def decideEqAll : (as bs : List Node) → Decidable (as = bs)
  | [], [] => isTrue rfl
  | [], _ :: _ | _ :: _, [] => isFalse (by simp)
  | a :: as, b :: bs =>
      have := decideEq a b
      have := decideEqAll as bs
      decidable_of_iff (a = b ∧ as = bs) (by simp)

end

instance : DecidableEq Node := decideEq

theorem children_element (name : String) (span : Span) (children : List Node) :
    (element name span children).children = children := by
  match children with
  | [] | [_] | _ :: _ :: _ => rfl

theorem property?_eq_none_iff (name : String) (span : Span) (children : List Node) :
    property? name span children = none ↔ children = [] := by
  match children with
  | [] | [_] | _ :: _ :: _ => simp [property?]

end Node

end WidgetTree.Tree
