import WidgetTree.Tree.Node

namespace WidgetTree.Tree

open Text (Span)

inductive WidgetKind
  | stateless
  | stateful
  deriving DecidableEq, Repr

namespace WidgetKind

def name : WidgetKind → String
  | stateless => "Stateless"
  | stateful => "Stateful"

def ofName? (name : String) : Option WidgetKind :=
  [stateless, stateful].find? (·.name = name)

end WidgetKind

structure Property where
  name : String
  child : Node
  span : Span
  deriving DecidableEq

def Property.toNode (property : Property) : Node :=
  .single .property property.name property.child property.span

structure Document where
  kind : WidgetKind
  viewModel : Property
  view : Property
  deriving DecidableEq

namespace Document

def root (document : Document) : Node := document.view.child

def viewClass (document : Document) : String := document.root.name

def viewModelClass (document : Document) : String := document.viewModel.child.name

end Document

end WidgetTree.Tree
