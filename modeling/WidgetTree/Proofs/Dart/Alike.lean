import WidgetTree.Dart.ViewModel
import WidgetTree.Proofs.Grammar.Lockstep

namespace WidgetTree.Dart

open Grammar (Alike AlikeDocuments AlikeProperties)
open Text (Location)
open WidgetTree.Tree (Document Node)

variable {place : Location → Location → Prop}

theorem name_alike {node other : Node} (alike : Alike place node other) :
    node.name = other.name := by
  cases alike <;> rfl

mutual

theorem expression_alike (indent : Indent) (level : Nat) (node : Node) {other : Node}
    (alike : Alike place node other) :
    expression indent level node = expression indent level other := by
  cases alike with
  | leaf leaf value _ => rw [expression, expression]
  | @single role name child child' _ _ below _ =>
      have same := expression_alike indent level child below
      have deeper := expression_alike indent (level + 1) child below
      cases role with
      | property => rw [expression, expression, same]
      | element => rw [expression, expression, same, deeper, below.isValue]
  | @many role name children children' _ _ below _ =>
      have same := itemLines_alike indent (level + 1) children below
      cases role with
      | property => rw [expression, expression, same]
      | element => rw [expression, expression, same]

theorem itemLines_alike (indent : Indent) (level : Nat) (nodes : List Node) {others : List Node}
    (alike : List.Forall₂ (Alike place) nodes others) :
    itemLines indent level nodes = itemLines indent level others := by
  cases alike with
  | nil => rfl
  | @cons node other nodes others first rest =>
      rw [itemLines, itemLines, expression_alike indent level node first,
        itemLines_alike indent level nodes rest]

end

mutual

theorem collect_alike (found : Collection) (node : Node) {other : Node}
    (alike : Alike place node other) : collect found node = collect found other := by
  cases alike with
  | leaf leaf value _ => rw [collect, collect]
  | @single role name child child' _ _ below _ =>
      rw [collect, collect, collect_alike found child below]
  | @many role name children children' _ _ below _ =>
      rw [collect, collect, collectAll_alike found children below]

theorem collectAll_alike (found : Collection) (nodes : List Node) {others : List Node}
    (alike : List.Forall₂ (Alike place) nodes others) :
    collectAll found nodes = collectAll found others := by
  cases alike with
  | nil => rfl
  | @cons node other nodes others first rest =>
      rw [collectAll, collectAll, collect_alike found node first,
        collectAll_alike _ nodes rest]

end

theorem rootExpression_alike (indent : Indent) {node other : Node}
    (alike : Alike place node other) :
    rootExpression indent node = rootExpression indent other := by
  have same := expression_alike indent 2 node alike
  cases alike with
  | leaf leaf value _ =>
      cases leaf with
      | identifier => rfl
      | call | callback | constant _ => exact same
  | single _ _ _ _ | many _ _ _ _ => exact same

theorem members_alike {node other : Node} (alike : Alike place node other) :
    members node = members other := by
  have same := congrArg Collection.members (collect_alike {} node alike)
  cases alike with
  | leaf leaf value _ =>
      cases leaf with
      | identifier => rfl
      | call | callback | constant _ => exact same
  | single _ _ _ _ | many _ _ _ _ => exact same

variable {document other : Document}

theorem viewModelClass_alike (alike : AlikeDocuments place document other) :
    document.viewModelClass = other.viewModelClass :=
  name_alike alike.viewModel.child

theorem view_alike (indent : Indent) (alike : AlikeDocuments place document other) :
    view indent document = view indent other := by
  have root : Alike place document.root other.root := alike.view.child
  have viewClass : document.viewClass = other.viewClass := name_alike root
  unfold view
  rw [viewModelClass_alike alike, viewClass, rootExpression_alike indent root]

theorem viewModel_alike (indent : Indent) (alike : AlikeDocuments place document other) :
    viewModel indent document = viewModel indent other := by
  have root : Alike place document.root other.root := alike.view.child
  unfold viewModel
  rw [viewModelClass_alike alike, members_alike root]

end WidgetTree.Dart
