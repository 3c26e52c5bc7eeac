import WidgetTree.Proofs.Dart.Alike
import WidgetTree.Proofs.Dart.FileName
import WidgetTree.Proofs.Dart.Unambiguous
import WidgetTree.Proofs.Outline.Reading

/-!
The view of a document determines the document, its kind and its places in the text apart. Main
statement: `view_eq_iff`, two documents that were read have the same view just when they have the
same view model and the same tree.
-/

namespace WidgetTree.Dart

open Grammar (Alike Options exists_ok_of_isOk isWidget)
open Lexeme (Lacks isSpelling)
open Outline (AllWritable Printable printable_of_parse)
open WidgetTree.Tree (Document Node Property Regular)

section Roots

variable {indent : Indent} {root root' : Node} {below below' : List Char}

theorem name_parent {role : Tree.Role} {name : String} {span : Text.Span}
    {children : List Node} : (Node.parent role name span children).name = name := by
  match children with
  | [] | [_] | _ :: _ :: _ => rfl

theorem rootExpression_parent {role : Tree.Role} {name : String} {span : Text.Span}
    {children : List Node} :
    rootExpression indent (.parent role name span children) =
      expression indent 2 (.parent role name span children) := by
  match children with
  | [] | [_] | _ :: _ :: _ => rfl

theorem bare_ne_parent {role : Tree.Role} {name bare : String} {span : Text.Span}
    {children : List Node} (isWord : IsWord bare.toList) (some : children ≠ [])
    (legible : Legible (.parent role name span children)) :
    (bare ++ "()").toList ++ ([';'] ++ '\n' :: below) ≠
      shown indent 2 (.parent role name span children) ++ ([';'] ++ '\n' :: below') := by
  obtain ⟨header, inside⟩ := legible.parent
  obtain ⟨c, more, split, bracket⟩ := exists_inside some inside ([';'] ++ '\n' :: below')
  rw [split, String.toList_append]
  exact opening_ne_parent (.applied isWord) .semicolon header bracket

theorem isWord_of_bare {leaf : Tree.Leaf} {value : String} {span : Text.Span}
    (legible : Legible (.leaf leaf value span)) (shows : isWidget (.leaf leaf value span) = true) :
    leaf = .identifier ∧ IsWord value.toList := by
  cases leaf with
  | identifier => exact ⟨rfl, isWord_of_header (legible.writable _ List.mem_cons_self)⟩
  | call | callback | constant => cases shows

theorem root_told (legible : Legible root) (legible' : Legible root')
    (shows : isWidget root = true) (shows' : isWidget root' = true)
    (same : (rootExpression indent root).toList ++ ([';'] ++ '\n' :: below) =
      (rootExpression indent root').toList ++ ([';'] ++ '\n' :: below')) :
    root.withoutSpans = root'.withoutSpans := by
  have whole := legible
  have whole' := legible'
  obtain ⟨regular, -⟩ := legible
  obtain ⟨regular', -⟩ := legible'
  cases regular with
  | leaf leaf value span =>
      obtain ⟨rfl, isWord⟩ := isWord_of_bare whole shows
      cases regular' with
      | leaf leaf' value' span' =>
          obtain ⟨rfl, isWord'⟩ := isWord_of_bare whole' shows'
          simp only [rootExpression, String.toList_append, List.append_assoc] at same
          have stops (below : List Char) :
              Lacks isSpelling ("()".toList ++ ([';'] ++ '\n' :: below)) := rfl
          have names := (split_run isWord.2 isWord'.2 (stops below) (stops below') same).1
          rw [Node.withoutSpans, Node.withoutSpans, String.toList_inj.mp names]
      | parent role name span' some all =>
          rw [rootExpression_parent] at same
          exact absurd same (bare_ne_parent isWord some whole')
  | parent role name span some all =>
      rw [rootExpression_parent] at same
      cases regular' with
      | leaf leaf' value' span' =>
          obtain ⟨rfl, isWord'⟩ := isWord_of_bare whole' shows'
          exact absurd same.symm (bare_ne_parent isWord' some whole)
      | parent role' name' span' some' all' =>
          rw [rootExpression_parent] at same
          exact (whole.told indent whole' .semicolon same).1

end Roots

section Documents

variable {indent : Indent} {document other : Document}

theorem legible_root (printable : Printable document) : Legible document.root := by
  obtain ⟨-, -, -, -, root⟩ := printable.pieces
  exact ⟨printable.regular, root⟩

theorem isWord_viewModelClass (printable : Printable document) :
    IsWord document.viewModelClass.toList := by
  obtain ⟨-, -, header, -, -⟩ := printable.pieces
  exact isWord_of_header header

theorem isWord_viewClass (printable : Printable document) : IsWord document.viewClass.toList := by
  obtain ⟨regular, writable⟩ := legible_root printable
  have shows := printable.shows
  rw [Document.viewClass]
  generalize document.root = root at regular writable shows
  cases regular with
  | leaf leaf value span =>
      cases leaf with
      | identifier => exact isWord_of_header (writable _ List.mem_cons_self)
      | call | callback | constant => cases shows
  | parent role name span some all =>
      rw [name_parent]
      exact isWord_of_headerPieces writable.parent.1

theorem unbroken_fileStem {className : String} (isWord : IsWord className.toList) :
    '\n' ∉ (fileStem className).toList := by
  intro member
  have low : Text.isLow '\n' = true := by decide
  exact unbroken_word isWord (mem_fileStem member low)

def preamble : String :=
  "// DO NOT WRITE CODE IN THIS FILE\n" ++
  "// IT WILL GET OVERWRITTEN WHEN THE UI CODE IS REBUILT\n\n" ++
  materialImport ++ "import './"

def beforeRoot (indent : Indent) : String :=
  " \x7b\n" ++ indent.margin 1 ++ "@override\n" ++
  indent.margin 1 ++ "Widget build(BuildContext context) \x7b\n" ++
  indent.margin 2 ++ "return "

def afterRoot (indent : Indent) : String := indent.margin 1 ++ "\x7d\n\x7d\n"

theorem toList_view (indent : Indent) (document : Document) :
    (view indent document).toList =
      preamble.toList ++ ((fileStem document.viewModelClass).toList ++ (".dart';".toList ++ '\n' ::
        ("\nclass ".toList ++ (document.viewClass.toList ++ (" extends ".toList ++
          (document.viewModelClass.toList ++ ((beforeRoot indent).toList ++
            ((rootExpression indent document.root).toList ++
              ([';'] ++ '\n' :: (afterRoot indent).toList))))))))) := by
  have fileEnd (rest : List Char) :
      ".dart".toList ++ ("';\n\n".toList ++ ("class ".toList ++ rest)) =
        ".dart';".toList ++ '\n' :: ("\nclass ".toList ++ rest) := rfl
  have lineEnd (rest : List Char) : ";\n".toList ++ rest = [';'] ++ '\n' :: rest := rfl
  unfold view fileName preamble beforeRoot afterRoot
  simp only [String.toList_append, List.append_assoc, List.cons_append, -String.reduceAppend,
    fileEnd, lineEnd]

theorem view_told (printable : Printable document) (printable' : Printable other)
    (same : view indent document = view indent other) :
    document.viewModelClass = other.viewModelClass ∧
      document.root.withoutSpans = other.root.withoutSpans := by
  have text := congrArg String.toList same
  rw [toList_view, toList_view] at text
  have isWord := isWord_viewModelClass printable
  have isWord' := isWord_viewModelClass printable'
  have imports {document : Document} (isWord : IsWord document.viewModelClass.toList) :
      '\n' ∉ (fileStem document.viewModelClass).toList ++ ".dart';".toList := by
    intro member
    rcases List.mem_append.mp member with member | member
    · exact unbroken_fileStem isWord member
    · exact absurd member (by decide)
  have stops (rest : List Char) : Lacks isSpelling (" extends ".toList ++ rest) := rfl
  have stops' (rest : List Char) : Lacks isSpelling ((beforeRoot indent).toList ++ rest) := by
    unfold beforeRoot
    simp only [String.toList_append, List.append_assoc, -String.reduceAppend]
    rfl
  have text := List.append_cancel_left text
  rw [← List.append_assoc, ← List.append_assoc (fileStem other.viewModelClass).toList] at text
  have text := List.append_cancel_left (split_line (imports isWord) (imports isWord') text).2
  have text := (split_run (isWord_viewClass printable).2 (isWord_viewClass printable').2
    (stops _) (stops _) text).2
  obtain ⟨names, text⟩ := split_run isWord.2 isWord'.2 (stops' _) (stops' _)
    (List.append_cancel_left text)
  have root := root_told (legible_root printable) (legible_root printable') printable.shows
    printable'.shows (List.append_cancel_left text)
  exact ⟨String.toList_inj.mp names, root⟩

mutual

theorem alike_withoutSpans (node : Node) : Alike (fun _ _ => True) node node.withoutSpans := by
  cases node with
  | leaf leaf value span => exact .leaf leaf value ⟨trivial, trivial⟩
  | single role name child span =>
      exact .single role name (alike_withoutSpans child) ⟨trivial, trivial⟩
  | many role name children span =>
      exact .many role name (alikeAll_withoutSpans children) ⟨trivial, trivial⟩

theorem alikeAll_withoutSpans (nodes : List Node) :
    List.Forall₂ (Alike fun _ _ => True) nodes (Tree.withoutSpansAll nodes) := by
  cases nodes with
  | nil => exact .nil
  | cons node more => exact .cons (alike_withoutSpans node) (alikeAll_withoutSpans more)

end

theorem view_eq_of_same (viewModel : document.viewModelClass = other.viewModelClass)
    (root : document.root.withoutSpans = other.root.withoutSpans) :
    view indent document = view indent other := by
  have alike := alike_withoutSpans document.root
  have alike' := alike_withoutSpans other.root
  rw [← root] at alike'
  have viewClass : document.viewClass = other.viewClass :=
    (name_alike alike).trans (name_alike alike').symm
  have expressions : rootExpression indent document.root = rootExpression indent other.root :=
    (rootExpression_alike indent alike).trans (rootExpression_alike indent alike').symm
  unfold view
  rw [viewModel, viewClass, expressions]

theorem viewModel_withoutSpans (printable : Printable document) :
    document.viewModel.withoutSpans =
      ⟨"viewModel", .leaf .identifier document.viewModelClass {}, {}⟩ := by
  obtain ⟨value, span, held⟩ := printable.named
  rw [Property.withoutSpans, printable.viewModel, Document.viewModelClass, held]
  rfl

theorem view_withoutSpans (printable : Printable document) :
    document.view.withoutSpans = ⟨"view", document.root.withoutSpans, {}⟩ := by
  rw [Property.withoutSpans, printable.view]
  rfl

/-- Documents that were read have the same view just when they have the same view model and the
same tree. The kind of the widget is all that the view leaves open. -/
theorem view_eq_iff (indent : Indent) {options options' : Options} {text text' : String}
    (read : (compile options text).outcome = .ok document)
    (read' : (compile options' text').outcome = .ok other) :
    view indent document = view indent other ↔
      document.viewModel.withoutSpans = other.viewModel.withoutSpans ∧
        document.view.withoutSpans = other.view.withoutSpans := by
  have printable := printable_of_parse read
  have printable' := printable_of_parse read'
  rw [viewModel_withoutSpans printable, viewModel_withoutSpans printable',
    view_withoutSpans printable, view_withoutSpans printable']
  constructor
  · intro same
    obtain ⟨viewModel, root⟩ := view_told printable printable' same
    rw [viewModel, root]
    exact ⟨rfl, rfl⟩
  · rintro ⟨viewModel, root⟩
    simp only [Property.mk.injEq, Node.leaf.injEq, true_and, and_true] at viewModel root
    exact view_eq_of_same viewModel root

/-- Another kind and another layout leave the view as it is; one more quote in a string does not. -/
theorem view_eq_iff_row :
    ∃ document other third,
      (compile {} "Stateless .viewModel: A, .view: Row 'b', -1").outcome = .ok document ∧
      (compile .strict "Stateful .viewModel: A, .view:\n Row:\n  \"b\"\n  -1\n").outcome =
        .ok other ∧
      (compile {} "Stateless .viewModel: A, .view: Row \"b'\", -1").outcome = .ok third ∧
      view .tabs document = view .tabs other ∧ view .spaces document ≠ view .spaces third := by
  let tree (outcome : Except Grammar.Problem Document) : Option (Property × Property) :=
    outcome.toOption.map fun document =>
      (document.viewModel.withoutSpans, document.view.withoutSpans)
  have reads : (compile {} "Stateless .viewModel: A, .view: Row 'b', -1").outcome.isOk = true := by
    decide +kernel
  have others : (compile .strict
      "Stateful .viewModel: A, .view:\n Row:\n  \"b\"\n  -1\n").outcome.isOk = true := by
    decide +kernel
  have thirds : (compile {} "Stateless .viewModel: A, .view: Row \"b'\", -1").outcome.isOk =
      true := by
    decide +kernel
  have same : tree (compile {} "Stateless .viewModel: A, .view: Row 'b', -1").outcome =
      tree (compile .strict "Stateful .viewModel: A, .view:\n Row:\n  \"b\"\n  -1\n").outcome := by
    decide +kernel
  have differ : tree (compile {} "Stateless .viewModel: A, .view: Row 'b', -1").outcome ≠
      tree (compile {} "Stateless .viewModel: A, .view: Row \"b'\", -1").outcome := by
    decide +kernel
  obtain ⟨document, read⟩ := exists_ok_of_isOk reads
  obtain ⟨other, read'⟩ := exists_ok_of_isOk others
  obtain ⟨third, read''⟩ := exists_ok_of_isOk thirds
  rw [read, read'] at same
  rw [read, read''] at differ
  have alike := Prod.mk.inj (Option.some.inj same)
  refine ⟨document, other, third, read, read', read'', ?_, fun views => ?_⟩
  · exact (view_eq_iff .tabs read read').mpr alike
  · obtain ⟨viewModel, root⟩ := (view_eq_iff .spaces read read'').mp views
    exact differ (congrArg some (Prod.ext viewModel root))

end Documents

end WidgetTree.Dart
