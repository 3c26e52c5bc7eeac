import WidgetTree.Proofs.Outline.Cuts

namespace WidgetTree.Outline

open Grammar (Piece headerPieces leafPieces nodePieces nodesPieces)
open Lexeme
open WidgetTree.Tree (Document Leaf Node Property Regular Role)

def colonCut : Cut := plain .colon [':']

def spaceCut : Cut := plain .whiteSpace [' ']

def breakCut : Cut := plain .newLine ['\n']

def tabsCut (depth : Nat) : Cut := plain .indentation (List.replicate depth '\t')

def leafCuts (value : String) (leaf : Leaf) : List Cut := (leafPieces value leaf).map pieceCut

def headerCuts (name : String) (role : Role) : List Cut :=
  (headerPieces name role).map pieceCut ++ [colonCut]

mutual

def nodeCuts (depth : Nat) : Node → List Cut
  | .leaf leaf value _ => tabsCut depth :: leafCuts value leaf
  | .single role name child _ =>
      tabsCut depth :: (headerCuts name role ++ breakCut :: nodeCuts (depth + 1) child)
  | .many role name children _ =>
      tabsCut depth :: (headerCuts name role ++ blockCuts (depth + 1) children)

def blockCuts (depth : Nat) : List Node → List Cut
  | [] => []
  | node :: more => breakCut :: (nodeCuts depth node ++ blockCuts depth more)

end

theorem nodeCuts_parent {role : Role} {name : String} {span : Text.Span} {children : List Node}
    (depth : Nat) (some : children ≠ []) :
    nodeCuts depth (.parent role name span children) =
      tabsCut depth :: (headerCuts name role ++ blockCuts (depth + 1) children) := by
  match children with
  | [] => exact absurd rfl some
  | [_] | _ :: _ :: _ => simp [Node.parent, nodeCuts, blockCuts]

theorem joined_cons (cut : Cut) (more : List Cut) :
    joined (cut :: more) = cut.taken ++ joined more :=
  List.flatMap_cons

theorem joined_append (cuts more : List Cut) :
    joined (cuts ++ more) = joined cuts ++ joined more :=
  List.flatMap_append

def AllWritable (pieces : List Piece) : Prop := ∀ piece ∈ pieces, Writable piece

theorem AllWritable.append {pieces more : List Piece} (writable : AllWritable (pieces ++ more)) :
    AllWritable pieces ∧ AllWritable more :=
  List.forall_mem_append.mp writable

theorem AllWritable.child {nodes : List Node} {node : Node}
    (writable : AllWritable (nodesPieces nodes)) (member : node ∈ nodes) :
    AllWritable (nodePieces node) := by
  induction nodes with
  | nil => cases member
  | cons first others ih =>
      rw [nodesPieces] at writable
      rcases List.mem_cons.mp member with rfl | member
      · exact writable.append.1
      · exact ih writable.append.2 member

theorem AllWritable.parent {role : Role} {name : String} {span : Text.Span} {children : List Node}
    (writable : AllWritable (nodePieces (.parent role name span children))) :
    AllWritable (headerPieces name role) ∧
      ∀ child ∈ children, AllWritable (nodePieces child) := by
  rw [Node.pieces_parent] at writable
  exact ⟨writable.append.1, fun child member => writable.append.2.child member⟩

section Characters

theorem taken_of_reads {kind : Kind} {value : String} (reads : Reads kind value) :
    (wordCut value).taken = value.toList := by
  rw [wordCut_of_reads reads]
  rfl

theorem taken_of_header {value : String} (writable : Writable (.header value)) :
    (wordCut value).taken = value.toList := by
  rcases writable with ⟨kind, -, reads⟩
  exact taken_of_reads reads

theorem joined_leafCuts {leaf : Leaf} {value : String}
    (writable : AllWritable (leafPieces value leaf)) :
    joined (leafCuts value leaf) = (leaf.write value).toList := by
  cases leaf with
  | identifier =>
      have taken := taken_of_header (writable _ (List.mem_singleton_self _))
      simp [joined, leafCuts, leafPieces, pieceCut, Leaf.write, taken]
  | call | callback =>
      have taken := taken_of_reads (writable (.name value) (by simp [leafPieces]))
      simp [joined, leafCuts, leafPieces, pieceCut, Leaf.write, taken, plain, markChar]
  | constant kind =>
      have fits := writable _ (List.mem_singleton_self _)
      cases kind with
      | string =>
          simp [joined, leafCuts, leafPieces, pieceCut, Leaf.write, stringCut, Tree.quotedIn]
      | null | integer | float | boolean =>
          simp [joined, leafCuts, leafPieces, pieceCut, Leaf.write, taken_of_reads fits.2]

theorem joined_headerCuts {role : Role} {name : String}
    (writable : AllWritable (headerPieces name role)) :
    joined (headerCuts name role) = (role.write name).toList := by
  cases role with
  | element =>
      have taken := taken_of_header (writable _ (List.mem_singleton_self _))
      simp [joined, headerCuts, headerPieces, pieceCut, Role.write, taken, plain, colonCut]
  | property =>
      have taken := taken_of_reads (writable (.name name) (by simp [headerPieces]))
      simp [joined, headerCuts, headerPieces, pieceCut, Role.write, taken, plain, colonCut,
        markChar]

theorem joined_blockCuts {nodes : List Node} {depth : Nat}
    (each : ∀ node ∈ nodes, joined (nodeCuts depth node) = (node.outline depth).toList) :
    joined (blockCuts depth nodes) = (Tree.outlines depth nodes).toList := by
  induction nodes with
  | nil => rfl
  | cons node others ih =>
      have first := each node List.mem_cons_self
      have rest := ih fun node member => each node (List.mem_cons_of_mem _ member)
      rw [blockCuts, joined_cons, joined_append, first, rest, Tree.outlines]
      simp [breakCut, plain]

theorem joined_nodeCuts {node : Node} (regular : Regular node)
    (writable : AllWritable (nodePieces node)) (depth : Nat) :
    joined (nodeCuts depth node) = (node.outline depth).toList := by
  have taken : (tabsCut depth).taken = (Tree.tabs depth).toList := String.toList_ofList.symm
  induction regular generalizing depth with
  | leaf leaf value span =>
      rw [nodeCuts, joined_cons, joined_leafCuts writable, Node.outline, String.toList_append,
        taken]
  | parent role name span some all ih =>
      obtain ⟨header, children⟩ := writable.parent
      rw [nodeCuts_parent depth some, joined_cons, joined_append, joined_headerCuts header,
        Node.outline_parent depth some, String.toList_append, String.toList_append, taken,
        List.append_assoc, joined_blockCuts]
      intro child member
      exact ih child member (children child member) (depth + 1) String.toList_ofList.symm

end Characters

section Standing

variable {more : List Cut}

theorem writable_header_word {value : String} (writable : Writable (.header value)) :
    ∃ kind, isWordKind kind = true ∧ Reads kind value := by
  rcases writable with ⟨kind, rfl | ⟨rfl, -⟩, reads⟩
  · exact ⟨_, rfl, reads⟩
  · exact ⟨_, rfl, reads⟩

theorem stands_piece {piece : Piece} (writable : Writable piece)
    (unmarked : ∀ kind, piece ≠ .mark kind) (closes : Closes (joined more))
    (stands : Stands false more) :
    Begins (pieceCut piece :: more) ∧ Stands false (pieceCut piece :: more) := by
  have word : ∀ {kind value}, isWordKind kind = true → Reads kind value →
      Begins (wordCut value :: more) ∧ Stands false (wordCut value :: more) :=
    fun word reads => ⟨begins_word reads word, stands_word reads word closes stands⟩
  cases piece with
  | mark kind => exact absurd rfl (unmarked kind)
  | header value =>
      obtain ⟨kind, isWord, reads⟩ := writable_header_word writable
      exact word isWord reads
  | name value => exact word rfl writable
  | literal kind value =>
      cases kind with
      | string => exact ⟨begins_string value, stands_string writable stands⟩
      | null | integer | float | boolean => exact word rfl writable.2

theorem closes_mark {c : Char} {kind : Kind} (closing : isClosing c = true) :
    Closes (joined (plain kind [c] :: more)) :=
  closing

theorem stands_leaf {leaf : Leaf} {value : String}
    (writable : AllWritable (leafPieces value leaf)) (closes : Closes (joined more))
    (stands : Stands false more) :
    Begins (leafCuts value leaf ++ more) ∧ Stands false (leafCuts value leaf ++ more) := by
  cases leaf with
  | identifier | constant =>
      exact stands_piece (writable _ (List.mem_singleton_self _)) (by simp) closes stands
  | call | callback =>
      have name := writable (.name value) (by simp [leafPieces])
      exact ⟨begins_mark rfl, stands_mark rfl (stands_piece name (by simp) closes stands).2⟩

theorem stands_header {role : Role} {name : String}
    (writable : AllWritable (headerPieces name role)) (stands : Stands false more) :
    Begins (headerCuts name role ++ more) ∧ Stands false (headerCuts name role ++ more) := by
  have colon : Stands false (colonCut :: more) := stands_mark rfl stands
  have closes : Closes (joined (colonCut :: more)) := closes_mark rfl
  cases role with
  | element => exact stands_piece (writable _ (List.mem_singleton_self _)) (by simp) closes colon
  | property =>
      have word := writable (.name name) (by simp [headerPieces])
      exact ⟨begins_mark rfl, stands_mark rfl (stands_piece word (by simp) closes colon).2⟩

theorem closes_blockCuts (depth : Nat) (nodes : List Node) (closes : Closes (joined more)) :
    Closes (joined (blockCuts depth nodes ++ more)) := by
  cases nodes with
  | nil => exact closes
  | cons node others => rfl

theorem nodeCuts_eq_cons (depth : Nat) (node : Node) :
    ∃ others, nodeCuts depth node = tabsCut depth :: others := by
  cases node <;> exact ⟨_, by rw [nodeCuts]⟩

theorem lacks_nodeCuts (depth : Nat) (node : Node) (more : List Cut) :
    Lacks isNewLine (joined (nodeCuts (depth + 1) node ++ more)) := by
  obtain ⟨others, lines⟩ := nodeCuts_eq_cons (depth + 1) node
  rw [lines]
  rfl

theorem stands_block {nodes : List Node} {depth : Nat}
    (each : ∀ node ∈ nodes, ∀ more, Closes (joined more) → Stands false more →
      Stands true (nodeCuts (depth + 1) node ++ more))
    (closes : Closes (joined more)) (stands : Stands false more) :
    Stands false (blockCuts (depth + 1) nodes ++ more) := by
  induction nodes with
  | nil => exact stands
  | cons node others ih =>
      have behind := ih fun node member => each node (List.mem_cons_of_mem _ member)
      have ended := closes_blockCuts (depth + 1) others closes
      have line := each node List.mem_cons_self _ ended behind
      rw [blockCuts, List.cons_append, List.append_assoc]
      exact stands_break (lacks_nodeCuts depth node _) line

theorem stands_node {node : Node} (regular : Regular node)
    (writable : AllWritable (nodePieces node)) (depth : Nat) (more : List Cut)
    (closes : Closes (joined more)) (stands : Stands false more) :
    Stands true (nodeCuts (depth + 1) node ++ more) := by
  induction regular generalizing depth more with
  | leaf leaf value span =>
      obtain ⟨begins, line⟩ := stands_leaf writable closes stands
      exact stands_tabs begins line
  | parent role name span some all ih =>
      obtain ⟨header, children⟩ := writable.parent
      have below := stands_block (fun child member more closes stands =>
        ih child member (children child member) (depth + 1) more closes stands) closes stands
      obtain ⟨begins, line⟩ := stands_header header below
      rw [nodeCuts_parent (depth + 1) some, List.cons_append, List.append_assoc]
      exact stands_tabs begins line

end Standing

section Shown

def Visible (cuts : List Cut) : Prop := ∀ cut ∈ cuts, cut.kind.isTrivia = false

theorem visible_nil : Visible [] := List.forall_mem_nil _

theorem visible_cons {cut : Cut} {more : List Cut} (shown : cut.kind.isTrivia = false)
    (visible : Visible more) : Visible (cut :: more) :=
  List.forall_mem_cons.mpr ⟨shown, visible⟩

theorem visible_append {cuts more : List Cut} (first : Visible cuts) (second : Visible more) :
    Visible (cuts ++ more) :=
  List.forall_mem_append.mpr ⟨first, second⟩

theorem shown_piece {piece : Piece} (writable : Writable piece)
    (unmarked : ∀ kind, piece ≠ .mark kind) : (pieceCut piece).kind.isTrivia = false := by
  have closes : Closes (joined []) := rfl
  obtain ⟨cut, others, _, _, same, solid, -⟩ := (stands_piece writable unmarked closes trivial).1
  rw [(List.cons.inj same).1]
  exact solid.not_trivia

theorem visible_leafCuts {leaf : Leaf} {value : String}
    (writable : AllWritable (leafPieces value leaf)) : Visible (leafCuts value leaf) := by
  cases leaf with
  | identifier | constant =>
      have shown := shown_piece (writable _ (List.mem_singleton_self _)) (by simp)
      exact visible_cons shown visible_nil
  | call | callback =>
      have name := writable (.name value) (by simp [leafPieces])
      exact visible_cons rfl (visible_cons (shown_piece name (by simp)) visible_nil)

theorem visible_headerCuts {role : Role} {name : String}
    (writable : AllWritable (headerPieces name role)) : Visible (headerCuts name role) := by
  have colon : Visible [colonCut] := visible_cons rfl visible_nil
  cases role with
  | element =>
      exact visible_cons (shown_piece (writable _ (List.mem_singleton_self _)) (by simp)) colon
  | property =>
      have word := writable (.name name) (by simp [headerPieces])
      exact visible_cons rfl (visible_cons (shown_piece word (by simp)) colon)

theorem visible_blockCuts {nodes : List Node} {depth : Nat}
    (each : ∀ node ∈ nodes, Visible (nodeCuts depth node)) : Visible (blockCuts depth nodes) := by
  induction nodes with
  | nil => exact visible_nil
  | cons node others ih =>
      have first := each node List.mem_cons_self
      have rest := ih fun node member => each node (List.mem_cons_of_mem _ member)
      exact visible_cons rfl (visible_append first rest)

theorem visible_nodeCuts {node : Node} (regular : Regular node)
    (writable : AllWritable (nodePieces node)) (depth : Nat) : Visible (nodeCuts depth node) := by
  induction regular generalizing depth with
  | leaf leaf value span => exact visible_cons rfl (visible_leafCuts writable)
  | parent role name span some all ih =>
      obtain ⟨header, children⟩ := writable.parent
      rw [nodeCuts_parent depth some]
      refine visible_cons rfl (visible_append (visible_headerCuts header) (visible_blockCuts ?_))
      exact fun child member => ih child member (children child member) (depth + 1)

end Shown

/-- A document that can be written: its names are those of the two properties, the first holds one
name and the second a widget. -/
structure Printable (document : Document) : Prop where
  writable : AllWritable (Grammar.documentPieces document)
  viewModel : document.viewModel.name = "viewModel"
  named : ∃ value span, document.viewModel.child = .leaf .identifier value span
  view : document.view.name = "view"
  regular : Regular document.root
  shows : Grammar.isWidget document.root = true

def documentCuts (document : Document) : List Cut :=
  wordCut document.kind.name :: spaceCut :: (headerCuts "viewModel" .property ++
    spaceCut :: wordCut document.viewModelClass :: plain .comma [','] :: spaceCut ::
      (headerCuts "view" .property ++ blockCuts 1 [document.root]))

def shownCuts (document : Document) : List Cut :=
  wordCut document.kind.name :: (headerCuts "viewModel" .property ++
    wordCut document.viewModelClass :: plain .comma [','] ::
      (headerCuts "view" .property ++ blockCuts 1 [document.root]))

namespace Printable

variable {document : Document}

theorem pieces (printable : Printable document) :
    Writable (.name document.kind.name) ∧ AllWritable (headerPieces "viewModel" .property) ∧
      Writable (.header document.viewModelClass) ∧ AllWritable (headerPieces "view" .property) ∧
        AllWritable (nodePieces document.root) := by
  have kind := printable.writable (.name document.kind.name) List.mem_cons_self
  have behind : AllWritable (nodePieces document.viewModel.toNode ++
      nodePieces document.view.toNode) :=
    fun piece member => printable.writable piece (List.mem_cons_of_mem _ member)
  obtain ⟨viewModel, view⟩ := behind.append
  rw [Tree.Property.toNode, nodePieces] at viewModel view
  obtain ⟨viewModelHeader, viewModelClass⟩ := viewModel.append
  obtain ⟨viewHeader, root⟩ := view.append
  rw [printable.viewModel] at viewModelHeader
  rw [printable.view] at viewHeader
  obtain ⟨value, span, held⟩ := printable.named
  rw [held] at viewModelClass
  refine ⟨kind, viewModelHeader, ?_, viewHeader, root⟩
  rw [Document.viewModelClass, held]
  exact viewModelClass _ (List.mem_singleton_self _)

theorem joined_documentCuts (printable : Printable document) :
    joined (documentCuts document) = document.outline.toList := by
  obtain ⟨kind, viewModel, viewModelClass, view, root⟩ := printable.pieces
  have first : " .viewModel: ".toList =
      [' '] ++ (Role.write "viewModel" .property).toList ++ [' '] := by decide
  have second : ", .view:\n".toList =
      [','] ++ [' '] ++ (Role.write "view" .property).toList ++ ['\n'] := by decide
  rw [Document.outline, String.toList_append, String.toList_append, String.toList_append,
    String.toList_append, first, second, ← joined_headerCuts viewModel, ← joined_headerCuts view,
    ← taken_of_reads kind, ← taken_of_header viewModelClass,
    ← joined_nodeCuts printable.regular root]
  simp only [documentCuts, blockCuts, joined_cons, joined_append, spaceCut, breakCut, plain,
    List.append_assoc, List.append_nil]

theorem filter_documentCuts (printable : Printable document) :
    (documentCuts document).filter (!·.kind.isTrivia) = shownCuts document := by
  obtain ⟨kind, viewModel, viewModelClass, view, root⟩ := printable.pieces
  have whole {cuts : List Cut} (visible : Visible cuts) :
      cuts.filter (!·.kind.isTrivia) = cuts :=
    List.filter_eq_self.mpr fun cut member => by simp [visible cut member]
  have first : (wordCut document.kind.name).kind.isTrivia = false := shown_piece kind (by simp)
  have second : (wordCut document.viewModelClass).kind.isTrivia = false :=
    shown_piece viewModelClass (by simp)
  have lines : Visible (blockCuts 1 [document.root]) :=
    visible_blockCuts fun node member =>
      List.mem_singleton.mp member ▸ visible_nodeCuts printable.regular root 1
  rw [documentCuts, List.filter_cons_of_pos (by simp [first]), List.filter_cons_of_neg (by decide),
    List.filter_append, whole (visible_headerCuts viewModel), List.filter_cons_of_neg (by decide),
    List.filter_cons_of_pos (by simp [second]), List.filter_cons_of_pos (by decide),
    List.filter_cons_of_neg (by decide), List.filter_append, whole (visible_headerCuts view),
    whole lines, shownCuts]

theorem stands_documentCuts (printable : Printable document) :
    Stands true (documentCuts document) := by
  obtain ⟨kind, viewModel, viewModelClass, view, root⟩ := printable.pieces
  have each : ∀ node ∈ [document.root], ∀ more, Closes (joined more) → Stands false more →
      Stands true (nodeCuts 1 node ++ more) := by
    intro node member
    rw [List.mem_singleton.mp member]
    exact stands_node printable.regular root 0
  have lines : Stands false (blockCuts 1 [document.root] ++ []) := stands_block each rfl trivial
  rw [List.append_nil] at lines
  obtain ⟨viewBegins, viewLine⟩ := stands_header view lines
  have comma : Stands false (plain .comma [','] :: spaceCut :: _) :=
    stands_mark rfl (stands_space viewBegins viewLine)
  obtain ⟨classBegins, classLine⟩ := stands_piece viewModelClass (by simp) (closes_mark rfl) comma
  obtain ⟨begins, line⟩ := stands_header viewModel (stands_space classBegins classLine)
  exact stands_word kind rfl (closes_mark rfl) (stands_space begins line)

end Printable

end WidgetTree.Outline
