import Mathlib.Data.List.Forall2
import WidgetTree.Lexeme.Stream
import WidgetTree.Proofs.Grammar.Whole

/-!
A reading loses, invents and reorders nothing. The pieces of a tree are what it is written with,
layout apart. Main statement: `parse_conserves`, the tokens that were read are the pieces of the
tree, one for one and in order, among layout.
-/

namespace WidgetTree.Grammar

open Lexeme (Kind Token)
open WidgetTree.Tree (ConstantKind Document Leaf Node Property Role WidgetKind)

/-- One part of a written tree. -/
inductive Piece
  | mark (kind : Kind)
  /-- The name of an element, or a name on its own. -/
  | header (value : String)
  /-- The name behind a mark. -/
  | name (value : String)
  | literal (kind : ConstantKind) (value : String)
  deriving DecidableEq, Repr

def literalKind : ConstantKind → Kind
  | .null => .identifier
  | .integer => .integer
  | .float => .float
  | .string => .string
  | .boolean => .boolean

def Piece.Fits : Piece → Token → Prop
  | .mark kind, token => token.kind = kind
  | .header value, token =>
      token.value = value ∧ (token.kind = .widget ∨ token.kind = .identifier ∧ value ≠ "null")
  | .name value, token => token.value = value ∧ token.kind = .identifier
  | .literal kind value, token =>
      token.value = value ∧ token.kind = literalKind kind ∧ (kind = .null → value = "null")

def leafPieces (value : String) : Leaf → List Piece
  | .identifier => [.header value]
  | .call => [.mark .dollarSign, .name value]
  | .callback => [.mark .ampersand, .name value]
  | .constant kind => [.literal kind value]

def headerPieces (name : String) : Role → List Piece
  | .element => [.header name]
  | .property => [.mark .dot, .name name]

mutual

def nodePieces : Node → List Piece
  | .leaf leaf value _ => leafPieces value leaf
  | .single role name child _ => headerPieces name role ++ nodePieces child
  | .many role name children _ => headerPieces name role ++ nodesPieces children

def nodesPieces : List Node → List Piece
  | [] => []
  | node :: more => nodePieces node ++ nodesPieces more

end

def documentPieces (document : Document) : List Piece :=
  .name document.kind.name ::
    (nodePieces document.viewModel.toNode ++ nodePieces document.view.toNode)

theorem nodesPieces_append (nodes more : List Node) :
    nodesPieces (nodes ++ more) = nodesPieces nodes ++ nodesPieces more := by
  induction nodes with
  | nil => rfl
  | cons node nodes ih => rw [List.cons_append, nodesPieces, nodesPieces, ih, List.append_assoc]

theorem nodesPieces_singleton (node : Node) : nodesPieces [node] = nodePieces node := by
  simp [nodesPieces]

theorem nodePieces_element (name : String) (span : Text.Span) (children : List Node) :
    nodePieces (.element name span children) = .header name :: nodesPieces children := by
  match children with
  | [] | [_] | _ :: _ :: _ =>
      simp [Node.element, nodePieces, leafPieces, headerPieces, nodesPieces]

theorem nodePieces_of_property? {name : String} {span : Text.Span} {children : List Node}
    {node : Node} (built : Node.property? name span children = some node) :
    nodePieces node = .mark .dot :: .name name :: nodesPieces children := by
  match children with
  | [] => cases built
  | [_] | _ :: _ :: _ =>
      cases built
      simp [nodePieces, headerPieces, nodesPieces]

theorem nodePieces_of_propertyNode {dot name : Token} {colon : Option Token}
    {children : List Node} {node : Node} (built : propertyNode dot name colon children = .ok node) :
    nodePieces node = .mark .dot :: .name name.value :: nodesPieces children := by
  rw [propertyNode] at built
  split at built
  · next found =>
      cases built
      exact nodePieces_of_property? found
  · cases built

/-- The kinds of token that shape the text and leave no trace in the tree. -/
def isLayout : Kind → Bool
  | .newLine | .indentation | .colon | .comma | .endOfFile => true
  | _ => false

def written (tokens : List Token) : List Token := tokens.filter (!isLayout ·.kind)

def Carries (kind : Kind) : Prop := isLayout kind = false ∧ kind ≠ .error

instance (kind : Kind) : Decidable (Carries kind) := inferInstanceAs (Decidable (_ ∧ _))

theorem carries_of_mark {kind : Kind} {token : Token} (fits : (Piece.mark kind).Fits token)
    (carries : Carries kind) : Carries token.kind :=
  fits ▸ carries

theorem carries_of_header {value : String} {token : Token}
    (fits : (Piece.header value).Fits token) : Carries token.kind := by
  rcases fits.2 with widget | ⟨identifier, -⟩
  · rw [widget]
    decide
  · rw [identifier]
    decide

theorem carries_of_name {value : String} {token : Token} (fits : (Piece.name value).Fits token) :
    Carries token.kind := by
  rw [fits.2]
  decide

theorem carries_of_literal {kind : ConstantKind} {value : String} {token : Token}
    (fits : (Piece.literal kind value).Fits token) : Carries token.kind := by
  rw [fits.2.1]
  cases kind <;> decide

def Spends (pieces : List Piece) (tokens rest : List Token) : Prop :=
  ∃ taken, tokens = taken ++ rest ∧
    (∀ token ∈ taken, token.kind ≠ .error ∧ token.kind ≠ .endOfFile) ∧
      List.Forall₂ Piece.Fits pieces (written taken)

namespace Spends

variable {pieces more : List Piece} {tokens middle rest : List Token}

theorem refl (tokens : List Token) : Spends [] tokens tokens :=
  ⟨[], rfl, by simp, .nil⟩

theorem trans (first : Spends pieces tokens middle) (second : Spends more middle rest) :
    Spends (pieces ++ more) tokens rest := by
  rcases first with ⟨taken, rfl, sound, fits⟩
  rcases second with ⟨next, rfl, nextSound, nextFits⟩
  refine ⟨taken ++ next, (List.append_assoc ..).symm, ?_, ?_⟩
  · intro token member
    exact (List.mem_append.mp member).elim (sound token) (nextSound token)
  · rw [written, List.filter_append]
    exact List.rel_append fits nextFits

theorem cons {piece : Piece} {token : Token} (fits : piece.Fits token)
    (carries : Carries token.kind) (others : Spends pieces tokens rest) :
    Spends (piece :: pieces) (token :: tokens) rest := by
  rcases carries with ⟨shown, sound⟩
  have first : Spends [piece] (token :: tokens) tokens := by
    refine ⟨[token], rfl, ?_, ?_⟩
    · intro other member
      obtain rfl := List.mem_singleton.mp member
      exact ⟨sound, fun ended => by simp [ended, isLayout] at shown⟩
    · rw [written, List.filter_cons_of_pos (by simp [shown])]
      exact .cons fits .nil
  exact first.trans others

theorem layout {kind : Kind} (takes : Takes kind tokens rest) (hidden : isLayout kind = true)
    (goes : kind ≠ .endOfFile) : Spends [] tokens rest := by
  rcases takes with ⟨taken, rfl, same⟩
  refine ⟨taken, rfl, ?_, ?_⟩
  · intro token member
    rw [same token member]
    exact ⟨fun failed => by simp [failed, isLayout] at hidden, goes⟩
  · have none : written taken = [] := by
      rw [written, List.filter_eq_nil_iff]
      intro token member
      simp [same token member, hidden]
    rw [none]
    exact .nil

theorem newLines (tokens : List Token) : Spends [] tokens (skipNewLines tokens) :=
  layout (takes_newLines tokens) rfl (by decide)

theorem comma (tokens : List Token) : Spends [] tokens (skipComma tokens) :=
  layout (takes_comma tokens) rfl (by decide)

end Spends

theorem literal_fits_iff {token : Token} {kind : ConstantKind} {value : String} :
    (Piece.literal kind value).Fits token ↔ token.value = value ∧ constant? token = some kind := by
  rw [Piece.Fits, constant?]
  constructor
  · intro fits
    rcases fits with ⟨rfl, same, null⟩
    refine ⟨rfl, ?_⟩
    cases kind with
    | null => simp [same, literalKind, null rfl]
    | integer | float | string | boolean => simp [same, literalKind]
  · intro fits
    rcases fits with ⟨rfl, literal⟩
    refine ⟨rfl, ?_⟩
    cases same : token.kind <;> simp only [same, reduceCtorEq] at literal
    case identifier =>
      split at literal
      · next null =>
          cases literal
          exact ⟨rfl, fun _ => null⟩
      · cases literal
    all_goals
      cases literal
      exact ⟨rfl, by simp⟩

theorem header_fits_iff {name : Token} {value : String} :
    (Piece.header value).Fits name ↔ name.value = value ∧ IsHeader name := by
  rw [Piece.Fits, IsHeader, constant?]
  apply and_congr_right
  intro same
  subst same
  constructor
  · intro kinds
    rcases kinds with widget | ⟨identifier, notNull⟩
    · exact ⟨.inr widget, by simp [widget]⟩
    · exact ⟨.inl identifier, by simp [identifier, notNull]⟩
  · intro header
    rcases header with ⟨identifier | widget, notLiteral⟩
    · exact .inr ⟨identifier, by simpa [identifier] using notLiteral⟩
    · exact .inl widget

theorem Spends.header {name : Token} {pieces : List Piece} {tokens rest : List Token}
    (header : IsHeader name) (others : Spends pieces tokens rest) :
    Spends (.header name.value :: pieces) (name :: tokens) rest :=
  have fits := header_fits_iff.mpr ⟨rfl, header⟩
  .cons fits (carries_of_header fits) others

theorem Spends.marked {kind : Kind} {mark name : Token} {pieces : List Piece}
    {tokens rest : List Token} (marked : mark.kind = kind) (carries : Carries kind)
    (named : name.kind = .identifier) (others : Spends pieces tokens rest) :
    Spends (.mark kind :: .name name.value :: pieces) (mark :: name :: tokens) rest := by
  have nameFits : (Piece.name name.value).Fits name := ⟨rfl, named⟩
  exact .cons marked (carries_of_mark marked carries)
    (.cons nameFits (carries_of_name nameFits) others)

theorem Spends.reference {leaf : Leaf} {mark name : Token} {rest : List Token}
    (marked : markedLeaf? mark.kind = some leaf) (named : name.kind = .identifier) :
    Spends (leafPieces name.value leaf) (mark :: name :: rest) rest := by
  cases kind : mark.kind <;> simp only [markedLeaf?, kind, reduceCtorEq] at marked
  case dollarSign =>
    cases marked
    exact .marked kind (by decide) named (.refl rest)
  case ampersand =>
    cases marked
    exact .marked kind (by decide) named (.refl rest)

theorem Derives.spends {options : Options} {part : Part} {indent : Nat}
    {tokens rest : List Token} {nodes : List Node}
    (derives : Derives options part indent tokens nodes rest) :
    Spends (nodesPieces nodes) tokens rest := by
  induction derives with
  | node inner ih => exact (Spends.layout (takes_indentation _) rfl (by decide)).trans ih
  | constant literal =>
      have fits := literal_fits_iff.mpr ⟨rfl, literal⟩
      rw [nodesPieces_singleton, nodePieces, leafPieces]
      exact .cons fits (carries_of_literal fits) (.refl _)
  | reference marked named =>
      rw [nodesPieces_singleton, nodePieces]
      exact .reference marked named
  | name header alone =>
      rw [nodesPieces_singleton, nodePieces, leafPieces]
      exact .header header (.refl _)
  | element header parent beside ended under besideIh underIh =>
      rw [nodesPieces_singleton, elementNode, nodePieces_element, nodesPieces_append]
      have colon := Spends.layout (takes_headerColon ended) rfl (by decide)
      exact .header header (besideIh.trans (colon.trans underIh))
  | property marked named ended held built ih =>
      rw [nodesPieces_singleton, nodePieces_of_propertyNode built]
      have colon := Spends.layout (takes_colon ended) rfl (by decide)
      exact .marked marked (by decide) named (colon.trans ih)
  | argumentsEnd ends => exact .refl _
  | argument goes first others firstIh othersIh =>
      rw [nodesPieces_append]
      exact firstIh.trans ((Spends.comma _).trans othersIh)
  | blockEnd ends => exact .newLines _
  | line deeper first others firstIh othersIh =>
      rw [nodesPieces_append]
      exact (Spends.newLines _).trans (firstIh.trans othersIh)

/-- The tokens that are read, those in front of the first end of file. -/
def readTokens (tokens : List Token) : List Token :=
  (significant tokens).takeWhile (·.kind ≠ .endOfFile)

/-- The tokens that are read are well formed and are just the pieces, layout apart. -/
def Conserves (pieces : List Piece) (tokens : List Token) : Prop :=
  (∀ token ∈ readTokens tokens, token.kind ≠ .error) ∧
    List.Forall₂ Piece.Fits pieces (written (readTokens tokens))

theorem conserves_of_spends {pieces : List Piece} {tokens rest : List Token}
    (spends : Spends pieces (significant tokens) rest) (ends : AtEnd rest) :
    Conserves pieces tokens := by
  rcases ends with ⟨last, others, front, kind⟩
  have whole := spends.trans (.newLines rest)
  rw [front, List.append_nil] at whole
  rcases whole with ⟨taken, split, sound, fits⟩
  have read : readTokens tokens = taken := by
    rw [readTokens, split, List.takeWhile_append_of_pos]
    · simp [kind]
    · intro token member
      simpa using (sound token member).2
  rw [Conserves, read]
  exact ⟨fun token member => (sound token member).1, fits⟩

theorem parseDocument_conserves {options : Options} {tokens : List Token} {document : Document}
    (parsed : parseDocument options tokens = .ok document) :
    Conserves (documentPieces document) tokens := by
  obtain ⟨begins, rootKind, named, -, firstRead, isViewModel, divided, commaKind, -, secondRead,
    isView, -, ends⟩ := document_eq_ok_iff.mp parsed
  have rootFits : (Piece.name _).Fits _ := ⟨(ofName?_eq_some_iff.mp named).symm, rootKind⟩
  have viewModel := firstRead.spends
  rw [nodesPieces_singleton, ← (viewModel?_eq_some_iff.mp isViewModel).1, divided] at viewModel
  have view := secondRead.spends
  rw [nodesPieces_singleton, ← (view?_eq_some_iff.mp isView).1] at view
  have behindComma :=
    (Spends.layout (.one commaKind _) rfl (by decide)).trans ((Spends.newLines _).trans view)
  have behindRoot := (Spends.newLines _).trans (viewModel.trans behindComma)
  have whole := Spends.cons rootFits (carries_of_name rootFits) behindRoot
  rw [← begins] at whole
  exact conserves_of_spends ((Spends.newLines _).trans whole) ends

theorem parseFragment_conserves {options : Options} {tokens : List Token} {node : Node}
    (parsed : parseFragment options tokens = .ok node) : Conserves (nodePieces node) tokens := by
  obtain ⟨rest, derives, ends⟩ := fragment_eq_ok_iff.mp parsed
  have spends := derives.spends
  rw [nodesPieces_singleton] at spends
  have whole := (Spends.newLines _).trans (spends.trans (Spends.comma rest))
  rw [List.nil_append, List.append_nil] at whole
  exact conserves_of_spends whole ends

/-- Whatever the row and the options: a document and a single node account for each token read. -/
theorem parse_conserves (options : Options) (tokens : List Token) :
    (∀ document, parseDocument options tokens = .ok document →
      Conserves (documentPieces document) tokens) ∧
    (∀ node, parseFragment options tokens = .ok node → Conserves (nodePieces node) tokens) :=
  ⟨fun _ => parseDocument_conserves, fun _ => parseFragment_conserves⟩

/-- Layout of every kind, around names, a reference and literals. -/
theorem parse_conserves_layout :
    ∃ document, parseDocument {} (Lexeme.tokens
        "Stateless .viewModel: Home, .view: Row $tap, 1\n\tText 'hi'\n\n\tnull\n") = .ok document ∧
      Conserves (documentPieces document) (Lexeme.tokens
        "Stateless .viewModel: Home, .view: Row $tap, 1\n\tText 'hi'\n\n\tnull\n") := by
  have reads : (parseDocument {} (Lexeme.tokens
      "Stateless .viewModel: Home, .view: Row $tap, 1\n\tText 'hi'\n\n\tnull\n")).isOk = true := by
    decide +kernel
  obtain ⟨document, parsed⟩ := exists_ok_of_isOk reads
  exact ⟨document, parsed, (parse_conserves {} _).1 document parsed⟩

end WidgetTree.Grammar
