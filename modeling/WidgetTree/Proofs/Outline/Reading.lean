import WidgetTree.Compilation
import WidgetTree.Proofs.Grammar.Follows
import WidgetTree.Proofs.Outline.Lines

/-!
Outlines read again. Main statement: `compile_outline`, whatever text a document came from, its
outline is read as the same document, and nothing is found in it.
-/

namespace WidgetTree.Outline

open Grammar
open Lexeme (Cut Kind Token)
open WidgetTree.Tree (Document Leaf Node Property Regular Role)

section Forms

theorem fits_of_forms {pieces : List Piece} {tokens : List Token} (writable : AllWritable pieces)
    (forms : tokens.map tokenForm = (pieces.map pieceCut).map cutForm) :
    List.Forall₂ Piece.Fits pieces tokens := by
  induction pieces generalizing tokens with
  | nil =>
      rw [List.map_eq_nil_iff.mp forms]
      exact .nil
  | cons piece more ih =>
      rw [List.map_cons, List.map_cons] at forms
      obtain ⟨token, rest, rfl, same, forms⟩ := List.map_eq_cons_iff.mp forms
      exact .cons (fits_of_form (writable piece List.mem_cons_self) same)
        (ih (fun piece member => writable piece (List.mem_cons_of_mem _ member)) forms)

theorem filled_of_stands {lineStart : Bool} {cuts : List Cut} {tokens : List Token}
    (stands : Stands lineStart cuts) (forms : tokens.map tokenForm = cuts.map cutForm)
    {last : Token} (ends : last.kind = .endOfFile) : Filled (tokens ++ [last]) := by
  induction cuts generalizing lineStart tokens with
  | nil =>
      rw [List.map_eq_nil_iff.mp forms]
      exact ⟨fun indentation => absurd (ends.symm.trans indentation) (by simp), trivial⟩
  | cons cut more ih =>
      rcases stands with ⟨joins, others⟩
      obtain ⟨token, rest, rfl, same, forms⟩ := List.map_eq_cons_iff.mp forms
      refine ⟨fun indentation => ?_, ih others forms⟩
      obtain ⟨next, after, _, _, rfl, solid, -⟩ :=
        (joins.tabbed ((kind_of_form same).symm.trans indentation)).2
      obtain ⟨nextToken, left, rfl, same, -⟩ := List.map_eq_cons_iff.mp forms
      exact ⟨nextToken, left ++ [last], rfl, (kind_of_form same).symm ▸ solid⟩

end Forms

section Skipping

variable {options : Options} {tokens rest : List Token}

theorem derives_block_congr {indent : Nat} {nodes : List Node} {left : List Token}
    (same : skipNewLines tokens = skipNewLines rest)
    (derives : Derives options .block indent tokens nodes left) :
    Derives options .block indent rest nodes left := by
  cases derives with
  | blockEnd ends =>
      rw [same] at ends ⊢
      exact .blockEnd ends
  | line deeper first others =>
      rw [same] at deeper first
      exact .line deeper first others

end Skipping

section Lines

variable {options : Options} {tokens below rest : List Token}

def Ends (depth : Nat) (rest : List Token) : Prop :=
  ((current rest).kind = .newLine ∨ (current rest).kind = .endOfFile) ∧
    opensDeeper depth (skipNewLines rest) = false

theorem Ends.deeper {depth : Nat} (ends : Ends depth rest) : Ends (depth + 1) rest := by
  refine ⟨ends.1, ?_⟩
  have less := ends.2
  simp only [opensDeeper, Bool.and_eq_false_iff, decide_eq_false_iff_not] at less ⊢
  exact less.imp_right fun notDeeper deeper => notDeeper (Nat.lt_of_succ_lt deeper)

theorem Ends.standsAlone {depth : Nat} (ends : Ends depth rest) :
    standsAlone depth rest = true := by
  rcases ends with ⟨newLine | ended, less⟩
  · rw [Grammar.standsAlone, newLine, less]
    rfl
  · rw [Grammar.standsAlone, ended]

theorem reads_leaf {leaf : Leaf} {value : String} {depth : Nat}
    (writable : AllWritable (leafPieces value leaf))
    (forms : tokens.map tokenForm = (leafCuts value leaf).map cutForm) (ends : Ends depth rest) :
    ∃ span, Derives options .content depth (tokens ++ rest) [.leaf leaf value span] rest := by
  have fits := fits_of_forms writable forms
  cases leaf with
  | identifier =>
      obtain ⟨name, _, named, none, rfl⟩ := List.forall₂_cons_left_iff.mp fits
      cases none
      obtain ⟨rfl, header⟩ := header_fits_iff.mp named
      exact ⟨_, .name header ends.standsAlone⟩
  | call | callback =>
      obtain ⟨mark, _, marked, others, rfl⟩ := List.forall₂_cons_left_iff.mp fits
      obtain ⟨name, _, ⟨rfl, named⟩, none, rfl⟩ := List.forall₂_cons_left_iff.mp others
      cases none
      have marks : markedLeaf? mark.kind = _ := congrArg markedLeaf? marked
      exact ⟨_, .reference marks named⟩
  | constant kind =>
      obtain ⟨token, _, written, none, rfl⟩ := List.forall₂_cons_left_iff.mp fits
      cases none
      obtain ⟨rfl, literal⟩ := literal_fits_iff.mp written
      exact ⟨_, .constant literal⟩

/-- The rule reads the nodes again, up to their spans, and line breaks behind them at most. -/
def Rereads (options : Options) (part : Part) (indent : Nat) (tokens : List Token)
    (nodes : List Node) (rest : List Token) : Prop :=
  ∃ again left, Derives options part indent tokens again left ∧
    again.map Node.withoutSpans = nodes.map Node.withoutSpans ∧
      skipNewLines left = skipNewLines rest

theorem ne_nil_of_same {again children : List Node} (some : children ≠ [])
    (same : again.map Node.withoutSpans = children.map Node.withoutSpans) : again ≠ [] := by
  rintro rfl
  exact some (List.map_eq_nil_iff.mp same.symm)

theorem elementNode_same {token : Token} {colon : Option Token} {again children : List Node}
    (some : children ≠ [])
    (same : again.map Node.withoutSpans = children.map Node.withoutSpans) :
    (elementNode token [] colon again).withoutSpans =
      .parent .element token.value {} (children.map Node.withoutSpans) := by
  rw [elementNode, List.nil_append, Node.element_eq_parent (ne_nil_of_same some same),
    Node.withoutSpans_parent, same]

theorem propertyNode_same {dot token : Token} {colon : Option Token}
    {again children : List Node} (some : children ≠ [])
    (same : again.map Node.withoutSpans = children.map Node.withoutSpans) :
    ∃ node, propertyNode dot token colon again = .ok node ∧
      node.withoutSpans = .parent .property token.value {} (children.map Node.withoutSpans) := by
  rw [propertyNode]
  simp only [Node.property?_eq_parent (ne_nil_of_same some same)]
  exact ⟨_, rfl, by rw [Node.withoutSpans_parent, same]⟩

section Headers

variable {name : String} {again children : List Node} {depth : Nat}
  {left : List Token}

theorem colon_of_forms {pieces : List Piece} (writable : AllWritable pieces)
    (forms : tokens.map tokenForm = (pieces.map pieceCut ++ [colonCut]).map cutForm) :
    ∃ front colon, tokens = front ++ [colon] ∧ List.Forall₂ Piece.Fits pieces front ∧
      colon.kind = .colon := by
  rw [List.map_append] at forms
  obtain ⟨front, last, rfl, frontForms, ended⟩ := List.map_eq_append_iff.mp forms
  obtain ⟨colon, _, rfl, colonForm, none⟩ := List.map_eq_cons_iff.mp ended
  obtain rfl := List.map_eq_nil_iff.mp none
  exact ⟨front, colon, rfl, fits_of_forms writable frontForms, kind_of_form colonForm⟩

theorem elementHeader_of_forms (writable : AllWritable (headerPieces name .element))
    (forms : tokens.map tokenForm = (headerCuts name .element).map cutForm) :
    ∃ token colon, tokens = [token, colon] ∧ token.value = name ∧ IsHeader token ∧
      colon.kind = .colon := by
  obtain ⟨front, colon, rfl, fits, isColon⟩ := colon_of_forms writable forms
  obtain ⟨token, _, named, none, rfl⟩ := List.forall₂_cons_left_iff.mp fits
  cases none
  obtain ⟨value, header⟩ := header_fits_iff.mp named
  exact ⟨token, colon, rfl, value, header, isColon⟩

theorem propertyHeader_of_forms (writable : AllWritable (headerPieces name .property))
    (forms : tokens.map tokenForm = (headerCuts name .property).map cutForm) :
    ∃ dot token colon, tokens = [dot, token, colon] ∧ dot.kind = .dot ∧ token.value = name ∧
      token.kind = .identifier ∧ colon.kind = .colon := by
  obtain ⟨front, colon, rfl, fits, isColon⟩ := colon_of_forms writable forms
  obtain ⟨dot, _, marked, others, rfl⟩ := List.forall₂_cons_left_iff.mp fits
  obtain ⟨token, _, ⟨value, named⟩, none, rfl⟩ := List.forall₂_cons_left_iff.mp others
  cases none
  exact ⟨dot, token, colon, rfl, marked, value, named, isColon⟩

theorem propertyHeader_begins (writable : AllWritable (headerPieces name .property))
    (forms : tokens.map tokenForm = (headerCuts name .property).map cutForm)
    (behind : List Token) :
    skipNewLines (tokens ++ behind) = tokens ++ behind ∧
      (current (tokens ++ behind)).kind = .dot := by
  obtain ⟨dot, token, colon, rfl, marked, -⟩ := propertyHeader_of_forms writable forms
  exact ⟨skipNewLines_cons_of_ne (by rw [marked]; decide), marked⟩

theorem derives_elementHeader (writable : AllWritable (headerPieces name .element))
    (some : children ≠ [])
    (forms : tokens.map tokenForm = (headerCuts name .element).map cutForm)
    (block : Derives options .block depth below again left)
    (same : again.map Node.withoutSpans = children.map Node.withoutSpans) :
    ∃ node, Derives options .content depth (tokens ++ below) [node] left ∧
      node.withoutSpans = .parent .element name {} (children.map Node.withoutSpans) := by
  obtain ⟨token, colon, rfl, rfl, header, isColon⟩ := elementHeader_of_forms writable forms
  have parent : standsAlone depth (colon :: below) = false := by
    rw [Grammar.standsAlone, current, isColon]
  have noArguments : Derives options .arguments depth (colon :: below) [] (colon :: below) :=
    .argumentsEnd (by rw [current, isColon]; rfl)
  exact ⟨_, .element header parent noArguments (headerColon?_yields_some isColon) block,
    elementNode_same some same⟩

theorem derives_propertyHeader (writable : AllWritable (headerPieces name .property))
    (some : children ≠ [])
    (forms : tokens.map tokenForm = (headerCuts name .property).map cutForm)
    (held : Derives options (valuesPart below) depth below again left)
    (same : again.map Node.withoutSpans = children.map Node.withoutSpans) :
    ∃ node, Derives options .content depth (tokens ++ below) [node] left ∧
      node.withoutSpans = .parent .property name {} (children.map Node.withoutSpans) := by
  obtain ⟨dot, token, colon, rfl, marked, rfl, named, isColon⟩ :=
    propertyHeader_of_forms writable forms
  obtain ⟨node, built, alike⟩ := propertyNode_same some same
  exact ⟨node, .property marked named (colon?_yields_some isColon) held built, alike⟩

end Headers

theorem reads_parent {role : Role} {name : String} {span : Text.Span} {children : List Node}
    {depth : Nat} (writable : AllWritable (headerPieces name role)) (some : children ≠ [])
    (forms : tokens.map tokenForm = (headerCuts name role).map cutForm)
    (newLine : (current below).kind = .newLine)
    (block : Rereads options .block depth below children rest) :
    Rereads options .content depth (tokens ++ below) [.parent role name span children] rest := by
  rcases block with ⟨again, left, derives, same, skips⟩
  have read : ∃ node, Derives options .content depth (tokens ++ below) [node] left ∧
      node.withoutSpans = .parent role name {} (children.map Node.withoutSpans) := by
    cases role with
    | element => exact derives_elementHeader writable some forms derives same
    | property =>
        have held : Derives options (valuesPart below) depth below again left := by
          rwa [valuesPart, if_pos newLine]
        exact derives_propertyHeader writable some forms held same
  rcases read with ⟨node, derives, alike⟩
  refine ⟨[node], left, derives, ?_, skips⟩
  rw [List.map_singleton, List.map_singleton, alike, Node.withoutSpans_parent]

theorem tabs_of_form {tabs : Token} {depth : Nat}
    (same : tokenForm tabs = cutForm (tabsCut depth)) :
    tabs.kind = .indentation ∧ tabs.span.length = depth := by
  have length : tabs.span.length = (List.replicate depth '\t').length := congrArg Form.length same
  exact ⟨kind_of_form same, length.trans List.length_replicate⟩

theorem line_begins {node : Node} {depth : Nat}
    (forms : tokens.map tokenForm = (nodeCuts depth node).map cutForm) :
    ∃ tabs others, tokens = tabs :: others ∧ tabs.kind = .indentation ∧
      tabs.span.length = depth := by
  obtain ⟨cuts, line⟩ := nodeCuts_eq_cons depth node
  rw [line, List.map_cons] at forms
  obtain ⟨tabs, others, rfl, same, -⟩ := List.map_eq_cons_iff.mp forms
  exact ⟨tabs, others, rfl, tabs_of_form same⟩

theorem ends_block {nodes : List Node} {depth : Nat}
    (forms : tokens.map tokenForm = (blockCuts (depth + 1) nodes).map cutForm)
    (ends : Ends depth rest) : Ends (depth + 1) (tokens ++ rest) := by
  cases nodes with
  | nil =>
      rw [List.map_eq_nil_iff.mp forms]
      exact ends.deeper
  | cons node more =>
      rw [blockCuts, List.map_cons, List.map_append] at forms
      obtain ⟨newLine, _, rfl, same, forms⟩ := List.map_eq_cons_iff.mp forms
      obtain ⟨line, others, rfl, lineForms, -⟩ := List.map_eq_append_iff.mp forms
      obtain ⟨tabs, inner, rfl, indentation, length⟩ := line_begins lineForms
      have isBreak : newLine.kind = .newLine := kind_of_form same
      refine ⟨.inl isBreak, ?_⟩
      rw [List.cons_append, skipNewLines_cons_of_eq isBreak, List.cons_append, List.cons_append,
        skipNewLines_cons_of_ne (by rw [indentation]; decide)]
      simp [opensDeeper, current, length]

theorem reads_block {nodes : List Node} {depth : Nat}
    (each : ∀ node ∈ nodes, ∀ (indent : Nat) (tokens rest : List Token),
      tokens.map tokenForm = (nodeCuts (depth + 1) node).map cutForm → Ends (depth + 1) rest →
        Rereads options .node indent (tokens ++ rest) [node] rest)
    (forms : tokens.map tokenForm = (blockCuts (depth + 1) nodes).map cutForm)
    (ends : Ends depth rest) : Rereads options .block depth (tokens ++ rest) nodes rest := by
  induction nodes generalizing tokens with
  | nil =>
      rw [List.map_eq_nil_iff.mp forms]
      exact ⟨[], skipNewLines rest, .blockEnd ends.2, rfl, skipNewLines_skipNewLines rest⟩
  | cons node more ih =>
      rw [blockCuts, List.map_cons, List.map_append] at forms
      obtain ⟨newLine, _, rfl, same, forms⟩ := List.map_eq_cons_iff.mp forms
      obtain ⟨line, others, rfl, lineForms, othersForms⟩ := List.map_eq_append_iff.mp forms
      have isBreak : newLine.kind = .newLine := kind_of_form same
      have behind := ends_block othersForms ends
      obtain ⟨first, left, firstRead, firstSame, firstSkips⟩ :=
        each node List.mem_cons_self depth line (others ++ rest) lineForms behind
      obtain ⟨again, last, othersRead, othersSame, othersSkips⟩ :=
        ih (fun node member => each node (List.mem_cons_of_mem _ member)) othersForms
      obtain ⟨tabs, inner, rfl, indentation, length⟩ := line_begins lineForms
      have begins : skipNewLines ((newLine :: ((tabs :: inner) ++ others)) ++ rest) =
          (tabs :: inner) ++ (others ++ rest) := by
        rw [List.cons_append, skipNewLines_cons_of_eq isBreak, List.append_assoc, List.cons_append,
          skipNewLines_cons_of_ne (by rw [indentation]; decide)]
      refine ⟨first ++ again, last, .line ?_ ?_ (derives_block_congr firstSkips.symm othersRead),
        ?_, othersSkips⟩
      · rw [begins]
        simp [opensDeeper, current, indentation, length]
      · rwa [begins]
      · rw [List.map_append, firstSame, othersSame, ← List.map_append, List.singleton_append]

theorem reads_line {cuts : List Cut} {node : Node} {depth indent : Nat}
    (forms : tokens.map tokenForm = (tabsCut depth :: cuts).map cutForm)
    (inner : ∀ inner : List Token, inner.map tokenForm = cuts.map cutForm →
      Rereads options .content depth (inner ++ rest) [node] rest) :
    Rereads options .node indent (tokens ++ rest) [node] rest := by
  rw [List.map_cons] at forms
  obtain ⟨tabs, line, rfl, same, forms⟩ := List.map_eq_cons_iff.mp forms
  obtain ⟨indentation, length⟩ := tabs_of_form same
  obtain ⟨again, left, derives, alike, skips⟩ := inner line forms
  refine ⟨again, left, .node ?_, alike, skips⟩
  have here : (current ((tabs :: line) ++ rest)).kind = .indentation := indentation
  have deep : lineIndent indent ((tabs :: line) ++ rest) = depth := by
    rw [lineIndent, if_pos here]
    exact length
  have behind : skipIndentation ((tabs :: line) ++ rest) = line ++ rest := by
    rw [skipIndentation, if_pos here]
    rfl
  rwa [deep, behind]

theorem current_block {nodes : List Node} {depth : Nat} (some : nodes ≠ [])
    (forms : tokens.map tokenForm = (blockCuts depth nodes).map cutForm) :
    (current (tokens ++ rest)).kind = .newLine := by
  cases nodes with
  | nil => exact absurd rfl some
  | cons node more =>
      rw [blockCuts, List.map_cons] at forms
      obtain ⟨newLine, _, rfl, same, -⟩ := List.map_eq_cons_iff.mp forms
      exact kind_of_form same

theorem reads_node {node : Node} (regular : Regular node)
    (writable : AllWritable (nodePieces node)) (depth indent : Nat) (tokens rest : List Token)
    (forms : tokens.map tokenForm = (nodeCuts depth node).map cutForm) (ends : Ends depth rest) :
    Rereads options .node indent (tokens ++ rest) [node] rest := by
  induction regular generalizing depth indent tokens rest with
  | leaf leaf value span =>
      apply reads_line forms
      intro inner forms
      obtain ⟨again, derives⟩ := reads_leaf writable forms ends
      exact ⟨_, rest, derives, rfl, rfl⟩
  | parent role name span some all ih =>
      obtain ⟨header, children⟩ := writable.parent
      rw [nodeCuts_parent depth some] at forms
      apply reads_line forms
      intro inner forms
      rw [List.map_append] at forms
      obtain ⟨front, below, rfl, frontForms, belowForms⟩ := List.map_eq_append_iff.mp forms
      have block : Rereads options .block depth (below ++ rest) _ rest :=
        reads_block (fun child member indent tokens rest =>
          ih child member (children child member) (depth + 1) indent tokens rest) belowForms ends
      rw [List.append_assoc]
      exact reads_parent header some frontForms (current_block some belowForms) block

end Lines

section Documents

variable {options : Options} {document : Document}

theorem exists_fits_of_mem {pieces : List Piece} {tokens : List Token} {piece : Piece}
    (fits : List.Forall₂ Piece.Fits pieces tokens) (member : piece ∈ pieces) :
    ∃ token ∈ tokens, piece.Fits token := by
  induction fits with
  | nil => cases member
  | cons first others ih =>
      rcases List.mem_cons.mp member with rfl | member
      · exact ⟨_, List.mem_cons_self, first⟩
      · obtain ⟨token, inside, fits⟩ := ih member
        exact ⟨token, List.mem_cons_of_mem _ inside, fits⟩

theorem writable_of_parse {text : String}
    (parsed : parseDocument options (Lexeme.tokens text) = .ok document) :
    AllWritable (documentPieces document) := by
  intro piece member
  obtain ⟨token, inside, fits⟩ := exists_fits_of_mem (parseDocument_conserves parsed).2 member
  obtain ⟨kept, last, split, -, less, -⟩ := significant_tokens text
  have read : token ∈ readTokens (Lexeme.tokens text) := List.mem_of_mem_filter inside
  have present := List.takeWhile_subset _ read
  rw [split] at present
  exact writable_of_fits fits (less.subset present)

theorem printable_of_parse {text : String}
    (parsed : parseDocument options (Lexeme.tokens text) = .ok document) :
    Printable document := by
  have writable := writable_of_parse parsed
  obtain ⟨-, -, -, -, -, isViewModel, -, -, -, secondRead, isView, shows, -⟩ :=
    document_eq_ok_iff.mp parsed
  obtain ⟨-, viewModel, named⟩ := viewModel?_eq_some_iff.mp isViewModel
  obtain ⟨toNode, view⟩ := view?_eq_some_iff.mp isView
  have regular := secondRead.regular _ (List.mem_singleton_self _)
  rw [← toNode] at regular
  exact ⟨writable, viewModel, named, view, regular.child (List.mem_singleton_self _), shows⟩

theorem isWidget_withoutSpans (node : Node) : isWidget node.withoutSpans = isWidget node := by
  cases node with
  | leaf leaf value span => cases leaf <;> rfl
  | single role name child span | many role name children span => cases role <;> rfl

theorem single_of_withoutSpans {node child : Node} {role : Role} {name : String}
    (same : node.withoutSpans = .single role name child {}) :
    ∃ again span, node = .single role name again span ∧ again.withoutSpans = child := by
  cases node with
  | single =>
      simp only [Node.withoutSpans, Node.single.injEq] at same
      rcases same with ⟨rfl, rfl, same, -⟩
      exact ⟨_, _, rfl, same⟩
  | leaf | many => cases same

theorem leaf_of_withoutSpans {node : Node} {leaf : Leaf} {value : String}
    (same : node.withoutSpans = .leaf leaf value {}) : ∃ span, node = .leaf leaf value span := by
  cases node with
  | leaf =>
      simp only [Node.withoutSpans, Node.leaf.injEq] at same
      rcases same with ⟨rfl, rfl, -⟩
      exact ⟨_, rfl⟩
  | single | many => cases same

theorem derives_name {name comma : Token} (header : IsHeader name)
    (divides : comma.kind = .comma) :
    Derives options (valuesPart (name :: comma :: rest)) 0 (name :: comma :: rest)
      [.leaf .identifier name.value name.span] (comma :: rest) := by
  have unbroken : (current (name :: comma :: rest)).kind ≠ .newLine := by
    rcases header.1 with kind | kind <;> simp [current, kind]
  have unindented : (current (name :: comma :: rest)).kind ≠ .indentation := by
    rcases header.1 with kind | kind <;> simp [current, kind]
  have alone : standsAlone 0 (comma :: rest) = true := by
    rw [Grammar.standsAlone, current, divides]
  rw [valuesPart, if_neg unbroken]
  apply Derives.node
  rw [lineIndent, if_neg unindented, skipIndentation, if_neg unindented]
  exact .name header alone

theorem reads_viewModel (options : Options) {tokens : List Token} {name comma : Token}
    (writable : AllWritable (headerPieces "viewModel" .property))
    (forms : tokens.map tokenForm = (headerCuts "viewModel" .property).map cutForm)
    (header : IsHeader name) (divides : comma.kind = .comma) (rest : List Token) :
    ∃ inner span, Derives options .content 0 (tokens ++ name :: comma :: rest)
      [.single .property "viewModel" (.leaf .identifier name.value inner) span]
        (comma :: rest) := by
  have some : [Node.leaf .identifier name.value name.span] ≠ [] := List.cons_ne_nil _ _
  obtain ⟨_, derives, same⟩ :=
    derives_propertyHeader writable some forms (derives_name header divides) rfl
  obtain ⟨_, span, rfl, held⟩ := single_of_withoutSpans same
  obtain ⟨inner, rfl⟩ := leaf_of_withoutSpans held
  exact ⟨inner, span, derives⟩

theorem reads_view (options : Options) {tokens lines : List Token} {last : Token}
    (printable : Printable document)
    (forms : tokens.map tokenForm = (headerCuts "view" .property).map cutForm)
    (linesForms : lines.map tokenForm = (blockCuts 1 [document.root]).map cutForm)
    (ends : last.kind = .endOfFile) :
    ∃ child span left, Derives options .content 0 (tokens ++ (lines ++ [last]))
      [.single .property "view" child span] left ∧
        child.withoutSpans = document.root.withoutSpans ∧ AtEnd left := by
  obtain ⟨-, -, -, view, root⟩ := printable.pieces
  have alone : skipNewLines [last] = [last] :=
    skipNewLines_cons_of_ne (by rw [ends]; decide)
  have ended : Ends 0 [last] := by
    refine ⟨.inr ends, ?_⟩
    rw [alone]
    simp [opensDeeper, current, ends]
  obtain ⟨again, left, block, same, skips⟩ := reads_block (fun node member =>
    List.mem_singleton.mp member ▸ reads_node printable.regular root 1) linesForms ended
  have some : [document.root] ≠ [] := List.cons_ne_nil _ _
  have held : Derives options (valuesPart (lines ++ [last])) 0 (lines ++ [last]) again left := by
    rwa [valuesPart, if_pos (current_block some linesForms)]
  obtain ⟨_, derives, alike⟩ := derives_propertyHeader view some forms held same
  obtain ⟨child, span, rfl, childSame⟩ := single_of_withoutSpans alike
  exact ⟨child, span, left, derives, childSame, last, [], skips.trans alone, ends⟩

theorem reads_document (options : Options) {tokens : List Token} {last : Token}
    (printable : Printable document)
    (forms : tokens.map tokenForm = (shownCuts document).map cutForm)
    (ends : last.kind = .endOfFile) :
    ∃ again, Composes options (tokens ++ [last]) again ∧
      again.withoutSpans = document.withoutSpans := by
  obtain ⟨kind, viewModel, viewModelClass, view, -⟩ := printable.pieces
  simp only [shownCuts, List.map_cons, List.map_append] at forms
  obtain ⟨first, _, rfl, firstForm, forms⟩ := List.map_eq_cons_iff.mp forms
  obtain ⟨front, _, rfl, frontForms, forms⟩ := List.map_eq_append_iff.mp forms
  obtain ⟨name, _, rfl, nameForm, forms⟩ := List.map_eq_cons_iff.mp forms
  obtain ⟨comma, _, rfl, commaForm, forms⟩ := List.map_eq_cons_iff.mp forms
  obtain ⟨second, lines, rfl, secondForms, linesForms⟩ := List.map_eq_append_iff.mp forms
  obtain ⟨firstKind, firstValue⟩ := token_of_reads kind firstForm
  obtain ⟨nameValue, header⟩ := header_fits_iff.mp (fits_of_form viewModelClass nameForm)
  have divides : comma.kind = .comma := kind_of_form commaForm
  obtain ⟨inner, span, firstRead⟩ :=
    reads_viewModel options viewModel frontForms header divides (second ++ (lines ++ [last]))
  obtain ⟨child, viewSpan, left, secondRead, same, atEnd⟩ :=
    reads_view options printable secondForms linesForms ends
  obtain ⟨frontSkips, firstDot⟩ := propertyHeader_begins viewModel frontForms
    (name :: comma :: (second ++ (lines ++ [last])))
  obtain ⟨secondSkips, secondDot⟩ := propertyHeader_begins view secondForms (lines ++ [last])
  rw [← frontSkips] at firstRead firstDot
  rw [← secondSkips] at secondRead secondDot
  have shape : (first :: (front ++ name :: comma :: (second ++ lines))) ++ [last] =
      first :: (front ++ name :: comma :: (second ++ (lines ++ [last]))) := by
    simp only [List.cons_append, List.append_assoc]
  have shows : isWidget child = true := by
    rw [← isWidget_withoutSpans, same, isWidget_withoutSpans]
    exact printable.shows
  have begins : skipNewLines (first :: (front ++ name :: comma :: (second ++ (lines ++ [last])))) =
      first :: (front ++ name :: comma :: (second ++ (lines ++ [last]))) :=
    skipNewLines_cons_of_ne (by rw [firstKind]; decide)
  have kindNamed := ofName?_eq_some_iff.mpr firstValue.symm
  have composes : Composes options
      (first :: (front ++ name :: comma :: (second ++ (lines ++ [last]))))
      ⟨document.kind, ⟨"viewModel", .leaf .identifier name.value inner, span⟩,
        ⟨"view", child, viewSpan⟩⟩ :=
    .intro begins firstKind kindNamed firstDot firstRead
      (viewModel?_eq_some_iff.mpr ⟨rfl, rfl, _, _, rfl⟩) rfl divides secondDot secondRead
      (view?_eq_some_iff.mpr ⟨rfl, rfl⟩) shows atEnd
  rw [← shape] at composes
  refine ⟨_, composes, ?_⟩
  obtain ⟨value, valueSpan, held⟩ := printable.named
  rw [Document.viewModelClass, held] at nameValue
  simp only [Document.withoutSpans, Property.withoutSpans, printable.viewModel, printable.view,
    held, Node.withoutSpans, same, nameValue, Node.name, Document.root]

theorem significant_outline (printable : Printable document) :
    ∃ tokens last, significant (Lexeme.tokens document.outline) = tokens ++ [last] ∧
      tokens.map tokenForm = (shownCuts document).map cutForm ∧ last.kind = .endOfFile := by
  obtain ⟨front, last, row, forms, -⟩ :=
    row_of_stands printable.stands_documentCuts printable.joined_documentCuts.symm
  have lexed : Lexeme.tokens document.outline =
      front.map (·.token) ++ [(Lexeme.lexemeAtEnd last).token] := by
    rw [Lexeme.tokens, row, List.map_append]
    rfl
  have forms : (front.map (·.token)).map tokenForm = (documentCuts document).map cutForm := by
    rw [List.map_map]
    exact forms
  generalize front.map (·.token) = tokens at lexed forms
  have ends : (Lexeme.lexemeAtEnd last).token.kind = .endOfFile := rfl
  have filled := filled_of_stands printable.stands_documentCuts forms ends
  have shown : (tokens.filter (!·.isTrivia)).map tokenForm = (shownCuts document).map cutForm := by
    have kept := congrArg (List.filter (!·.kind.isTrivia)) forms
    rw [List.filter_map, List.filter_map] at kept
    rw [← printable.filter_documentCuts]
    exact kept
  refine ⟨_, (Lexeme.lexemeAtEnd last).token, ?_, shown, ends⟩
  have stays : [(Lexeme.lexemeAtEnd last).token].filter (!·.isTrivia) =
      [(Lexeme.lexemeAtEnd last).token] := rfl
  rw [significant, lexed, significantFrom_eq_filter filled, List.filter_append, stays,
    closed_append_last ends]

theorem reports_outline (printable : Printable document) :
    Lexeme.reports document.outline (Lexeme.row document.outline) = [] := by
  obtain ⟨front, last, row, -, faultless⟩ :=
    row_of_stands printable.stands_documentCuts printable.joined_documentCuts.symm
  rw [Lexeme.reports, List.filterMap_eq_nil_iff, row]
  intro lexeme member
  have none : lexeme.fault = none := by
    rcases List.mem_append.mp member with inside | atEnd
    · exact faultless lexeme inside
    · rw [List.mem_singleton.mp atEnd]
      rfl
  rw [Lexeme.report?, none]
  rfl

/-- Whatever text a document was read from and with whatever options, its outline is read as the
same document with any options, and nothing is found in it. -/
theorem compile_outline (options options' : Options) (text : String) (document : Document)
    (read : (compile options text).outcome = .ok document) :
    ∃ again, (compile options' document.outline).outcome = .ok again ∧
      again.withoutSpans = document.withoutSpans ∧
        (compile options' document.outline).log = [] := by
  have printable := printable_of_parse read
  obtain ⟨tokens, last, split, forms, ends⟩ := significant_outline printable
  obtain ⟨again, composes, same⟩ := reads_document options' printable forms ends
  have parsed : parseDocument options' (Lexeme.tokens document.outline) = .ok again := by
    rw [parseDocument, split]
    exact document_eq_ok_iff.mpr composes
  refine ⟨again, parsed, same, ?_⟩
  have log : (compile options' document.outline).log =
      Lexeme.reports document.outline (Lexeme.row document.outline) ++
        Grammar.reports document.outline
          (parseDocument options' (Lexeme.tokens document.outline)) := rfl
  rw [log, reports_outline printable, parsed]
  rfl

/-- Quotes of the other kind, literals and properties, on the header's line and below it. -/
theorem compile_outline_row :
    ∃ document again,
      (compile {}
        "Stateful .viewModel: A, .view: Row \"it's\", -0x1F .a: $f\n\t.b:\n\t\t1e-3\n\t\t@g"
        ).outcome = .ok document ∧
      (compile .strict document.outline).outcome = .ok again ∧
        again.withoutSpans = document.withoutSpans := by
  have reads : (compile {}
      "Stateful .viewModel: A, .view: Row \"it's\", -0x1F .a: $f\n\t.b:\n\t\t1e-3\n\t\t@g"
        ).outcome.isOk = true := by
    decide +kernel
  obtain ⟨document, read⟩ := exists_ok_of_isOk reads
  obtain ⟨again, same, alike, -⟩ := compile_outline {} .strict _ document read
  exact ⟨document, again, read, same, alike⟩

end Documents

end WidgetTree.Outline
