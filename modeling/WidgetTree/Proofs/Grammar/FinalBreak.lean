import WidgetTree.Proofs.Grammar.Follows
import WidgetTree.Proofs.Grammar.Stops
import WidgetTree.Proofs.Grammar.Subtrees

namespace WidgetTree.Grammar

open Lexeme (Kind Token)
open WidgetTree.Tree (Document Node subtreesOf subtreesOf_append)

variable {options : Options} {indent : Nat} {tokens others rest tail tail' : List Token}
  {inline nodes : List Node}

section AtEnd

theorem AtEnd.current_kind (atEnd : AtEnd tokens) :
    (current tokens).kind = .newLine ∨ (current tokens).kind = .endOfFile := by
  rcases atEnd with ⟨last, behind, front, ends⟩
  by_cases newLine : (current tokens).kind = .newLine
  · exact .inl newLine
  · rw [skipNewLines_of_ne newLine] at front
    rw [front]
    exact .inr ends

theorem AtEnd.current_ne {kind : Kind} (atEnd : AtEnd tokens) (other : kind ≠ .newLine)
    (goes : kind ≠ .endOfFile) : (current tokens).kind ≠ kind := by
  rintro rfl
  rcases atEnd.current_kind with newLine | ends
  · exact other newLine
  · exact goes ends

theorem AtEnd.not_solid (atEnd : AtEnd tokens) : ¬ Solid (current tokens).kind := fun solid =>
  atEnd.current_ne (solid.ne (.inl rfl)) (solid.ne (.inr rfl)) rfl

theorem AtEnd.skipNewLines (atEnd : AtEnd tokens) : AtEnd (skipNewLines tokens) := by
  rcases atEnd with ⟨last, behind, front, ends⟩
  refine ⟨last, behind, ?_, ends⟩
  rw [front]
  exact skipNewLines_cons_of_ne (by rw [ends]; decide)

theorem AtEnd.opensDeeper (atEnd : AtEnd tokens) : opensDeeper indent tokens = false := by
  rw [Grammar.opensDeeper]
  rcases atEnd.current_kind with kind | kind
  · simp [kind]
  · simp [kind]

theorem AtEnd.standsAlone (atEnd : AtEnd tokens) : standsAlone indent tokens = true := by
  rw [Grammar.standsAlone]
  rcases atEnd.current_kind with kind | kind
  · simp [kind, atEnd.skipNewLines.opensDeeper]
  · simp [kind]

theorem AtEnd.endsArguments (atEnd : AtEnd tokens) :
    endsArguments (current tokens).kind = true := by
  rcases atEnd.current_kind with kind | kind
  · rw [kind]
    rfl
  · rw [kind]
    rfl

theorem AtEnd.skipComma (atEnd : AtEnd tokens) : skipComma tokens = tokens := by
  cases tokens with
  | nil => rfl
  | cons token rest => exact if_neg (atEnd.current_ne (by decide) (by decide))

theorem AtEnd.not_indentation (atEnd : AtEnd tokens) : (current tokens).kind ≠ .indentation :=
  atEnd.current_ne (by decide) (by decide)

theorem AtEnd.skipIndentation (atEnd : AtEnd tokens) : skipIndentation tokens = tokens :=
  if_neg atEnd.not_indentation

theorem AtEnd.headerColon? (atEnd : AtEnd tokens) (options : Options) (inline : List Node) :
    headerColon? options inline tokens =
      if options.enforceColons ∧ (current tokens).kind = .newLine ∧
          inline.getLast?.any Node.isValue = false then .error (unexpected "Colon" tokens)
      else .ok (.leaving none tokens) := by
  rcases atEnd.current_kind with kind | kind
  · have absent : (current tokens).kind ≠ .colon := atEnd.current_ne (by decide) (by decide)
    rw [Grammar.headerColon?, kind, colon?_absent absent]
    cases inline.getLast?.any Node.isValue with
    | true => simp
    | false => simp
  · rw [Grammar.headerColon?, kind]
    simp

theorem Derives.nil_of_atEnd {part : Part} (derives : Derives options part indent tokens nodes rest)
    (atEnd : AtEnd tokens) : nodes = [] := by
  induction derives with
  | node inner ih => exact ih (atEnd.skipIndentation.symm ▸ atEnd)
  | constant literal => exact absurd (solid_of_constant literal) atEnd.not_solid
  | reference marked => exact absurd (solid_of_marked marked) atEnd.not_solid
  | name header | element header => exact absurd (solid_of_header header) atEnd.not_solid
  | property marked => exact absurd (solid_of_dot marked) atEnd.not_solid
  | argumentsEnd | blockEnd => rfl
  | argument goes =>
      rw [atEnd.endsArguments] at goes
      cases goes
  | line deeper =>
      rw [atEnd.skipNewLines.opensDeeper] at deeper
      cases deeper

end AtEnd

/-- The same tokens up to what ends the rows, or up to what is left behind the line breaks there. -/
inductive UpTo (tail tail' : List Token) : List Token → List Token → Prop
  | here (ends : AtEnd tail) (ends' : AtEnd tail') : UpTo tail tail' tail tail'
  | behind (ends : AtEnd tail) (ends' : AtEnd tail') :
      UpTo tail tail' (skipNewLines tail) (skipNewLines tail')
  | token (token : Token) {rest others : List Token} (same : UpTo tail tail' rest others) :
      UpTo tail tail' (token :: rest) (token :: others)

namespace UpTo

theorem append (core : List Token) (row : UpTo tail tail' tokens others) :
    UpTo tail tail' (core ++ tokens) (core ++ others) := by
  induction core with
  | nil => exact row
  | cons token core ih => exact .token token ih

theorem ends (row : UpTo tail tail' tokens others) : AtEnd tail := by
  induction row with
  | here ends | behind ends => exact ends
  | token token same ih => exact ih

theorem look (row : UpTo tail tail' tokens others) :
    (AtEnd tokens ∧ AtEnd others) ∨
      ∃ token rest more, tokens = token :: rest ∧ others = token :: more ∧
        UpTo tail tail' rest more := by
  cases row with
  | here ends ends' => exact .inl ⟨ends, ends'⟩
  | behind ends ends' => exact .inl ⟨ends.skipNewLines, ends'.skipNewLines⟩
  | token token same => exact .inr ⟨token, _, _, rfl, rfl, same⟩

theorem solid {token : Token} (row : UpTo tail tail' (token :: rest) others)
    (solid : Solid token.kind) : ∃ more, others = token :: more ∧ UpTo tail tail' rest more := by
  rcases row.look with ⟨atEnd, -⟩ | ⟨_, _, more, same, rfl, row⟩
  · exact absurd solid atEnd.not_solid
  · cases same
    exact ⟨more, rfl, row⟩

theorem lines (row : UpTo tail tail' tokens others) :
    UpTo tail tail' (skipNewLines tokens) (skipNewLines others) := by
  induction row with
  | here ends ends' => exact .behind ends ends'
  | behind ends ends' =>
      rw [skipNewLines_skipNewLines, skipNewLines_skipNewLines]
      exact .behind ends ends'
  | @token token rest others same ih =>
      by_cases newLine : token.kind = .newLine
      · rwa [skipNewLines_cons_of_eq newLine, skipNewLines_cons_of_eq newLine]
      · rw [skipNewLines_cons_of_ne newLine, skipNewLines_cons_of_ne newLine]
        exact .token token same

theorem comma (row : UpTo tail tail' tokens others) :
    UpTo tail tail' (skipComma tokens) (skipComma others) := by
  rcases row.look with ⟨atEnd, atEnd'⟩ | ⟨token, rest, more, rfl, rfl, behind⟩
  · rwa [atEnd.skipComma, atEnd'.skipComma]
  · rw [skipComma, skipComma]
    split
    · exact behind
    · exact row

theorem indentation (row : UpTo tail tail' tokens others) :
    UpTo tail tail' (skipIndentation tokens) (skipIndentation others) := by
  rcases row.look with ⟨atEnd, atEnd'⟩ | ⟨token, rest, more, rfl, rfl, behind⟩
  · rwa [atEnd.skipIndentation, atEnd'.skipIndentation]
  · have step : ∀ rest, skipIndentation (token :: rest) =
        if token.kind = .indentation then rest else token :: rest := fun _ => rfl
    rw [step, step]
    split
    · exact behind
    · exact row

theorem lineIndent_eq (row : UpTo tail tail' tokens others) :
    lineIndent indent tokens = lineIndent indent others := by
  rcases row.look with ⟨atEnd, atEnd'⟩ | ⟨token, rest, more, rfl, rfl, -⟩
  · rw [lineIndent, lineIndent, if_neg atEnd.not_indentation, if_neg atEnd'.not_indentation]
  · rfl

theorem opensDeeper_eq (row : UpTo tail tail' tokens others) :
    opensDeeper indent tokens = opensDeeper indent others := by
  rcases row.look with ⟨atEnd, atEnd'⟩ | ⟨token, rest, more, rfl, rfl, -⟩
  · rw [atEnd.opensDeeper, atEnd'.opensDeeper]
  · rfl

theorem standsAlone_eq (row : UpTo tail tail' tokens others) :
    standsAlone indent tokens = standsAlone indent others := by
  rcases row.look with ⟨atEnd, atEnd'⟩ | ⟨token, rest, more, rfl, rfl, -⟩
  · rw [atEnd.standsAlone, atEnd'.standsAlone]
  · rw [standsAlone, standsAlone, row.lines.opensDeeper_eq]
    rfl

theorem endsArguments_eq (row : UpTo tail tail' tokens others) :
    endsArguments (current tokens).kind = endsArguments (current others).kind := by
  rcases row.look with ⟨atEnd, atEnd'⟩ | ⟨token, rest, more, rfl, rfl, -⟩
  · rw [atEnd.endsArguments, atEnd'.endsArguments]
  · rfl

theorem current_eq (row : UpTo tail tail' tokens others) (goes : ¬ AtEnd tokens) :
    current others = current tokens := by
  rcases row.look with ⟨atEnd, -⟩ | ⟨token, rest, more, rfl, rfl, -⟩
  · exact absurd atEnd goes
  · rfl

theorem atEnd (row : UpTo tail tail' tokens others) (ends : AtEnd tokens) : AtEnd others := by
  have skipped := row.lines
  rcases ends with ⟨last, behind, front, kind⟩
  rw [front] at skipped
  rcases skipped.look with ⟨-, ⟨last, behind, front', kind⟩⟩ | ⟨_, _, more, same, front', -⟩
  · rw [skipNewLines_skipNewLines] at front'
    exact ⟨last, behind, front', kind⟩
  · cases same
    exact ⟨last, more, front', kind⟩

theorem colon? {colon : Option Token} (row : UpTo tail tail' tokens others)
    (read : Yields (colon? options tokens) colon rest) (goes : ¬ AtEnd rest) :
    ∃ left, Yields (Grammar.colon? options others) colon left ∧ UpTo tail tail' rest left ∧
      current left = current rest := by
  rcases colon?_cases read with ⟨token, rfl, kind, rfl⟩ | ⟨rfl, rfl, absent⟩
  · obtain ⟨more, rfl, behind⟩ := row.solid (kind ▸ .inr (.inr rfl))
    exact ⟨more, colon?_yields_some kind, behind, behind.current_eq goes⟩
  · have same := row.current_eq goes
    exact ⟨others, colon?_none (lax_of_colon?_none read) (same ▸ absent), row, same⟩

/-- The colon of a header is the same, unless the rows end behind the header and only the second has
a line break there. -/
theorem headerColon? {colon : Option Token} (row : UpTo tail tail' tokens others)
    (read : Yields (headerColon? options inline tokens) colon rest) :
    (∃ left, Yields (Grammar.headerColon? options inline others) colon left ∧
      UpTo tail tail' rest left) ∨
    (options.enforceColons = true ∧ (current tail).kind = .endOfFile ∧ tokens = tail ∧
      colon = none ∧ inline.getLast?.any Node.isValue = false ∧
        Grammar.headerColon? options inline others = .error (unexpected "Colon" tail')) := by
  cases row with
  | here ends ends' =>
      rcases read with ⟨shorter, ran⟩
      rw [ends.headerColon?] at ran
      split at ran
      · cases ran
      · next unasked =>
          cases ran
          rw [ends'.headerColon?]
          split
          · next asked =>
              have atEnd := ends.current_kind.resolve_left fun newLine =>
                unasked ⟨asked.1, newLine, asked.2.2⟩
              exact .inr ⟨asked.1, atEnd, rfl, rfl, asked.2.2, rfl⟩
          · exact .inl ⟨_, ⟨Nat.lt_succ_self _, rfl⟩, .here ends ends'⟩
  | behind ends ends' =>
      have same : ∀ {row : List Token}, AtEnd row → Grammar.headerColon? options inline
          (skipNewLines row) = .ok (.leaving none (skipNewLines row)) := by
        intro row ends
        rw [ends.skipNewLines.headerColon?, if_neg]
        exact fun asked => current_skipNewLines_ne row asked.2.1
      rcases read with ⟨shorter, ran⟩
      rw [same ends] at ran
      cases ran
      exact .inl ⟨_, ⟨Nat.lt_succ_self _, same ends'⟩, .behind ends ends'⟩
  | @token token others more behind =>
      obtain ⟨colons, found⟩ := headerColon?_colons read
      obtain rfl := found.same
      cases colon with
      | none =>
          obtain rfl : token :: others = rest := found.split
          exact .inl ⟨_, found.again (token :: more) fun _ => .inl rfl, .token token behind⟩
      | some mark =>
          obtain ⟨rfl, rfl⟩ := List.cons.inj found.split
          exact .inl ⟨more, found.again more (fun none => by cases none), behind⟩

end UpTo

/-- The row ends behind the header of the element: it has no colon, and its last child on its own
line is no value. -/
inductive EndsInHeader (options : Options) (tokens : List Token) : Node → Prop
  | intro {name : Token} {beside left : List Token} {indent : Nat} {inline : List Node}
      {last : Node} (begins : name :: beside <:+ tokens) (header : IsHeader name)
      (read : Yields (arguments options indent beside) inline left)
      (ends : (current left).kind = .endOfFile) (held : last ∈ inline.getLast?)
      (pending : last.isValue = false) :
      EndsInHeader options tokens (elementNode name inline none [])

structure Excused (options : Options) (tail tokens : List Token) (trees : List Node) : Prop where
  asked : options.enforceColons = true
  ends : (current tail).kind = .endOfFile
  header : ∃ node ∈ trees, EndsInHeader options tokens node

theorem Excused.further {more : List Token} {trees all : List Node}
    (excused : Excused options tail more trees) (behind : more <:+ tokens)
    (among : trees ⊆ all) : Excused options tail tokens all := by
  rcases excused with ⟨asked, ends, node, member, found⟩
  cases found with
  | intro begins header read atEnd held pending =>
      exact ⟨asked, ends, _, among member,
        .intro (begins.trans behind) header read atEnd held pending⟩

theorem arguments_eq_nil (read : Yields (arguments options indent tokens) [] rest) :
    tokens = rest := by
  rcases read with ⟨shorter, ran⟩
  rw [arguments] at ran
  split at ran
  · cases ran
    rfl
  · split at ran
    · cases ran
    · split at ran
      · cases ran
      · cases ran

theorem endsInHeader_of_read {name : Token} (header : IsHeader name)
    (parent : standsAlone indent rest = false)
    (beside : Yields (arguments options indent rest) inline tail)
    (ends : (current tail).kind = .endOfFile)
    (pending : inline.getLast?.any Node.isValue = false) :
    EndsInHeader options (name :: rest) (elementNode name inline none []) := by
  cases last : inline.getLast? with
  | none =>
      rw [List.getLast?_eq_none_iff.mp last] at beside
      rw [arguments_eq_nil beside, standsAlone, ends] at parent
      cases parent
  | some child =>
      rw [last] at pending
      exact .intro List.suffix_rfl header beside ends last pending

/-- On a row that ends in more line breaks the rule reads the nodes as well, unless a colon is asked
for in front of them. -/
def Rereads (options : Options) (tail tail' : List Token) (part : Part) (indent : Nat)
    (tokens : List Token) (nodes : List Node) (rest : List Token) : Prop :=
  ∀ others, UpTo tail tail' tokens others →
    (∃ left, Derives options part indent others nodes left ∧ UpTo tail tail' rest left) ∨
    (Excused options tail tokens (subtreesOf nodes) ∧
      part.Stops options indent others (unexpected "Colon" tail'))

section Rules

variable {dot name : Token} {next after left : List Token} {below more children : List Node}
  {colon : Option Token}

theorem rereads_node (inner : Rereads options tail tail' .content (lineIndent indent tokens)
      (skipIndentation tokens) nodes rest) :
    Rereads options tail tail' .node indent tokens nodes rest := by
  intro others row
  rcases inner _ row.indentation with ⟨left, again, behind⟩ | ⟨excused, stops⟩
  · rw [row.lineIndent_eq] at again
    exact .inl ⟨left, .node again, behind⟩
  · rw [row.lineIndent_eq] at stops
    exact .inr ⟨excused.further (takes_indentation tokens).suffix (List.Subset.refl _),
      node_stops stops⟩

theorem rereads_constant {token : Token} {kind : Tree.ConstantKind}
    (literal : constant? token = some kind) :
    Rereads options tail tail' .content indent (token :: rest)
      [.leaf (.constant kind) token.value token.span] rest := by
  intro others row
  obtain ⟨more, rfl, behind⟩ := row.solid (solid_of_constant literal)
  exact .inl ⟨more, .constant literal, behind⟩

theorem rereads_reference {mark : Token} {leaf : Tree.Leaf}
    (marked : markedLeaf? mark.kind = some leaf) (named : name.kind = .identifier) :
    Rereads options tail tail' .content indent (mark :: name :: rest)
      [.leaf leaf name.value ⟨mark.span.start, name.span.stop⟩] rest := by
  intro others row
  obtain ⟨_, rfl, behindMark⟩ := row.solid (solid_of_marked marked)
  obtain ⟨more, rfl, behind⟩ := behindMark.solid (solid_of_name named)
  exact .inl ⟨more, .reference marked named, behind⟩

theorem rereads_name (header : IsHeader name) (alone : standsAlone indent rest = true) :
    Rereads options tail tail' .content indent (name :: rest)
      [.leaf .identifier name.value name.span] rest := by
  intro others row
  obtain ⟨more, rfl, behind⟩ := row.solid (solid_of_header header)
  rw [behind.standsAlone_eq] at alone
  exact .inl ⟨more, .name header alone, behind⟩

theorem subset_elementNode {trees : List Node} (among : trees ⊆ subtreesOf (inline ++ below)) :
    trees ⊆ subtreesOf [elementNode name inline colon below] := by
  intro node member
  rw [Tree.mem_subtreesOf_singleton, elementNode, Tree.Node.children_element]
  exact .inr (among member)

/-- The readings of a header part where the first row ends behind it, and nowhere else. No line is
left to be read below it. -/
theorem rereads_element (header : IsHeader name) (parent : standsAlone indent rest = false)
    (beside : Derives options .arguments indent rest inline next)
    (ended : Yields (headerColon? options inline next) colon after)
    (under : Derives options .block indent after below left)
    (besideAgain : Rereads options tail tail' .arguments indent rest inline next)
    (underAgain : Rereads options tail tail' .block indent after below left) :
    Rereads options tail tail' .content indent (name :: rest)
      [elementNode name inline colon below] left := by
  intro others row
  obtain ⟨more, rfl, behind⟩ := row.solid (solid_of_header header)
  have parent' := parent
  rw [behind.standsAlone_eq] at parent'
  have behindName := List.suffix_cons name rest
  have split := subtreesOf_append inline below
  rcases besideAgain _ behind with ⟨next', beside', row⟩ | ⟨excused, stops⟩
  · rcases row.headerColon? ended with ⟨after', ended', row⟩ |
      ⟨asked, ends, rfl, rfl, pending, stops⟩
    · rcases underAgain _ row with ⟨left', under', row⟩ | ⟨excused, stops⟩
      · exact .inl ⟨left', .element header parent' beside' ended' under', row⟩
      · have lines := (takes_headerColon ended).suffix.trans beside.suffix
        exact .inr ⟨excused.further (lines.trans behindName)
          (subset_elementNode (split ▸ List.subset_append_right _ _)),
          content_stops_under header parent' beside'.reads ended' stops⟩
    · obtain rfl : next = after := by
        rcases headerColon?_cases ended with ⟨_, none, -⟩ | ⟨-, same⟩
        · cases none
        · exact same
      obtain rfl : below = [] := under.nil_of_atEnd row.ends
      have found := endsInHeader_of_read header parent beside.reads ends pending
      exact .inr ⟨⟨asked, ends, _, Tree.mem_subtreesOf_singleton.mpr (.inl rfl), found⟩,
        content_stops_colon header parent' beside'.reads stops⟩
  · exact .inr ⟨excused.further behindName
      (subset_elementNode (split ▸ List.subset_append_left _ _)),
      content_stops_beside header parent' stops⟩

theorem rereads_property {node : Node} (marked : dot.kind = .dot)
    (named : name.kind = .identifier) (ended : Yields (colon? options rest) colon next)
    (held : Derives options (valuesPart next) indent next children left)
    (built : propertyNode dot name colon children = .ok node)
    (again : Rereads options tail tail' (valuesPart next) indent next children left) :
    Rereads options tail tail' .content indent (dot :: name :: rest) [node] left := by
  intro others row
  obtain ⟨_, rfl, behindDot⟩ := row.solid (solid_of_dot marked)
  obtain ⟨more, rfl, behindName⟩ := behindDot.solid (solid_of_name named)
  -- A property without values is refused, so that its values begin in front of the end.
  have goes : ¬ AtEnd next := by
    intro atEnd
    rw [held.nil_of_atEnd atEnd] at built
    cases built
  obtain ⟨next', ended', row, same⟩ := behindName.colon? ended goes
  have part : valuesPart next' = valuesPart next := by rw [valuesPart, valuesPart, same]
  rcases again _ row with ⟨left', held', row⟩ | ⟨excused, stops⟩
  · exact .inl ⟨left', .property marked named ended' (part ▸ held') built, row⟩
  · have values := (List.suffix_cons name rest).trans (List.suffix_cons dot _)
    refine .inr ⟨excused.further ((takes_colon ended).suffix.trans values) ?_,
      content_stops_values marked named ended' (part ▸ stops)⟩
    intro below member
    rw [Tree.mem_subtreesOf_singleton, (of_propertyNode built).2]
    exact .inr member

theorem rereads_argument (goes : endsArguments (current tokens).kind = false)
    (first : Derives options .node indent tokens nodes rest)
    (firstAgain : Rereads options tail tail' .node indent tokens nodes rest)
    (othersAgain : Rereads options tail tail' .arguments indent (skipComma rest) more left) :
    Rereads options tail tail' .arguments indent tokens (nodes ++ more) left := by
  intro others row
  have goes' := goes
  rw [row.endsArguments_eq] at goes'
  have split := subtreesOf_append nodes more
  rcases firstAgain _ row with ⟨rest', first', behind⟩ | ⟨excused, stops⟩
  · obtain ⟨child, rfl, again⟩ := first'.reads
    rcases othersAgain _ behind.comma with ⟨left', later, behind⟩ | ⟨excused, stops⟩
    · exact .inl ⟨left', .argument goes' first' later, behind⟩
    · exact .inr ⟨excused.further ((takes_comma _).suffix.trans first.suffix)
        (split ▸ List.subset_append_right _ _), arguments_stops_later goes' again stops⟩
  · exact .inr ⟨excused.further List.suffix_rfl (split ▸ List.subset_append_left _ _),
      arguments_stops_first goes' stops⟩

theorem rereads_line (deeper : opensDeeper indent (skipNewLines tokens) = true)
    (first : Derives options .node indent (skipNewLines tokens) nodes rest)
    (firstAgain : Rereads options tail tail' .node indent (skipNewLines tokens) nodes rest)
    (othersAgain : Rereads options tail tail' .block indent rest more left) :
    Rereads options tail tail' .block indent tokens (nodes ++ more) left := by
  intro others row
  have deeper' := deeper
  rw [row.lines.opensDeeper_eq] at deeper'
  have lines := (takes_newLines tokens).suffix
  have split := subtreesOf_append nodes more
  rcases firstAgain _ row.lines with ⟨rest', first', behind⟩ | ⟨excused, stops⟩
  · obtain ⟨child, rfl, again⟩ := first'.reads
    rcases othersAgain _ behind with ⟨left', later, behind⟩ | ⟨excused, stops⟩
    · exact .inl ⟨left', .line deeper' first' later, behind⟩
    · exact .inr ⟨excused.further (first.suffix.trans lines)
        (split ▸ List.subset_append_right _ _), block_stops_later deeper' again stops⟩
  · exact .inr ⟨excused.further lines (split ▸ List.subset_append_left _ _),
      block_stops_first deeper' stops⟩

end Rules

theorem Derives.upTo {part : Part} (derives : Derives options part indent tokens nodes rest) :
    Rereads options tail tail' part indent tokens nodes rest := by
  induction derives with
  | node inner ih => exact rereads_node ih
  | constant literal => exact rereads_constant literal
  | reference marked named => exact rereads_reference marked named
  | name header alone => exact rereads_name header alone
  | element header parent beside ended under besideIh underIh =>
      exact rereads_element header parent beside ended under besideIh underIh
  | property marked named ended held built ih =>
      exact rereads_property marked named ended held built ih
  | argumentsEnd ends =>
      intro others row
      rw [row.endsArguments_eq] at ends
      exact .inl ⟨others, .argumentsEnd ends, row⟩
  | argument goes first others firstIh othersIh =>
      exact rereads_argument goes first firstIh othersIh
  | blockEnd ends =>
      intro others row
      rw [row.lines.opensDeeper_eq] at ends
      exact .inl ⟨_, .blockEnd ends, row.lines⟩
  | line deeper first others firstIh othersIh =>
      exact rereads_line deeper first firstIh othersIh

theorem document_upTo {document : Document} (row : UpTo tail tail' tokens others)
    (read : Grammar.document options tokens = .ok document) :
    Grammar.document options others = .ok document ∨
      (Excused options tail tokens document.nodes ∧
        Grammar.document options others = .error (unexpected "Colon" tail')) := by
  obtain ⟨begins, rootKind, named, firstDot, firstRead, isViewModel, divided, commaKind, secondDot,
    secondRead, isView, shows, ends⟩ := document_eq_ok_iff.mp read
  obtain ⟨viewModelNode, -⟩ := viewModel?_eq_some_iff.mp isViewModel
  obtain ⟨viewNode, -⟩ := view?_eq_some_iff.mp isView
  have same : ∀ {tokens others : List Token}, UpTo tail tail' tokens others →
      (current tokens).kind = .dot → (current others).kind = .dot := by
    intro tokens others row dot
    rw [row.current_eq fun atEnd => atEnd.not_solid (solid_of_dot dot), dot]
  have root := (takes_newLines tokens).suffix
  have skipped := row.lines
  rw [begins] at root skipped
  have first := (takes_newLines _).suffix.trans ((List.suffix_cons _ _).trans root)
  obtain ⟨afterRoot', begins', row⟩ := skipped.solid (solid_of_name rootKind)
  have firstDot' := same row.lines firstDot
  rcases firstRead.upTo _ row.lines with ⟨afterFirst', firstRead', row⟩ | ⟨excused, stops⟩
  · have comma := firstRead.suffix.trans first
    rw [divided] at comma row
    obtain ⟨afterComma', divided', row⟩ := row.solid (commaKind ▸ .inr (.inr rfl))
    have second := (takes_newLines _).suffix.trans ((List.suffix_cons _ _).trans comma)
    have secondDot' := same row.lines secondDot
    rcases secondRead.upTo _ row.lines with ⟨afterSecond', secondRead', row⟩ | ⟨excused, stops⟩
    · exact .inl (document_eq_ok_iff.mpr (.intro begins' rootKind named firstDot' firstRead'
        isViewModel divided' commaKind secondDot' secondRead' isView shows (row.atEnd ends)))
    · refine .inr ⟨excused.further second ?_, document_stops_second begins' rootKind named
        (property_yields_iff.mpr ⟨firstDot', firstRead'⟩) isViewModel divided' commaKind
        (property_stops secondDot' stops)⟩
      rw [Document.nodes, Tree.subtreesOf_singleton, ← viewNode]
      exact List.subset_append_right _ _
  · refine .inr ⟨excused.further first ?_, document_stops_first begins' rootKind named
      (property_stops firstDot' stops)⟩
    rw [Document.nodes, Tree.subtreesOf_singleton, ← viewModelNode]
    exact List.subset_append_left _ _

end WidgetTree.Grammar
