import WidgetTree.Proofs.Grammar.Subtrees
import WidgetTree.Proofs.Offside.Kept

namespace WidgetTree.Offside

open Grammar
open Lexeme (Indents Kind Token)
open WidgetTree.Tree (Node mem_subtreesOf_singleton subtreesOf subtreesOf_append)

section Suffixes

variable {tokens middle behind rest : List Token} {token indentation : Token}

theorem front_or_behind (inside : token :: behind <:+ tokens) (place : middle <:+ tokens) :
    middle <:+ behind ∨ token :: behind <:+ middle := by
  rcases List.suffix_or_suffix_of_suffix inside place with after | less
  · exact .inr after
  · rcases List.suffix_cons_iff.mp less with rfl | front
    · exact .inr List.suffix_rfl
    · exact .inl front

theorem not_suffix_of_suffix (later : rest <:+ behind) : ¬ token :: behind <:+ rest := by
  intro inside
  have longer := inside.length_le
  have shorter := later.length_le
  rw [List.length_cons] at longer
  omega

theorem behind_of_solid (solid : Solid token.kind) (kind : indentation.kind = .indentation)
    (inside : indentation :: behind <:+ token :: rest) : indentation :: behind <:+ rest := by
  rcases List.suffix_cons_iff.mp inside with same | within
  · cases same
    exact absurd kind (solid.ne (.inl rfl))
  · exact within

theorem behind_of_takes {other : Kind} (takes : Takes other tokens rest)
    (differs : other ≠ .indentation) (kind : indentation.kind = .indentation)
    (inside : indentation :: behind <:+ tokens) : indentation :: behind <:+ rest := by
  rcases takes with ⟨taken, rfl, same⟩
  induction taken with
  | nil => exact inside
  | cons token taken ih =>
      rw [List.forall_mem_cons] at same
      rcases List.suffix_cons_iff.mp inside with front | within
      · cases front
        exact absurd (same.1.symm.trans kind) differs
      · exact ih same.2 within

end Suffixes

section Opens

variable {options : Options} {part : Part} {indent : Nat} {tokens rest behind : List Token}
  {nodes more : List Node} {indentation : Token}

def Opens (options : Options) (indentation : Token) (behind : List Token) (nodes : List Node) :
    Prop :=
  ∃ node ∈ subtreesOf nodes, ∃ rest,
    Derives options .content indentation.span.length behind [node] rest

theorem Opens.imp (opens : Opens options indentation behind nodes)
    (less : ∀ node ∈ subtreesOf nodes, node ∈ subtreesOf more) :
    Opens options indentation behind more := by
  rcases opens with ⟨node, member, read⟩
  exact ⟨node, less node member, read⟩

theorem Opens.left (opens : Opens options indentation behind nodes) (more : List Node) :
    Opens options indentation behind (nodes ++ more) :=
  opens.imp fun node member => by
    rw [subtreesOf_append]
    exact List.mem_append_left _ member

theorem Opens.right (opens : Opens options indentation behind more) (nodes : List Node) :
    Opens options indentation behind (nodes ++ more) :=
  opens.imp fun node member => by
    rw [subtreesOf_append]
    exact List.mem_append_right _ member

theorem Opens.parent {node : Node} (opens : Opens options indentation behind nodes)
    (own : node.children = nodes) : Opens options indentation behind [node] :=
  opens.imp fun _ member => mem_subtreesOf_singleton.mpr (.inr (own ▸ member))

theorem unbroken_header {dot name : Token} {colon : Option Token} (marked : dot.kind = .dot)
    (named : name.kind = .identifier) (ended : Yields (colon? options tokens) colon rest) :
    ∃ colons, tokens = colons ++ rest ∧ (∀ token ∈ colons, token.kind = .colon) ∧
      ¬ Breaks (dot :: name :: colons) := by
  obtain ⟨colons, divided, kinds⟩ := takes_colon ended
  refine ⟨colons, divided, kinds, unbroken_cons (solid_of_dot marked) ?_⟩
  exact unbroken_cons (solid_of_name named) (unbroken_of_kind kinds (by decide))

theorem not_indentation_behind_colon {dot name : Token} {colon : Option Token}
    (indents : (dot :: name :: tokens).IsChain Indents) (marked : dot.kind = .dot)
    (named : name.kind = .identifier) (ended : Yields (colon? options tokens) colon rest) :
    (current rest).kind ≠ .indentation := by
  obtain ⟨colons, divided, -, unbroken⟩ := unbroken_header marked named ended
  have line : (dot :: name :: colons ++ rest).IsChain Indents := by rwa [divided] at indents
  exact not_indentation_of_isChain line (List.cons_ne_nil dot _) unbroken

/-- How deep an indentation is among the tokens of a rule, unless the rule begins with it. -/
def Exceeds (indent : Nat) (tokens : List Token) (indentation : Token) (behind : List Token) :
    Part → Prop
  | .node => indentation :: behind = tokens ∨ lineIndent indent tokens < indentation.span.length
  | .content | .arguments | .block => indent < indentation.span.length

def OpensLine (options : Options) (indentation : Token) (behind : List Token) (part : Part)
    (indent : Nat) (tokens : List Token) (nodes : List Node) (rest : List Token) : Prop :=
  tokens.IsChain Indents → indentation :: behind <:+ tokens → rest <:+ behind →
    Opens options indentation behind nodes ∧ Exceeds indent tokens indentation behind part

section Rules

variable {dot name : Token} {next after left : List Token} {inline below children : List Node}
  {colon : Option Token}

theorem opens_node
    (inner : Derives options .content (lineIndent indent tokens) (skipIndentation tokens) nodes
      rest)
    (opens : OpensLine options indentation behind .content (lineIndent indent tokens)
      (skipIndentation tokens) nodes rest) :
    OpensLine options indentation behind .node indent tokens nodes rest := by
  intro indents inside later
  obtain ⟨child, rfl, -⟩ := inner.reads
  cases tokens with
  | nil => simp at inside
  | cons token others =>
      by_cases first : token.kind = .indentation
      · have skipped : skipIndentation (token :: others) = others := if_pos first
        have indented : lineIndent indent (token :: others) = token.span.length := if_pos first
        rw [skipped, indented] at inner opens
        rcases List.suffix_cons_iff.mp inside with same | within
        · cases same
          have own : child ∈ subtreesOf [child] := mem_subtreesOf_singleton.mpr (.inl rfl)
          exact ⟨⟨child, own, rest, inner⟩, .inl rfl⟩
        · obtain ⟨opens, deeper⟩ := opens indents.tail within later
          exact ⟨opens, .inr (indented ▸ deeper)⟩
      · have skipped : skipIndentation (token :: others) = token :: others := if_neg first
        rw [skipped] at opens
        exact (opens indents inside later).imp_right .inr

theorem opens_element (kind : indentation.kind = .indentation) (header : IsHeader name)
    (beside : Derives options .arguments indent rest inline next)
    (ended : Yields (headerColon? options inline next) colon after)
    (besideOpens : OpensLine options indentation behind .arguments indent rest inline next)
    (underOpens : OpensLine options indentation behind .block indent after below left) :
    OpensLine options indentation behind .content indent (name :: rest)
      [elementNode name inline colon below] left := by
  intro indents inside later
  have own : (elementNode name inline colon below).children = inline ++ below := by
    rw [elementNode, Node.children_element]
  have behindName := behind_of_solid (solid_of_header header) kind inside
  rcases front_or_behind behindName beside.suffix with front | behindInline
  · obtain ⟨opens, deeper⟩ := besideOpens indents.tail behindName front
    exact ⟨(opens.left below).parent own, deeper⟩
  · have behindColon := behind_of_takes (takes_headerColon ended) (by decide) kind behindInline
    have lines := (takes_headerColon ended).suffix.trans beside.suffix
    obtain ⟨opens, deeper⟩ := underOpens (indents.tail.suffix lines) behindColon later
    exact ⟨(opens.right inline).parent own, deeper⟩

theorem opens_property {node : Node} (kind : indentation.kind = .indentation)
    (marked : dot.kind = .dot) (named : name.kind = .identifier)
    (ended : Yields (colon? options rest) colon next)
    (built : propertyNode dot name colon children = .ok node)
    (heldOpens : OpensLine options indentation behind (valuesPart next) indent next children
      left) :
    OpensLine options indentation behind .content indent (dot :: name :: rest) [node] left := by
  intro indents inside later
  have behindDot := behind_of_solid (solid_of_dot marked) kind inside
  have behindName := behind_of_solid (solid_of_name named) kind behindDot
  have behindColon := behind_of_takes (takes_colon ended) (by decide) kind behindName
  obtain ⟨opens, deeper⟩ :=
    heldOpens (indents.tail.tail.suffix (takes_colon ended).suffix) behindColon later
  refine ⟨opens.parent (of_propertyNode built).2, ?_⟩
  by_cases newLine : (current next).kind = .newLine
  · rwa [valuesPart, if_pos newLine] at deeper
  · rw [valuesPart, if_neg newLine] at deeper
    have other := not_indentation_behind_colon indents marked named ended
    rcases deeper with rfl | deeper
    · exact absurd kind other
    · rwa [lineIndent, if_neg other] at deeper

theorem opens_argument (kind : indentation.kind = .indentation)
    (goes : endsArguments (current tokens).kind = false)
    (first : Derives options .node indent tokens nodes rest)
    (firstOpens : OpensLine options indentation behind .node indent tokens nodes rest)
    (othersOpen : OpensLine options indentation behind .arguments indent (skipComma rest) more
      left) :
    OpensLine options indentation behind .arguments indent tokens (nodes ++ more) left := by
  intro indents inside later
  rcases front_or_behind inside first.suffix with front | behindFirst
  · obtain ⟨opens, deeper⟩ := firstOpens indents inside front
    refine ⟨opens.left more, ?_⟩
    rcases deeper with rfl | deeper
    · exact absurd kind (not_indentation_of_goes goes)
    · rwa [lineIndent, if_neg (not_indentation_of_goes goes)] at deeper
  · have behindComma := behind_of_takes (takes_comma rest) (by decide) kind behindFirst
    have further := (takes_comma rest).suffix.trans first.suffix
    obtain ⟨opens, deeper⟩ := othersOpen (indents.suffix further) behindComma later
    exact ⟨opens.right nodes, deeper⟩

theorem opens_line (kind : indentation.kind = .indentation)
    (deeper : opensDeeper indent (skipNewLines tokens) = true)
    (first : Derives options .node indent (skipNewLines tokens) nodes rest)
    (firstOpens : OpensLine options indentation behind .node indent (skipNewLines tokens) nodes
      rest)
    (othersOpen : OpensLine options indentation behind .block indent rest more left) :
    OpensLine options indentation behind .block indent tokens (nodes ++ more) left := by
  intro indents inside later
  have behindBreaks := behind_of_takes (takes_newLines tokens) (by decide) kind inside
  have lines := indents.suffix (takes_newLines tokens).suffix
  rcases front_or_behind behindBreaks first.suffix with front | behindFirst
  · obtain ⟨opens, further⟩ := firstOpens lines behindBreaks front
    refine ⟨opens.left more, ?_⟩
    simp only [opensDeeper, Bool.and_eq_true, decide_eq_true_eq] at deeper
    rcases further with same | further
    · rw [← same] at deeper
      exact deeper.2
    · rw [lineIndent, if_pos deeper.1] at further
      exact deeper.2.trans further
  · obtain ⟨opens, further⟩ := othersOpen (lines.suffix first.suffix) behindFirst later
    exact ⟨opens.right nodes, further⟩

end Rules

theorem opens_of_derives (derives : Derives options part indent tokens nodes rest)
    (indents : tokens.IsChain Indents) (inside : indentation :: behind <:+ tokens)
    (later : rest <:+ behind) (kind : indentation.kind = .indentation) :
    Opens options indentation behind nodes ∧
      Exceeds indent tokens indentation behind part := by
  induction derives with
  | node inner ih => exact opens_node inner ih indents inside later
  | constant literal =>
      exact absurd (behind_of_solid (solid_of_constant literal) kind inside)
        (not_suffix_of_suffix later)
  | reference marked named =>
      have behindMark := behind_of_solid (solid_of_marked marked) kind inside
      exact absurd (behind_of_solid (solid_of_name named) kind behindMark)
        (not_suffix_of_suffix later)
  | name header alone =>
      exact absurd (behind_of_solid (solid_of_header header) kind inside)
        (not_suffix_of_suffix later)
  | element header parent beside ended under besideIh underIh =>
      exact opens_element kind header beside ended besideIh underIh indents inside later
  | property marked named ended held built ih =>
      exact opens_property kind marked named ended built ih indents inside later
  | argumentsEnd ends => exact absurd inside (not_suffix_of_suffix later)
  | argument goes first others firstIh othersIh =>
      exact opens_argument kind goes first firstIh othersIh indents inside later
  | blockEnd ends =>
      have behindBreaks := behind_of_takes (takes_newLines _) (by decide) kind inside
      exact absurd behindBreaks (not_suffix_of_suffix later)
  | line deeper first others firstIh othersIh =>
      exact opens_line kind deeper first firstIh othersIh indents inside later

end Opens

end WidgetTree.Offside
