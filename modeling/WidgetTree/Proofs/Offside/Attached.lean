import WidgetTree.Proofs.Offside.Above
import WidgetTree.Proofs.Offside.Orderly

/-!
Lines and the nodes that they belong to. A block takes the lines that are deeper than its header's,
whatever stands on the lines between. Main definitions: `NearestRule`, a line belongs to a node of
the nearest line above it that is indented less, and `Attached`, what is so instead. Main statement:
`attached_of_ruled`.
-/

namespace WidgetTree.Offside

open Grammar
open Lexeme (Indents Token)
open WidgetTree.Tree (Document Node mem_subtreesOf subtreesOf)

/-- A line belongs to a node on the nearest line above it that is indented less. -/
def NearestRule (row : List Token) (tree : Node) : Prop :=
  ∀ parent ∈ tree.subtrees, ∀ child ∈ parent.children, ∀ line ∈ nearest? row child,
    StartsOn line parent

instance (row : List Token) (tree : Node) : Decidable (NearestRule row tree) :=
  inferInstanceAs (Decidable (∀ parent ∈ tree.subtrees, ∀ child ∈ parent.children, _))

/-- A constant takes no lines below; a line that is deeper goes to the node around it. -/
theorem not_nearestRule_constant :
    Shows (¬ NearestRule · ·) "Stateless .viewModel: V, .view: Foo:\n\t'x'\n\t\tBar" :=
  shows_of_any _ _ (by decide +kernel)

def Sprawls (row : List Token) (node : Node) : Prop :=
  ∃ below ∈ node.subtrees, Breaks (between row node below)

instance (row : List Token) (node : Node) : Decidable (Sprawls row node) :=
  inferInstanceAs (Decidable (∃ below ∈ node.subtrees, _))

/-- The header of the parent goes on behind the lines of a child that begins on its own line. -/
def Resumed (row : List Token) (parent : Node) : Prop :=
  ∃ child ∈ parent.children, ¬ Breaks (between row parent child) ∧ Sprawls row child

instance (row : List Token) (parent : Node) : Decidable (Resumed row parent) :=
  inferInstanceAs (Decidable (∃ child ∈ parent.children, _))

/-- The child begins a line below the parent's that is indented deeper, all lines between are
indented, and the parent's header stands on one line. -/
structure Ruled (row : List Token) (parent child : Node) : Prop where
  deeper : Deeper row (level row parent) child
  hangs : (between row parent child).IsChain Hangs
  header : ¬ Resumed row parent

instance (row : List Token) (parent child : Node) : Decidable (Ruled row parent child) :=
  decidable_of_iff (Deeper row (level row parent) child ∧
      (between row parent child).IsChain Hangs ∧ ¬ Resumed row parent)
    ⟨fun ⟨deeper, hangs, header⟩ => ⟨deeper, hangs, header⟩,
      fun ⟨deeper, hangs, header⟩ => ⟨deeper, hangs, header⟩⟩

/-- The line belongs to a node on the nearest line above that is indented less, or to the node
around the one on that line, which takes no lines. -/
def Attached (row : List Token) (parent child : Node) : Prop :=
  ∃ line ∈ nearest? row child,
    StartsOn line parent ∨ ∃ sibling ∈ parent.children, Shut line sibling

section Header

variable {options : Options} {indent : Nat} {row front behind tokens rest taken : List Token}
  {token indentation : Token} {parent : Node} {inline : List Node}

theorem newLines_of_newLine (newLine : token.kind = .newLine)
    (hangs : (token :: tokens).IsChain Hangs)
    (flush : ∀ token ∈ tokens, token.kind ≠ .indentation) :
    ∀ token ∈ tokens, token.kind = .newLine := by
  induction tokens generalizing token with
  | nil => exact List.forall_mem_nil _
  | cons next tokens ih =>
      rw [List.forall_mem_cons] at flush ⊢
      have goes := (hangs.rel newLine).resolve_right flush.1
      exact ⟨goes, ih goes hangs.tail flush.2⟩

theorem newLines_behind (hangs : (front ++ behind).IsChain Hangs)
    (flush : ∀ token ∈ front ++ behind, token.kind ≠ .indentation) (breaks : Breaks front) :
    ∀ token ∈ behind, token.kind = .newLine := by
  rcases breaks with ⟨token, member, newLine⟩
  obtain ⟨above, below, rfl⟩ := List.append_of_mem member
  rw [List.append_assoc, List.cons_append] at hangs flush
  rw [List.forall_mem_append, List.forall_mem_cons] at flush
  have after := newLines_of_newLine newLine hangs.right_of_append flush.2.2
  exact (List.forall_mem_append.mp after).2

theorem exists_flat (hangs : tokens.IsChain Hangs)
    (flush : ∀ token ∈ tokens, token.kind ≠ .indentation) :
    ∃ flat breaks, tokens = flat ++ breaks ∧ ¬ Breaks flat ∧
      ∀ token ∈ breaks, token.kind = .newLine := by
  refine ⟨tokens.takeWhile (·.kind ≠ .newLine), tokens.dropWhile (·.kind ≠ .newLine),
    List.takeWhile_append_dropWhile.symm, ?_, ?_⟩
  · rintro ⟨token, member, newLine⟩
    have goes := List.mem_takeWhile_imp member
    exact of_decide_eq_true goes newLine
  · have suffix : tokens.dropWhile (·.kind ≠ .newLine) <:+ tokens := List.dropWhile_suffix _
    have stopped := List.head?_dropWhile_not (fun token : Token => token.kind ≠ .newLine) tokens
    cases found : tokens.dropWhile (·.kind ≠ .newLine) with
    | nil => exact List.forall_mem_nil _
    | cons token others =>
        rw [found] at suffix stopped
        have newLine : token.kind = .newLine := by simpa using stopped
        have behind := newLines_of_newLine newLine (hangs.suffix suffix) fun token member =>
          flush token (suffix.subset (List.mem_cons_of_mem _ member))
        exact List.forall_mem_cons.mpr ⟨newLine, behind⟩

theorem sprawls_of_indentation (laid : Laid row) {name : Token} (header : IsHeader name)
    (split : row = (front ++ [name]) ++ rest) (place : before row parent.span.start = front)
    (beside : Derives options .arguments indent rest inline tokens)
    (suffix : indentation :: behind <:+ rest) (later : tokens <:+ behind)
    (kind : indentation.kind = .indentation) :
    ∃ child ∈ inline, ∃ gap first others,
      rest = gap ++ (first :: others ++ indentation :: behind) ∧ Solid first.kind ∧
        before row child.span.start = front ++ name :: gap ∧ Sprawls row child := by
  have indents := laid.indents
  rw [split] at indents
  obtain ⟨⟨below, member, left, opened⟩, -⟩ :=
    opens_of_derives beside indents.right_of_append suffix later kind
  obtain ⟨child, own, under⟩ := mem_subtreesOf.mp member
  have atAll : child ∈ subtreesOf inline :=
    mem_subtreesOf.mpr ⟨child, own, by rw [Node.subtrees_eq]; exact List.mem_cons_self⟩
  obtain ⟨inner, _, _, within, read⟩ := beside.of_subtree child atAll
  obtain ⟨deep, _, _, withinChild, readBelow⟩ :=
    read.of_subtree below (by rwa [Tree.subtreesOf_singleton])
  have restRow : rest <:+ row := ⟨front ++ [name], split.symm⟩
  -- What is read behind the indentation is what is read below the child.
  have same : behind = deep := by
    obtain ⟨_, splitBehind⟩ := (List.suffix_cons indentation behind).trans (suffix.trans restRow)
    obtain ⟨_, splitDeep⟩ := withinChild.trans (within.trans restRow)
    rw [← onward_of_derives laid splitBehind.symm opened,
      onward_of_derives laid splitDeep.symm readBelow]
  subst same
  obtain ⟨first, after, rfl, solid⟩ := solid_of_content read
  rcases front_or_behind suffix within with covers | inside
  · -- A child on the header's line does not begin behind an indentation.
    have all : behind = first :: after := withinChild.eq_of_length_le covers.length_le
    obtain ⟨gap, rfl⟩ := suffix
    have opening : before row child.span.start = (front ++ [name] ++ gap) ++ [indentation] := by
      apply before_of_derives laid _ read
      rw [split, all]
      simp only [List.append_assoc, List.cons_append, List.nil_append]
    obtain ⟨_, _, place, -, closed⟩ := beside_of_arguments laid split place header beside child own
    have unopened := opening_of_closed closed (List.cons_ne_nil _ _) place
    rw [opening_of_indentation kind opening] at unopened
    cases unopened
  · obtain ⟨others, rfl⟩ := behind_of_solid solid kind inside
    obtain ⟨gap, rfl⟩ := within
    have childPlace := before_of_derives laid (split_behind split rfl) read
    have belowPlace : before row below.span.start =
        before row child.span.start ++ (first :: others ++ [indentation]) := by
      rw [childPlace]
      apply before_of_derives laid _ readBelow
      rw [split]
      simp only [List.append_assoc, List.cons_append, List.nil_append]
    refine ⟨child, own, gap, first, others, rfl, solid, ?_, below, under, ?_⟩
    · rw [childPlace, List.append_assoc, List.singleton_append]
    · rw [between_eq belowPlace, breaks_append]
      have line : (first :: others ++ indentation :: behind).IsChain Indents :=
        indents.right_of_append.right_of_append
      have newLine := line.rel_getLast_head_of_append (List.cons_ne_nil first others)
        (List.cons_ne_nil indentation behind) kind
      exact .inl ⟨_, List.getLast_mem _, newLine⟩

theorem flush_of_arguments (laid : Laid row) {name : Token} (header : IsHeader name)
    (split : row = (front ++ [name]) ++ rest) (place : before row parent.span.start = front)
    (beside : Derives options .arguments indent rest inline tokens)
    (inside : rest = taken ++ tokens)
    (hangs : (name :: taken).IsChain Hangs)
    (whole : ∀ child ∈ inline, ¬ Breaks (between row parent child) → ¬ Sprawls row child) :
    ∀ token ∈ taken, token.kind ≠ .indentation := by
  by_contra indented
  obtain ⟨indentation, found⟩ : ∃ first, taken.find? (·.kind = .indentation) = some first := by
    rw [← Option.isSome_iff_exists, List.find?_isSome]
    simpa using indented
  obtain ⟨kind, above, behind, divided, flush⟩ := List.find?_eq_some_iff_append.mp found
  have suffix : indentation :: (behind ++ tokens) <:+ rest := by
    rw [inside, divided, List.append_assoc, List.cons_append]
    exact List.suffix_append _ _
  obtain ⟨child, member, gap, first, others, own, solid, childPlace, sprawls⟩ :=
    sprawls_of_indentation laid header split place beside suffix (List.suffix_append _ _)
      (of_decide_eq_true kind)
  have same : above = gap ++ first :: others := by
    have parts : above ++ indentation :: (behind ++ tokens) =
        (gap ++ first :: others) ++ indentation :: (behind ++ tokens) := by
      rw [List.append_assoc, ← own, inside, divided, List.append_assoc, List.cons_append]
    exact List.append_cancel_right parts
  subst same
  rw [← place] at childPlace
  refine whole child member ?_ sprawls
  rw [between_eq childPlace]
  intro breaks
  have line : ((name :: gap ++ first :: others) ++ indentation :: behind).IsChain Hangs := by
    rwa [divided] at hangs
  have level : ∀ token ∈ name :: gap ++ first :: others, token.kind ≠ .indentation := by
    rw [List.cons_append, List.forall_mem_cons]
    exact ⟨(solid_of_header header).ne (.inl rfl), by simpa using flush⟩
  have newLine := newLines_behind line.left_of_append level breaks first List.mem_cons_self
  exact solid.ne (.inl rfl) newLine

end Header

section Nodes

variable {options : Options} {indent : Nat} {row front gap tokens rest : List Token}
  {indentation name : Token} {parent child : Node} {siblings : List Node}

theorem lineIndent_append (other : name.kind ≠ .indentation) (tokens flat : List Token) :
    lineIndent 0 (tokens ++ name :: flat) = lineIndent 0 tokens := by
  cases tokens with
  | nil => exact if_neg other
  | cons token others => rfl

theorem attached_of_above (laid : Laid row) (header : List Token)
    (start : name.span.start = parent.span.start) (solid : Solid name.kind)
    (place : before row child.span.start =
      before row parent.span.start ++ (name :: header) ++ (gap ++ [indentation]))
    (line : (name :: header).IsChain Hangs → ∃ flat breaks, name :: header = flat ++ breaks ∧
      ¬ Breaks flat ∧ ∀ token ∈ breaks, token.kind = .newLine)
    (kind : indentation.kind = .indentation) (edge : Edge gap)
    (above : gap.IsChain Hangs → Above gap indentation.span.length siblings)
    (own : ∀ sibling ∈ siblings, sibling ∈ parent.children) (ruled : Ruled row parent child) :
    Attached row parent child := by
  have opened : before row child.span.start =
      (before row parent.span.start ++ (name :: header) ++ gap) ++ [indentation] := by
    rw [place, List.append_assoc _ gap]
  have hangs := ruled.hangs
  rw [between_eq (place.trans (List.append_assoc _ _ _)), ← List.append_assoc] at hangs
  have hanging := hangs.left_of_append
  have indents := before_isChain laid child.span.start
  rw [opened] at indents
  rw [Attached, nearest?_eq laid kind opened, shallower?_append indents.left_of_append edge]
  rcases above hanging.right_of_append with deep | ⟨line, found, sibling, member, shut⟩
  · -- No line between is less deep, so the nearest one is that of the header.
    rw [shallower?_eq_none hanging.right_of_append edge deep, Option.none_or]
    obtain ⟨flat, breaks, split, unbroken, newLines⟩ := line hanging.left_of_append
    obtain ⟨_, opening, less⟩ := ruled.deeper
    cases Option.mem_unique opening (opening_of_indentation kind opened)
    cases flat with
    | nil =>
        rw [List.nil_append] at split
        have newLine := newLines name (by rw [← split]; exact List.mem_cons_self)
        exact absurd newLine (solid.ne (.inl rfl))
    | cons first flat =>
        obtain rfl : name = first := (List.cons.inj split).1
        rw [level, ← lineIndent_append (solid.ne (.inl rfl)) _ flat] at less
        have found := shallower?_eq_some unbroken ⟨name, List.mem_cons_self, solid.ne (.inl rfl)⟩
          newLines less
        rw [split, found]
        exact ⟨_, rfl, .inl ⟨name, List.mem_append_right _ List.mem_cons_self, start⟩⟩
  · rw [found]
    exact ⟨line, rfl, .inr ⟨sibling, own sibling member, shut⟩⟩

theorem Ruled.not_beside (ruled : Ruled row parent child) (beside : Beside row parent child) :
    False := by
  rcases beside with ⟨first, more, behind, -, closed⟩
  rcases ruled.deeper with ⟨indentation, opening, -⟩
  rw [opening_of_closed closed (List.cons_ne_nil first more) behind] at opening
  cases opening

theorem attached_of_content (laid : Laid row) (split : row = front ++ tokens)
    (derives : Derives options .content indent tokens [parent] rest) :
    ∀ child ∈ parent.children, Ruled row parent child → Attached row parent child := by
  intro child member ruled
  have place := before_of_derives laid split derives
  cases derives with
  | constant | reference | name => cases member
  | @element _ name rest next after _ inline below colon header standing beside ended under =>
      have start : name.span.start = (elementNode name inline colon below).span.start := by
        rw [elementNode, start_element]
      have own : (elementNode name inline colon below).children = inline ++ below := by
        rw [elementNode, Node.children_element]
      have behindName : row = (front ++ [name]) ++ rest := split_behind split rfl
      have besides := beside_of_arguments laid behindName place header beside
      rw [own] at member
      rcases List.mem_append.mp member with inside | inside
      · exact (ruled.not_beside (besides child inside)).elim
      · obtain ⟨taken, divided, -⟩ := beside.takes
        obtain ⟨colons, ends, kinds⟩ := takes_headerColon ended
        have lines : row = (front ++ name :: (taken ++ colons)) ++ after := by
          rw [behindName, divided, ends]
          simp only [List.append_assoc, List.cons_append, List.nil_append]
        obtain ⟨-, gap, indentation, _, -, childPlace, kind, edge, above⟩ :=
          above_of_block laid under rfl _ lines child inside
        rw [← place] at childPlace
        refine attached_of_above laid (taken ++ colons) start (solid_of_header header) childPlace
          (fun hangs => exists_flat hangs ?_) kind edge above
          (fun sibling later => own ▸ List.mem_append_right inline later) ruled
        have whole : ((name :: taken) ++ colons).IsChain Hangs := hangs
        have flush := flush_of_arguments laid header behindName place beside divided
          whole.left_of_append fun sibling beside unbroken sprawls =>
            ruled.header ⟨sibling, own ▸ List.mem_append_left below beside, unbroken, sprawls⟩
        rw [List.forall_mem_cons, List.forall_mem_append]
        refine ⟨(solid_of_header header).ne (.inl rfl), flush, fun token colon => ?_⟩
        simp [kinds token colon]
  | @property _ dot name rest next _ children colon _ marked named ended held built =>
      obtain ⟨start, own⟩ := of_propertyNode built
      rw [own] at member
      obtain ⟨colons, divided, kinds, unbroken⟩ := unbroken_header marked named ended
      have lines : row = (front ++ dot :: name :: colons) ++ next :=
        split_behind split (by rw [divided]; rfl)
      by_cases newLine : (current next).kind = .newLine
      · rw [valuesPart, if_pos newLine] at held
        obtain ⟨-, gap, indentation, _, -, childPlace, kind, edge, above⟩ :=
          above_of_block laid held rfl _ lines child member
        rw [← place] at childPlace
        refine attached_of_above laid (name :: colons) start.symm (solid_of_dot marked) childPlace
          (fun _ => ?_) kind edge above (fun sibling inside => own ▸ inside) ruled
        exact ⟨_, [], (List.append_nil _).symm, unbroken, List.forall_mem_nil _⟩
      · rw [valuesPart, if_neg newLine] at held
        have besides := (beside_of_value laid lines place marked named kinds held).2
        exact (ruled.not_beside (besides child member)).elim

end Nodes

/-- A line below a parent is the parent's where no nearer line is indented less, and where one is,
that line belongs to a child of the parent that takes no lines. -/
theorem attached_of_ruled {options : Options} {text : String} {document : Document}
    (compiled : (compile options text).outcome = .ok document) :
    ∀ parent ∈ document.nodes, ∀ child ∈ parent.children,
      Ruled (significant (Lexeme.tokens text)) parent child →
        Attached (significant (Lexeme.tokens text)) parent child := by
  intro parent member
  have laid : Laid (significant (Lexeme.tokens text)) :=
    laid_significant fun token member failed =>
      not_malformed_of_parse compiled ⟨token, member, failed⟩
  have parsed : Grammar.document options (significant (Lexeme.tokens text)) = .ok document :=
    compiled
  obtain ⟨tokens, _, _, ⟨front, split⟩, derives⟩ :=
    (document_eq_ok_iff.mp parsed).readFrom parent member
  exact attached_of_content laid split.symm derives

/-- A line under a constant that is deeper goes to the constant's parent. -/
theorem attached_of_ruled_constant :
    Shows (fun row view => ∃ parent ∈ view.subtrees, ∃ child ∈ parent.children,
      Ruled row parent child ∧ Attached row parent child ∧ ∀ line ∈ nearest? row child,
        ¬ StartsOn line parent)
      "Stateless .viewModel: V, .view: Foo:\n\t'x'\n\t\tBar" := by
  obtain ⟨document, compiled, parent, member, child, inside, ruled, apart⟩ := shows_of_any
    (fun row view => ∃ parent ∈ view.subtrees, ∃ child ∈ parent.children,
      Ruled row parent child ∧ ∀ line ∈ nearest? row child, ¬ StartsOn line parent)
    "Stateless .viewModel: V, .view: Foo:\n\t'x'\n\t\tBar" (by decide +kernel)
  exact ⟨document, compiled, parent, member, child, inside, ruled,
    attached_of_ruled compiled parent (List.mem_append_right _ member) child inside ruled, apart⟩

/-- A header that is resumed behind a block takes lines that are deeper than those of the block. -/
example : Shows (fun row view => ∃ parent ∈ view.subtrees, Resumed row parent ∧
    ∃ child ∈ parent.children, ∃ line ∈ nearest? row child,
      ¬ StartsOn line parent ∧ ∀ sibling ∈ parent.children, ¬ StartsOn line sibling)
    "Stateless .viewModel: V, .view: Foo .a:\n\tBar,\n\t\tBaz" :=
  shows_of_any _ _ (by decide +kernel)

end WidgetTree.Offside
