import WidgetTree.Proofs.Offside.Kept
import WidgetTree.Proofs.Refusal

/-!
Documents that keep the offside rule. Main statement: `offsideRule_iff_orderly`, the rule is kept
just by the rows that take none of the ways out of it.
-/

namespace WidgetTree.Offside

open Grammar
open Lexeme (Kind Token)
open WidgetTree.Tree (Document Node)

def lineStarts : List Kind := [.newLine, .indentation, .endOfFile, .comma, .colon]

def Resumes (a b : Token) : Prop := a.kind = .newLine → b.kind ∈ lineStarts

def Starts (tokens : List Token) : Prop := ∀ token ∈ tokens.head?, token.kind ∈ lineStarts

section Lists

variable {taken more : List Token} {kind : Kind}

theorem Starts.append (starts : Starts taken) (next : Starts more) : Starts (taken ++ more) := by
  cases taken with
  | nil => exact next
  | cons token others => exact starts

theorem starts_of_kind (same : ∀ token ∈ taken, token.kind = kind) (listed : kind ∈ lineStarts) :
    Starts taken := by
  intro token head
  rw [same token (List.mem_of_mem_head? head)]
  exact listed

theorem starts_of_opensDeeper {indent : Nat} {tokens : List Token}
    (deeper : opensDeeper indent tokens = true) (inside : tokens = taken ++ more) :
    Starts taken := by
  simp only [opensDeeper, Bool.and_eq_true, decide_eq_true_eq] at deeper
  cases taken with
  | nil =>
      intro token head
      cases head
  | cons token others =>
      rintro _ ⟨⟩
      rw [inside] at deeper
      rw [show token.kind = .indentation from deeper.1]
      decide

theorem isChain_of_kind (same : ∀ token ∈ taken, token.kind = kind) (listed : kind ∈ lineStarts) :
    taken.IsChain Resumes := by
  rw [List.isChain_iff_forall_rel_of_append_cons_cons]
  intro a b front others split _
  rw [same b (by simp [split])]
  exact listed

theorem isChain_of_unbroken (unbroken : ¬ Breaks taken) : taken.IsChain Resumes := by
  rw [List.isChain_iff_forall_rel_of_append_cons_cons]
  intro a b front others split newLine
  exact absurd ⟨a, by simp [split], newLine⟩ unbroken

theorem isChain_append_of_starts (chain : taken.IsChain Resumes) (next : more.IsChain Resumes)
    (starts : Starts more) : (taken ++ more).IsChain Resumes :=
  chain.append next fun _ _ token head _ => starts token head

theorem isChain_append_of_unbroken (unbroken : ¬ Breaks taken) (next : more.IsChain Resumes) :
    (taken ++ more).IsChain Resumes := by
  apply (isChain_of_unbroken unbroken).append next
  intro last inside token head newLine
  exact absurd ⟨last, List.mem_of_getLast? inside, newLine⟩ unbroken

end Lists

section Runs

variable {options : Options} {row tokens rest front : List Token} {part : Part} {indent : Nat}
  {nodes : List Node}

def Runs (part : Part) (tokens rest : List Token) : Prop :=
  ∃ taken, tokens = taken ++ rest ∧ taken.IsChain Resumes ∧ (part = .block → Starts taken)

theorem arguments_cases (derives : Derives options .arguments indent tokens nodes rest) :
    tokens = rest ∨ ∃ node ∈ nodes, ∃ first others, tokens = first :: others ∧
      first.span.start = node.span.start := by
  cases derives with
  | argumentsEnd ends => exact .inl rfl
  | argument goes first others =>
      obtain ⟨child, rfl, -⟩ := first.reads
      obtain ⟨gap, token, behind, split, start, leads⟩ := first.begins child List.mem_cons_self
      rw [leads_of_ne (not_indentation_of_goes goes) leads] at split
      exact .inr ⟨child, List.mem_cons_self, token, behind, split, start⟩

theorem unbroken_behind_name {name : Token} {inline below : List Node} {colon : Option Token}
    (laid : Laid row) (split : row = front ++ name :: tokens) (header : IsHeader name)
    (beside : Derives options .arguments indent tokens inline rest)
    (uncarried : ∀ child ∈ inline, ¬ Carried row (elementNode name inline colon below) child) :
    ∀ child ∈ inline, ¬ Breaks ((before row child.span.start).drop (front ++ [name]).length) := by
  intro child member breaks
  have place := before_elementNode laid split inline colon below
  have behindName : row = (front ++ [name]) ++ tokens := split_behind split rfl
  have besides := beside_of_arguments laid behindName place header beside
  have unbroken := (besides child member).unbroken (uncarried child member)
  rw [between, place] at unbroken
  exact unbroken breaks.of_drop_append

theorem isChain_arguments {gap taken : List Token} (laid : Laid row)
    (split : row = (front ++ gap) ++ tokens) (chain : gap.IsChain Resumes)
    (others : Derives options .arguments indent tokens nodes rest)
    (sameLine : ∀ node ∈ nodes, ¬ Breaks ((before row node.span.start).drop front.length))
    (inside : tokens = taken ++ rest) (next : taken.IsChain Resumes) :
    (gap ++ taken).IsChain Resumes := by
  rcases arguments_cases others with nothing | ⟨node, member, first, behind, begins, start⟩
  · rw [nothing] at inside
    rw [List.self_eq_append_left.mp inside, List.append_nil]
    exact chain
  · have unbroken := sameLine node member
    rw [begins] at split
    rw [← start, before_eq laid split, List.drop_left] at unbroken
    exact isChain_append_of_unbroken unbroken next

/-- Wherever the rule reads in the row, it goes on from line to line, if none of its children is
carried. -/
def RunsOn (row : List Token) (part : Part) (tokens : List Token) (nodes : List Node)
    (rest : List Token) : Prop :=
  ∀ front, row = front ++ tokens →
    (∀ family ∈ familiesOf nodes, ¬ Carried row family.1 family.2) →
    (part = .arguments → ∀ node ∈ nodes,
      ¬ Breaks ((before row node.span.start).drop front.length)) →
    Runs part tokens rest

section Rules

variable {dot name : Token} {next after left : List Token}
  {inline below children more : List Node} {colon : Option Token}

theorem runs_node (inner : RunsOn row .content (skipIndentation tokens) nodes rest) :
    RunsOn row .node tokens nodes rest := by
  intro front split uncarried _
  obtain ⟨lead, whole, kinds⟩ := takes_indentation tokens
  obtain ⟨taken, inside, chain, -⟩ :=
    inner (front ++ lead) (split_behind split whole) uncarried (by simp)
  refine ⟨lead ++ taken, by rw [whole, inside, List.append_assoc], ?_, by simp⟩
  exact isChain_append_of_unbroken (unbroken_of_kind kinds (by decide)) chain

theorem runs_single (token : Token) (rest : List Token) : Runs .content (token :: rest) rest :=
  ⟨[token], rfl, List.isChain_singleton token, by simp⟩

theorem runs_reference {mark : Token} {leaf : Tree.Leaf}
    (marked : markedLeaf? mark.kind = some leaf) (named : name.kind = .identifier) :
    Runs .content (mark :: name :: rest) rest := by
  have unbroken := unbroken_cons (solid_of_name named) unbroken_nil
  refine ⟨[_, _], rfl, ?_, by simp⟩
  exact isChain_of_unbroken (unbroken_cons (solid_of_marked marked) unbroken)

/-- Only the last child on a line can take a line break with it. What follows it is a colon or a
block, and a block begins with a line of its own. -/
theorem runs_element (laid : Laid row) (header : IsHeader name)
    (beside : Derives options .arguments indent rest inline next)
    (ended : Yields (headerColon? options inline next) colon after)
    (besideRuns : RunsOn row .arguments rest inline next)
    (underRuns : RunsOn row .block after below left) :
    RunsOn row .content (name :: rest) [elementNode name inline colon below] left := by
  intro front split uncarried _
  rw [forall_families_iff, children_elementNode, familiesOf_append, List.forall_mem_append,
    List.forall_mem_append] at uncarried
  rcases uncarried with ⟨⟨inlineFree, -⟩, inlineRest, belowRest⟩
  have sameLine := unbroken_behind_name laid split header beside inlineFree
  have behindName : row = (front ++ [name]) ++ rest := split_behind split rfl
  obtain ⟨taken, inside, chain, -⟩ := besideRuns _ behindName inlineRest fun _ => sameLine
  obtain ⟨colons, divided, kinds⟩ := takes_headerColon ended
  have lines := split_behind (split_behind behindName inside) divided
  obtain ⟨more, behind, moreChain, starts⟩ := underRuns _ lines belowRest (by simp)
  have listed : Kind.colon ∈ lineStarts := by decide
  have moreStarts := (starts_of_kind kinds listed).append (starts rfl)
  have headed := isChain_append_of_starts (isChain_of_kind kinds listed) moreChain (starts rfl)
  refine ⟨[name] ++ (taken ++ (colons ++ more)), ?_, ?_, by simp⟩
  · calc
      name :: rest = name :: (taken ++ (colons ++ (more ++ left))) := by
        rw [inside, divided, behind]
      _ = [name] ++ (taken ++ (colons ++ more)) ++ left := by
        simp only [List.append_assoc, List.cons_append, List.nil_append]
  · exact isChain_append_of_unbroken (unbroken_cons (solid_of_header header) unbroken_nil)
      (isChain_append_of_starts chain headed moreStarts)

theorem runs_property {node : Node} (marked : dot.kind = .dot) (named : name.kind = .identifier)
    (ended : Yields (colon? options rest) colon next)
    (built : propertyNode dot name colon children = .ok node)
    (heldRuns : RunsOn row (valuesPart next) next children left) :
    RunsOn row .content (dot :: name :: rest) [node] left := by
  intro front split uncarried _
  rw [forall_families_iff, (of_propertyNode built).2] at uncarried
  obtain ⟨colons, divided, kinds⟩ := takes_colon ended
  have lines : row = (front ++ dot :: name :: colons) ++ next :=
    split_behind split (by rw [divided]; rfl)
  obtain ⟨taken, inside, chain, -⟩ := heldRuns _ lines uncarried.2
    fun arguments => absurd arguments (valuesPart_ne next)
  refine ⟨dot :: name :: colons ++ taken, ?_, ?_, by simp⟩
  · rw [divided, inside, List.append_assoc]
    rfl
  · refine isChain_append_of_unbroken ?_ chain
    exact unbroken_cons (solid_of_dot marked)
      (unbroken_cons (solid_of_name named) (unbroken_of_kind kinds (by decide)))

theorem runs_argument (laid : Laid row)
    (others : Derives options .arguments indent (skipComma rest) more left)
    (firstRuns : RunsOn row .node tokens nodes rest)
    (othersRun : RunsOn row .arguments (skipComma rest) more left) :
    RunsOn row .arguments tokens (nodes ++ more) left := by
  intro front split uncarried sameLine
  rw [familiesOf_append, List.forall_mem_append] at uncarried
  have moreSameLine := (List.forall_mem_append.mp (sameLine rfl)).2
  obtain ⟨taken, inside, chain, -⟩ := firstRuns front split uncarried.1 (by simp)
  obtain ⟨comma, skipped, kinds⟩ := takes_comma rest
  have passed : tokens = (taken ++ comma) ++ skipComma rest := split_behind inside skipped
  have lines := split_behind split passed
  obtain ⟨next, behind, nextChain, -⟩ := othersRun _ lines uncarried.2
    fun _ node member breaks => moreSameLine node member breaks.of_drop_append
  have commaChain := isChain_append_of_starts chain (isChain_of_kind kinds (by decide))
    (starts_of_kind kinds (by decide))
  refine ⟨(taken ++ comma) ++ next, split_behind passed behind, ?_, by simp⟩
  exact isChain_arguments laid lines commaChain others moreSameLine behind nextChain

theorem runs_blockEnd (tokens : List Token) : Runs .block tokens (skipNewLines tokens) := by
  obtain ⟨breaks, newLines, kinds⟩ := takes_newLines tokens
  exact ⟨breaks, newLines, isChain_of_kind kinds (by decide),
    fun _ => starts_of_kind kinds (by decide)⟩

theorem runs_line (deeper : opensDeeper indent (skipNewLines tokens) = true)
    (firstRuns : RunsOn row .node (skipNewLines tokens) nodes rest)
    (othersRun : RunsOn row .block rest more left) :
    RunsOn row .block tokens (nodes ++ more) left := by
  intro front split uncarried _
  rw [familiesOf_append, List.forall_mem_append] at uncarried
  obtain ⟨breaks, newLines, kinds⟩ := takes_newLines tokens
  have lines := split_behind split newLines
  obtain ⟨taken, inside, chain, -⟩ := firstRuns _ lines uncarried.1 (by simp)
  obtain ⟨next, behind, nextChain, starts⟩ :=
    othersRun _ (split_behind lines inside) uncarried.2 (by simp)
  have listed : Kind.newLine ∈ lineStarts := by decide
  have nodeStarts := (starts_of_opensDeeper deeper inside).append (starts rfl)
  refine ⟨breaks ++ (taken ++ next), ?_, ?_, ?_⟩
  · calc
      tokens = breaks ++ skipNewLines tokens := newLines
      _ = breaks ++ (taken ++ (next ++ left)) := by rw [inside, behind]
      _ = breaks ++ (taken ++ next) ++ left := by simp only [List.append_assoc]
  · exact isChain_append_of_starts (isChain_of_kind kinds listed)
      (isChain_append_of_starts chain nextChain (starts rfl)) nodeStarts
  · intro _
    exact (starts_of_kind kinds listed).append nodeStarts

end Rules

theorem runsOn_of_derives (laid : Laid row)
    (derives : Derives options part indent tokens nodes rest) :
    RunsOn row part tokens nodes rest := by
  induction derives with
  | node inner ih => exact runs_node ih
  | constant | name => exact fun _ _ _ _ => runs_single _ _
  | reference marked named => exact fun _ _ _ _ => runs_reference marked named
  | element header parent beside ended under besideIh underIh =>
      exact runs_element laid header beside ended besideIh underIh
  | property marked named ended held built ih => exact runs_property marked named ended built ih
  | argumentsEnd ends => exact fun _ _ _ _ => ⟨[], rfl, List.isChain_nil, by simp⟩
  | argument goes first others firstIh othersIh => exact runs_argument laid others firstIh othersIh
  | blockEnd ends => exact fun _ _ _ _ => runs_blockEnd _
  | line deeper first others firstIh othersIh => exact runs_line deeper firstIh othersIh

theorem runs_of_derives (laid : Laid row)
    (derives : Derives options part indent tokens nodes rest) (front : List Token)
    (split : row = front ++ tokens)
    (uncarried : ∀ family ∈ familiesOf nodes, ¬ Carried row family.1 family.2)
    (sameLine : part = .arguments → ∀ node ∈ nodes,
      ¬ Breaks ((before row node.span.start).drop front.length)) :
    Runs part tokens rest :=
  runsOn_of_derives laid derives front split uncarried sameLine

end Runs

section Documents

variable {options : Options} {text : String} {row tokens rest front others : List Token}
  {last : Token} {document : Document}

theorem eq_nil_behind_end (split : significant (Lexeme.tokens text) = front ++ last :: others)
    (ends : last.kind = .endOfFile) : others = [] := by
  obtain ⟨kept, final, whole, -, -, goes, -⟩ := significant_tokens text
  rw [whole] at split
  cases others using List.reverseRecOn with
  | nil => rfl
  | append_singleton inner other =>
      rw [← List.cons_append, ← List.append_assoc] at split
      have inside : last ∈ kept := by
        rw [List.append_inj_left' split rfl]
        exact List.mem_append_right front List.mem_cons_self
      exact absurd ends (goes last inside)

theorem rejects_of_resumes {a b : Token} (resumes : Resumes a b) (bare : Bare a b) :
    Rejects a b := by
  intro newLine
  obtain ⟨noComma, noColon⟩ := bare newLine
  have listed := resumes newLine
  simp only [lineStarts, List.mem_cons, List.not_mem_nil, noComma, noColon, or_false] at listed
  simpa using listed

theorem isChain_rejects (chain : tokens.IsChain Resumes) (bare : tokens.IsChain Bare) :
    tokens.IsChain Rejects := by
  rw [List.isChain_iff_forall_rel_of_append_cons_cons] at chain bare ⊢
  intro a b front others split
  exact rejects_of_resumes (chain split) (bare split)

theorem exists_view (composes : Composes options row document) :
    ∃ front tokens rest, row = front ++ tokens ∧
      Derives options .content 0 tokens [document.view.toNode] rest ∧ AtEnd rest := by
  rcases composes with ⟨begins, -, -, -, firstRead, -, divided, -, -, secondRead, isView, -, ends⟩
  rw [← (view?_eq_some_iff.mp isView).1] at secondRead
  have afterRoot := (takes_newLines row).suffix
  rw [begins] at afterRoot
  have beforeFirst := (takes_newLines _).suffix.trans
    ((List.suffix_cons _ _).trans afterRoot)
  have afterFirst := firstRead.suffix.trans beforeFirst
  rw [divided] at afterFirst
  obtain ⟨front, split⟩ := (takes_newLines _).suffix.trans
    ((List.suffix_cons _ _).trans afterFirst)
  exact ⟨front, _, _, split.symm, secondRead, ends⟩

theorem before_of_derives {node : Node} {indent : Nat} (laid : Laid row)
    (split : row = front ++ tokens)
    (derives : Derives options .content indent tokens [node] rest) :
    before row node.span.start = front := by
  obtain ⟨gap, first, others, begins, start, rfl⟩ := derives.begins node List.mem_cons_self
  rw [begins, List.nil_append] at split
  rw [← start, before_eq laid split]

theorem onward_of_derives {node : Node} {indent : Nat} (laid : Laid row)
    (split : row = front ++ tokens)
    (derives : Derives options .content indent tokens [node] rest) :
    onward row node.span.start = tokens := by
  obtain ⟨gap, first, behind, begins, start, rfl⟩ := derives.begins node List.mem_cons_self
  rw [begins, List.nil_append] at split ⊢
  rw [← start]
  exact onward_eq laid split

theorem onward_isChain {view : Node} (laid : Laid (significant (Lexeme.tokens text)))
    (split : significant (Lexeme.tokens text) = front ++ tokens)
    (derives : Derives options .content 0 tokens [view] rest) (ends : AtEnd rest)
    (uncarried : ∀ family ∈ familiesOf [view],
      ¬ Carried (significant (Lexeme.tokens text)) family.1 family.2) :
    tokens.IsChain Resumes := by
  obtain ⟨taken, inside, chain, -⟩ := runs_of_derives laid derives front split uncarried (by simp)
  obtain ⟨breaks, newLines, kinds⟩ := takes_newLines rest
  rcases ends with ⟨last, others, skipped, kind⟩
  have whole : tokens = taken ++ (breaks ++ last :: others) := calc
    tokens = taken ++ rest := inside
    _ = taken ++ (breaks ++ skipNewLines rest) := by rw [← newLines]
    _ = taken ++ (breaks ++ last :: others) := by rw [skipped]
  have atEnd : significant (Lexeme.tokens text) = front ++ (taken ++ breaks) ++ last :: others := by
    rw [split, whole]
    simp only [List.append_assoc]
  have listed : Kind.newLine ∈ lineStarts := by decide
  have lastStarts : Starts [last] := by
    rintro _ ⟨⟩
    rw [kind]
    decide
  rw [whole, eq_nil_behind_end atEnd kind]
  exact isChain_append_of_starts chain
    (isChain_append_of_starts (isChain_of_kind kinds listed) (List.isChain_singleton last)
      lastStarts)
    ((starts_of_kind kinds listed).append lastStarts)

theorem Orderly.offsideRule (compiled : (compile options text).outcome = .ok document)
    (orderly : Orderly (significant (Lexeme.tokens text)) document.view.toNode) :
    OffsideRule (significant (Lexeme.tokens text)) document.view.toNode := by
  have laid : Laid (significant (Lexeme.tokens text)) :=
    laid_significant fun token member failed =>
      not_malformed_of_parse compiled ⟨token, member, failed⟩
  have parsed : Grammar.document options (significant (Lexeme.tokens text)) = .ok document :=
    compiled
  obtain ⟨front, tokens, rest, split, derives, ends⟩ := exists_view (document_eq_ok_iff.mp parsed)
  have single : familiesOf [document.view.toNode] = families document.view.toNode :=
    List.append_nil _
  constructor
  · rw [← single]
    have held : Held (significant (Lexeme.tokens text)) document.view.toNode 0
        document.view.toNode := by
      apply Or.inr
      rw [between, List.drop_length]
      exact unbroken_nil
    refine inPlace_of_derives laid derives front split (fun family member => ?_)
      (List.forall_mem_singleton.mpr held)
    rw [single] at member
    exact ⟨orderly.uncarried family member, orderly.undercut family member⟩
  · have bare := orderly.bare
    rw [onward_of_derives laid split derives] at bare ⊢
    refine isChain_rejects (onward_isChain laid split derives ends ?_) bare
    rw [single]
    exact orderly.uncarried

/-- The rule is kept just where no line is carried on by an outer header, none is undercut by the
view's own line and none begins with a comma or a colon. -/
theorem offsideRule_iff_orderly (compiled : (compile options text).outcome = .ok document) :
    OffsideRule (significant (Lexeme.tokens text)) document.view.toNode ↔
      Orderly (significant (Lexeme.tokens text)) document.view.toNode :=
  ⟨OffsideRule.orderly, Orderly.offsideRule compiled⟩

def Shows (p : List Token → Node → Prop) (text : String) : Prop :=
  ∃ document, (compile {} text).outcome = .ok document ∧
    p (significant (Lexeme.tokens text)) document.view.toNode

theorem shows_of_any (p : List Token → Node → Prop) [∀ row view, Decidable (p row view)]
    (text : String)
    (found : (compile {} text).outcome.toOption.any
      (p (significant (Lexeme.tokens text)) ·.view.toNode) = true) : Shows p text := by
  cases outcome : (compile {} text).outcome with
  | error problem =>
      rw [outcome] at found
      cases found
  | ok document =>
      rw [outcome] at found
      exact ⟨document, outcome, of_decide_eq_true found⟩

/-- A block keeps the rule, and breaks it with an unindented line behind it: the header in front of
the block goes on with that line. -/
theorem offsideRule_iff_orderly_block :
    Shows OffsideRule "Stateless .viewModel: V, .view: Foo .bar:\n\tBaz" ∧
      Shows (¬ OffsideRule · ·) "Stateless .viewModel: V, .view: Foo .bar:\n\tBaz\nQux" := by
  constructor
  · obtain ⟨document, compiled, orderly⟩ := shows_of_any Orderly
      "Stateless .viewModel: V, .view: Foo .bar:\n\tBaz" (by decide +kernel)
    exact ⟨document, compiled, (offsideRule_iff_orderly compiled).mpr orderly⟩
  · obtain ⟨document, compiled, disorderly⟩ := shows_of_any (¬ Orderly · ·)
      "Stateless .viewModel: V, .view: Foo .bar:\n\tBaz\nQux" (by decide +kernel)
    exact ⟨document, compiled, fun rule => disorderly ((offsideRule_iff_orderly compiled).mp rule)⟩

end Documents

end WidgetTree.Offside
