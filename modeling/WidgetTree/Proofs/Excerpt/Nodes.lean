import WidgetTree.Proofs.Excerpt.Rows
import WidgetTree.Proofs.Grammar.Lockstep
import WidgetTree.Proofs.Grammar.WellFormed
import WidgetTree.Proofs.Offside.Kept
import WidgetTree.Proofs.Refusal

/-!
Nodes on their own. Main statements: `deepens_of_derives`, the lines below a node are indented
deeper than the node's own line, and `compile_excerpt`, what stands under the span of a node is read
as the same node where it is a text of its own.
-/

namespace WidgetTree.Excerpt

open Grammar
open Lexeme (Indents Kind Token)
open Text (Location Span slice)
open WidgetTree.Tree (Document Node)

def Deepens (indent : Nat) (tokens rest : List Token) : Prop :=
  ∃ taken, tokens = taken ++ rest ∧
    ∀ token ∈ taken, token.kind = .indentation → indent < token.span.length

section Deepens

variable {options : Options} {part : Part} {indent : Nat} {tokens middle rest : List Token}
  {nodes : List Node}

theorem Deepens.refl (indent : Nat) (tokens : List Token) : Deepens indent tokens tokens :=
  ⟨[], rfl, List.forall_mem_nil _⟩

theorem Deepens.trans (first : Deepens indent tokens middle) (second : Deepens indent middle rest) :
    Deepens indent tokens rest := by
  obtain ⟨taken, rfl, deeper⟩ := first
  obtain ⟨more, rfl, others⟩ := second
  refine ⟨taken ++ more, (List.append_assoc _ _ _).symm, ?_⟩
  exact List.forall_mem_append.mpr ⟨deeper, others⟩

theorem Deepens.cons {token : Token} (deeper : token.kind = .indentation →
    indent < token.span.length) (behind : Deepens indent tokens rest) :
    Deepens indent (token :: tokens) rest := by
  obtain ⟨taken, rfl, others⟩ := behind
  exact ⟨token :: taken, rfl, List.forall_mem_cons.mpr ⟨deeper, others⟩⟩

theorem Deepens.solid {token : Token} (solid : Solid token.kind)
    (behind : Deepens indent tokens rest) : Deepens indent (token :: tokens) rest :=
  behind.cons fun indentation => absurd indentation (solid.ne (.inl rfl))

theorem Deepens.weaken {floor : Nat} (deepens : Deepens indent tokens rest)
    (less : floor ≤ indent) : Deepens floor tokens rest := by
  obtain ⟨taken, split, deeper⟩ := deepens
  exact ⟨taken, split, fun token member indentation =>
    Nat.lt_of_le_of_lt less (deeper token member indentation)⟩

theorem Deepens.indents (deepens : Deepens indent tokens rest) (indents : tokens.IsChain Indents) :
    rest.IsChain Indents := by
  obtain ⟨taken, rfl, -⟩ := deepens
  exact indents.right_of_append

theorem deepens_of_takes {kind : Kind} (takes : Takes kind tokens rest)
    (other : kind ≠ .indentation) (indent : Nat) : Deepens indent tokens rest := by
  obtain ⟨taken, split, kinds⟩ := takes
  exact ⟨taken, split, fun token member indentation =>
    absurd ((kinds token member).symm.trans indentation) other⟩

def PartDeepens (indent : Nat) (tokens rest : List Token) : Part → Prop
  | .node => Deepens (lineIndent indent tokens) (skipIndentation tokens) rest
  | .content | .arguments | .block => Deepens indent tokens rest

theorem deepens_of_ne (other : (current tokens).kind ≠ .indentation)
    (deepens : PartDeepens indent tokens rest .node) : Deepens indent tokens rest := by
  rwa [PartDeepens, lineIndent, skipIndentation, if_neg other, if_neg other] at deepens

theorem deepens_of_opensDeeper (opens : opensDeeper indent tokens = true)
    (deepens : PartDeepens indent tokens rest .node) : Deepens indent tokens rest := by
  simp only [opensDeeper, Bool.and_eq_true, decide_eq_true_eq] at opens
  rcases opens with ⟨indentation, deeper⟩
  rw [PartDeepens, lineIndent, skipIndentation, if_pos indentation, if_pos indentation] at deepens
  cases tokens with
  | nil => cases indentation
  | cons token others => exact (deepens.weaken (Nat.le_of_lt deeper)).cons fun _ => deeper

theorem deepens_of_derives (derives : Derives options part indent tokens nodes rest)
    (indents : tokens.IsChain Indents) : PartDeepens indent tokens rest part := by
  induction derives with
  | @node indent tokens rest nodes inner ih =>
      obtain ⟨lead, split, -⟩ := takes_indentation tokens
      rw [split] at indents
      exact ih indents.right_of_append
  | constant literal => exact (Deepens.refl _ _).solid (solid_of_constant literal)
  | reference marked named =>
      exact ((Deepens.refl _ _).solid (solid_of_name named)).solid (solid_of_marked marked)
  | name header alone => exact (Deepens.refl _ _).solid (solid_of_header header)
  | @element indent _ _ _ _ _ _ _ _ header parent beside ended under besideIh underIh =>
      have inline := besideIh indents.tail
      have colon := deepens_of_takes (takes_headerColon ended) (by decide) indent
      have below := underIh (colon.indents (inline.indents indents.tail))
      exact ((inline.trans colon).trans below).solid (solid_of_header header)
  | @property indent dot name tokens next left children _ _ marked named ended held built ih =>
      have colon := deepens_of_takes (takes_colon ended) (by decide) indent
      have behind := ih (colon.indents indents.tail.tail)
      have values : Deepens indent next left := by
        rw [valuesPart] at behind
        split at behind
        · exact behind
        · obtain ⟨colons, rfl, kinds⟩ := takes_colon ended
          refine deepens_of_ne ?_ behind
          have solid : ¬ Offside.Breaks (dot :: name :: colons) :=
            Offside.unbroken_cons (solid_of_dot marked) (Offside.unbroken_cons
              (solid_of_name named) (Offside.unbroken_of_kind kinds (by decide)))
          exact Offside.not_indentation_of_isChain indents (List.cons_ne_nil dot _) solid
      exact ((colon.trans values).solid (solid_of_name named)).solid (solid_of_dot marked)
  | argumentsEnd ends => exact .refl _ _
  | @argument indent tokens rest left nodes more goes first others firstIh othersIh =>
      have child := deepens_of_ne (not_indentation_of_goes goes) (firstIh indents)
      have comma := deepens_of_takes (takes_comma rest) (by decide) indent
      exact (child.trans comma).trans (othersIh (comma.indents (child.indents indents)))
  | @blockEnd indent tokens ends =>
      exact deepens_of_takes (takes_newLines tokens) (by decide) indent
  | @line indent tokens rest left nodes more deeper first others firstIh othersIh =>
      have lines := deepens_of_takes (takes_newLines tokens) (by decide) indent
      have child := deepens_of_opensDeeper deeper (firstIh (lines.indents indents))
      have row := child.indents (lines.indents indents)
      exact (lines.trans child).trans (othersIh row)

end Deepens

/-- A row counted from the beginning of an excerpt, where the line that the excerpt begins on is not
indented any more. -/
def excerpted (base : Location) (indent : Nat) : Likeness where
  place := Shifted base
  level here alone := indent < here ∧ here = alone ∨ here = indent ∧ alone = 0
  later first second := by
    refine later_of_behind ?_ first second
    rw [first.index, second.index]
    omega
  deeper first second := by omega

section Nodes

variable {options : Options} {text : String} {base : Location} {indent : Nat}

theorem Echoes.excerpted {token other : Token} (echoes : Echoes base token other)
    (deeper : token.kind = .indentation → indent < token.span.length) :
    (excerpted base indent).Token token other where
  kind := echoes.kind
  value := echoes.value
  spanned _ := echoes.spanned
  level indentation := by
    refine .inl ⟨deeper indentation, ?_⟩
    rw [Span.length, Span.length, echoes.spanned.start.index, echoes.spanned.stop.index]
    omega

theorem fragment_of_derives {tokens : List Token} {node : Node} {finish : Token}
    (solid : Solid (current tokens).kind) (ends : finish.kind = .endOfFile)
    (derives : Derives options .content 0 tokens [node] [finish]) :
    fragment options tokens = .ok node := by
  have skipped : skipNewLines tokens = tokens := skipNewLines_of_ne (solid.ne (.inl rfl))
  have unindented : (current tokens).kind ≠ .indentation := solid.ne (.inl rfl)
  refine fragment_eq_ok_iff.mpr ⟨[finish], ?_, finish, [], ?_, ends⟩
  · rw [skipped]
    refine .node ?_
    rwa [lineIndent, skipIndentation, if_neg unindented, if_neg unindented]
  · have comma : skipComma [finish] = [finish] := by
      rw [skipComma, ends]
      rfl
    rw [comma, skipNewLines_cons_of_ne (by simp [ends])]

theorem excerpt_of_readFrom {node : Node}
    (sound : ∀ token ∈ Lexeme.tokens text, token.kind ≠ .error)
    (read : ReadFrom options (significant (Lexeme.tokens text)) node) :
    ∃ alone, parseFragment options (Lexeme.tokens (slice text node.span)) = .ok alone ∧
      Alike (Shifted node.span.start) node alone := by
  obtain ⟨inner, indent, rest, ⟨front, whole⟩, derives⟩ := read
  have ordered := ordered_significant text
  have indents := (Offside.laid_significant sound).indents
  rw [← whole] at ordered indents
  obtain ⟨core, gap, split, extent⟩ := derives.extent ordered.right
  obtain ⟨_, ⟨⟩, covers⟩ := extent.arranged
  obtain ⟨taken, same, deeper⟩ := deepens_of_derives derives indents.right_of_append
  obtain rfl : taken = core ++ gap := by
    rw [split, ← List.append_assoc] at same
    exact (List.append_cancel_right same).symm
  rw [split] at whole
  obtain ⟨finish, ends, echoes⟩ := significant_excerpt whole.symm covers.toSpans
  have deeper' : ∀ token ∈ core ++ [finish], token.kind = .indentation →
      indent < token.span.length := by
    intro token member indentation
    rcases List.mem_append.mp member with inside | final
    · exact deeper token (List.mem_append_left gap inside) indentation
    · rw [List.mem_singleton.mp final, ends] at indentation
      cases indentation
  have row : (excerpted node.span.start indent).Row (core ++ [finish])
      (significant (Lexeme.tokens (slice text node.span))) :=
    ((List.forall₂_and_left _ _).mpr ⟨deeper', echoes⟩).imp fun _ _ found =>
      found.2.excerpted found.1
  -- The same tokens with the file ending behind them, first where they stand, then on their own.
  have again := extent.again [finish] [finish] (.ended ends)
  obtain ⟨nodes, others, derives', trees, final⟩ :=
    again.alike (excerpted node.span.start indent) 0 _ (.inr ⟨rfl, rfl⟩) row
  obtain ⟨alone, _, same, none, rfl⟩ := List.forall₂_cons_left_iff.mp trees
  obtain rfl := List.forall₂_nil_left_iff.mp none
  obtain ⟨finish', _, sameFinish, none', rfl⟩ := List.forall₂_cons_left_iff.mp final
  obtain rfl := List.forall₂_nil_left_iff.mp none'
  have begins : Solid (current (significant (Lexeme.tokens (slice text node.span)))).kind := by
    obtain ⟨first, head, solid, -⟩ := covers.first
    obtain ⟨behind, rfl⟩ := List.head?_eq_some_iff.mp head
    have row : (excerpted node.span.start indent).pairing.row _ _ := row
    rw [← Pairing.current_kind row]
    exact solid
  exact ⟨alone, fragment_of_derives begins (sameFinish.kind ▸ ends) derives', same⟩

/-- Every node of a document is read again from what stands under its span. -/
theorem compile_excerpt (options : Options) (text : String) (document : Document)
    (compiled : (compile options text).outcome = .ok document) :
    ∀ node ∈ document.nodes,
      ∃ alone, parseFragment options (Lexeme.tokens (slice text node.span)) = .ok alone ∧
        Alike (Shifted node.span.start) node alone := by
  intro node member
  have sound : ∀ token ∈ Lexeme.tokens text, token.kind ≠ .error := by
    intro token inside failed
    exact not_malformed_of_parse compiled ⟨token, inside, failed⟩
  exact excerpt_of_readFrom sound ((document_eq_ok_iff.mp compiled).readFrom node member)

/-- A view with lines below it, a blank line and a comment among them. -/
theorem compile_excerpt_block :
    ∃ document, (compile {} ("Stateless .viewModel: Home, .view: Column\n\tRow Text:\n \n" ++
        "\t\tIcon ! one\n\t$tap")).outcome = .ok document ∧
      ∀ node ∈ document.nodes, ∃ alone, parseFragment {} (Lexeme.tokens (slice
          ("Stateless .viewModel: Home, .view: Column\n\tRow Text:\n \n" ++
            "\t\tIcon ! one\n\t$tap") node.span)) = .ok alone ∧
        Alike (Shifted node.span.start) node alone := by
  have compiles : (compile {} ("Stateless .viewModel: Home, .view: Column\n\tRow Text:\n \n" ++
      "\t\tIcon ! one\n\t$tap")).outcome.isOk = true := by
    decide +kernel
  obtain ⟨document, compiled⟩ := exists_ok_of_isOk compiles
  exact ⟨document, compiled, compile_excerpt {} _ document compiled⟩

end Nodes

end WidgetTree.Excerpt
