import Mathlib.Data.List.Basic
import WidgetTree.Proofs.Grammar.Derivation
import WidgetTree.Proofs.Grammar.Significant

namespace WidgetTree.Grammar

open Lexeme (Kind Token)
open WidgetTree.Tree (Node)

section Heads

variable {token : Token}

theorem solid_of_constant {kind : Tree.ConstantKind} (literal : constant? token = some kind) :
    Solid token.kind := by
  rw [constant?] at literal
  split at literal
  · next same => exact same ▸ .inl rfl
  · next same => exact same ▸ .inl rfl
  · next same => exact same ▸ .inl rfl
  · next same => exact same ▸ .inl rfl
  · next same => exact same ▸ .inr (.inl rfl)
  · cases literal

theorem solid_of_marked {leaf : Tree.Leaf} (marked : markedLeaf? token.kind = some leaf) :
    Solid token.kind := by
  rw [markedLeaf?.eq_def] at marked
  split at marked
  · next same => exact same ▸ .inr (.inr rfl)
  · next same => exact same ▸ .inr (.inr rfl)
  · cases marked

theorem solid_of_dot (dot : token.kind = .dot) : Solid token.kind := dot ▸ .inr (.inr rfl)

theorem solid_of_name (named : token.kind = .identifier) : Solid token.kind :=
  named ▸ .inr (.inl rfl)

theorem solid_of_header (header : IsHeader token) : Solid token.kind := by
  rcases header.1 with same | same
  · exact same ▸ .inr (.inl rfl)
  · exact same ▸ .inr (.inl rfl)

end Heads

def Closed (tokens : List Token) : Prop := ∀ token ∈ tokens.getLast?, token.kind ≠ .indentation

section Taken

variable {options : Options} {part : Part} {indent : Nat} {tokens rest taken more : List Token}
  {nodes : List Node}

theorem closed_nil : Closed [] := by simp [Closed]

theorem closed_singleton {token : Token} (solid : Solid token.kind) : Closed [token] := by
  rintro _ ⟨⟩
  exact solid.ne (.inl rfl)

theorem closed_of_kind {kind : Kind} (same : ∀ token ∈ taken, token.kind = kind)
    (other : kind ≠ .indentation) : Closed taken := by
  intro token last
  rw [same token (List.mem_of_getLast? last)]
  exact other

theorem Closed.append_of_ne_nil (closed : Closed more) (some : more ≠ []) :
    Closed (taken ++ more) := by
  intro token last
  rw [List.getLast?_append_of_ne_nil taken some] at last
  exact closed token last

theorem Closed.append (closed : Closed taken) (next : Closed more) : Closed (taken ++ more) := by
  cases more with
  | nil => rwa [List.append_nil]
  | cons token others => exact next.append_of_ne_nil (List.cons_ne_nil token others)

theorem Closed.cons {token : Token} (solid : Solid token.kind) (closed : Closed taken) :
    Closed (token :: taken) :=
  (closed_singleton solid).append closed

theorem Derives.takes (derives : Derives options part indent tokens nodes rest) :
    ∃ taken, tokens = taken ++ rest ∧ Closed taken ∧ (part = .content → taken ≠ []) := by
  induction derives with
  | @node indent tokens rest nodes inner ih =>
      obtain ⟨lead, split, -⟩ := takes_indentation tokens
      rcases ih with ⟨taken, inside, closed, some⟩
      refine ⟨lead ++ taken, ?_, closed.append_of_ne_nil (some rfl), by simp⟩
      rw [split, inside, List.append_assoc]
  | constant literal =>
      exact ⟨[_], rfl, closed_singleton (solid_of_constant literal), by simp⟩
  | reference marked named =>
      have solid := solid_of_name named
      exact ⟨[_, _], rfl, (closed_singleton solid).cons (solid_of_marked marked), by simp⟩
  | name header alone =>
      exact ⟨[_], rfl, closed_singleton (solid_of_header header), by simp⟩
  | @element _ name _ _ _ _ _ _ _ header parent beside ended under besideIh underIh =>
      rcases besideIh with ⟨inline, rfl, besideClosed, -⟩
      obtain ⟨colon, rfl, colons⟩ := takes_headerColon ended
      rcases underIh with ⟨below, rfl, underClosed, -⟩
      refine ⟨name :: (inline ++ (colon ++ below)), ?_, ?_, by simp⟩
      · simp only [List.cons_append, List.append_assoc]
      · refine .cons (solid_of_header header) (besideClosed.append (.append ?_ underClosed))
        exact closed_of_kind colons (by decide)
  | @property _ dot name _ _ _ _ _ _ marked named ended held built ih =>
      obtain ⟨colon, rfl, colons⟩ := takes_colon ended
      rcases ih with ⟨taken, rfl, closed, -⟩
      refine ⟨dot :: name :: (colon ++ taken), ?_, ?_, by simp⟩
      · simp only [List.cons_append, List.append_assoc]
      · have behind := (closed_of_kind colons (by decide)).append closed
        exact .cons (solid_of_dot marked) (.cons (solid_of_name named) behind)
  | argumentsEnd ends => exact ⟨[], rfl, closed_nil, by simp⟩
  | @argument indent tokens rest left nodes more goes first others firstIh othersIh =>
      rcases firstIh with ⟨taken, rfl, closed, -⟩
      obtain ⟨comma, split, commas⟩ := takes_comma rest
      rcases othersIh with ⟨next, behind, nextClosed, -⟩
      refine ⟨taken ++ (comma ++ next), ?_, ?_, by simp⟩
      · calc
          taken ++ rest = taken ++ (comma ++ (next ++ left)) := by rw [split, behind]
          _ = taken ++ (comma ++ next) ++ left := by simp only [List.append_assoc]
      · exact closed.append ((closed_of_kind commas (by decide)).append nextClosed)
  | @blockEnd indent tokens ends =>
      obtain ⟨taken, split, newLines⟩ := takes_newLines tokens
      exact ⟨taken, split, closed_of_kind newLines (by decide), by simp⟩
  | @line indent tokens rest left nodes more deeper first others firstIh othersIh =>
      obtain ⟨breaks, split, newLines⟩ := takes_newLines tokens
      rcases firstIh with ⟨taken, inside, closed, -⟩
      rcases othersIh with ⟨next, rfl, nextClosed, -⟩
      refine ⟨breaks ++ (taken ++ next), ?_, ?_, by simp⟩
      · calc
          tokens = breaks ++ skipNewLines tokens := split
          _ = breaks ++ (taken ++ (next ++ left)) := by rw [inside]
          _ = breaks ++ (taken ++ next) ++ left := by simp only [List.append_assoc]
      · exact (closed_of_kind newLines (by decide)).append (closed.append nextClosed)

theorem Derives.suffix (derives : Derives options part indent tokens nodes rest) :
    rest <:+ tokens := by
  obtain ⟨taken, rfl, -⟩ := derives.takes
  exact List.suffix_append taken rest

def Leads (indent : Nat) (tokens gap : List Token) : Part → Prop
  | .content => gap = []
  | .node => gap ++ skipIndentation tokens = tokens
  | .arguments => Closed gap
  | .block => ∃ front indentation, gap = front ++ [indentation] ∧
      indentation.kind = .indentation ∧ indent < indentation.span.length

def Begins (part : Part) (indent : Nat) (tokens : List Token) (node : Node) : Prop :=
  ∃ gap first others, tokens = gap ++ first :: others ∧ first.span.start = node.span.start ∧
    Leads indent tokens gap part

theorem start_element (name : String) (span : Text.Span) (children : List Node) :
    (Node.element name span children).span = span := by
  match children with
  | [] | [_] | _ :: _ :: _ => rfl

theorem of_property? {name : String} {span : Text.Span} {children : List Node} {node : Node}
    (built : Node.property? name span children = some node) :
    node.span = span ∧ node.children = children := by
  match children with
  | [] => cases built
  | [_] | _ :: _ :: _ =>
      cases built
      exact ⟨rfl, rfl⟩

theorem of_propertyNode {dot name : Token} {colon : Option Token} {children : List Node}
    {node : Node} (built : propertyNode dot name colon children = .ok node) :
    node.span.start = dot.span.start ∧ node.children = children := by
  rw [propertyNode] at built
  split at built
  · next found =>
      cases built
      obtain ⟨span, same⟩ := of_property? found
      rw [span]
      exact ⟨rfl, same⟩
  · cases built

theorem valuesPart_ne (tokens : List Token) : valuesPart tokens ≠ .arguments := by
  rw [valuesPart]
  split
  · simp
  · simp

theorem leads_of_opensDeeper {gap : List Token} (deeper : opensDeeper indent tokens = true)
    (leads : Leads indent tokens gap .node) : ∃ indentation, gap = [indentation] ∧
      indentation.kind = .indentation ∧ lineIndent indent tokens = indentation.span.length ∧
        indent < indentation.span.length := by
  simp only [opensDeeper, Bool.and_eq_true, decide_eq_true_eq] at deeper
  rcases deeper with ⟨kind, exceeds⟩
  cases tokens with
  | nil => cases kind
  | cons token others =>
      have skipped : skipIndentation (token :: others) = others := if_pos kind
      rw [Leads, skipped] at leads
      exact ⟨token, List.append_cancel_right (leads.trans List.singleton_append.symm), kind,
        if_pos kind, exceeds⟩

theorem leads_of_ne {gap : List Token} (other : (current tokens).kind ≠ .indentation)
    (leads : Leads indent tokens gap .node) : gap = [] := by
  rw [Leads, skipIndentation, if_neg other] at leads
  exact List.append_cancel_right (leads.trans (List.nil_append _).symm)

theorem not_indentation_of_goes (goes : endsArguments (current tokens).kind = false) :
    (current tokens).kind ≠ .indentation := by
  intro indentation
  rw [indentation] at goes
  cases goes

theorem Derives.begins (derives : Derives options part indent tokens nodes rest) :
    ∀ node ∈ nodes, Begins part indent tokens node := by
  induction derives with
  | @node indent tokens rest nodes inner ih =>
      intro node member
      obtain ⟨lead, split, -⟩ := takes_indentation tokens
      obtain ⟨_, first, others, front, start, rfl⟩ := ih node member
      exact ⟨lead, first, others, by rw [split, front]; rfl, start, split.symm⟩
  | constant literal =>
      exact List.forall_mem_singleton.mpr ⟨[], _, _, rfl, rfl, rfl⟩
  | reference marked named => exact List.forall_mem_singleton.mpr ⟨[], _, _, rfl, rfl, rfl⟩
  | name header alone => exact List.forall_mem_singleton.mpr ⟨[], _, _, rfl, rfl, rfl⟩
  | element header parent beside ended under besideIh underIh =>
      refine List.forall_mem_singleton.mpr ⟨[], _, _, rfl, ?_, rfl⟩
      rw [elementNode, start_element]
  | property marked named ended held built ih =>
      exact List.forall_mem_singleton.mpr ⟨[], _, _, rfl, (of_propertyNode built).1.symm, rfl⟩
  | argumentsEnd ends => exact List.forall_mem_nil _
  | @argument indent tokens rest left nodes more goes first others firstIh othersIh =>
      rw [List.forall_mem_append]
      constructor
      · intro node member
        obtain ⟨gap, token, behind, split, start, leads⟩ := firstIh node member
        rw [leads_of_ne (not_indentation_of_goes goes) leads] at split
        exact ⟨[], token, behind, split, start, closed_nil⟩
      · intro node member
        obtain ⟨gap, token, behind, split, start, closed⟩ := othersIh node member
        obtain ⟨taken, inside, front, -⟩ := first.takes
        obtain ⟨comma, skipped, commas⟩ := takes_comma rest
        refine ⟨taken ++ (comma ++ gap), token, behind, ?_, start, ?_⟩
        · rw [inside, skipped, split]
          simp only [List.append_assoc]
        · exact front.append ((closed_of_kind commas (by decide)).append closed)
  | blockEnd ends => exact List.forall_mem_nil _
  | @line indent tokens rest left nodes more deeper first others firstIh othersIh =>
      obtain ⟨breaks, newLines, -⟩ := takes_newLines tokens
      rw [List.forall_mem_append]
      constructor
      · intro node member
        obtain ⟨gap, token, behind, split, start, leads⟩ := firstIh node member
        obtain ⟨indentation, rfl, kind, -, exceeds⟩ := leads_of_opensDeeper deeper leads
        refine ⟨breaks ++ [indentation], token, behind, ?_, start, breaks, indentation, rfl, kind,
          exceeds⟩
        rw [newLines, split, List.append_assoc]
      · intro node member
        obtain ⟨taken, inside, -⟩ := first.takes
        obtain ⟨_, token, behind, split, start, front, indentation, rfl, opens⟩ :=
          othersIh node member
        refine ⟨breaks ++ (taken ++ front) ++ [indentation], token, behind, ?_, start,
          breaks ++ (taken ++ front), indentation, rfl, opens⟩
        rw [newLines, inside, split]
        simp only [List.append_assoc]

end Taken

end WidgetTree.Grammar
