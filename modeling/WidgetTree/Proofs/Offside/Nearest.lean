import WidgetTree.Proofs.Grammar.Subtrees
import WidgetTree.Proofs.Offside.Rows

namespace WidgetTree.Offside

open Grammar
open Lexeme (Indents Kind Token)
open WidgetTree.Tree (Node)

def lines (tokens : List Token) : List (List Token) :=
  (tokens.splitOnP (·.kind = .newLine)).filter (·.any (·.kind ≠ .indentation))

def shallower? (indent : Nat) (tokens : List Token) : Option (List Token) :=
  (lines tokens).reverse.find? (lineIndent 0 · < indent)

/-- For a node that begins a line: the nearest line above it that is indented less. -/
def nearest? (row : List Token) (node : Node) : Option (List Token) :=
  (opening? row node).bind fun indentation =>
    shallower? indentation.span.length (before row node.span.start)

/-- A line break stands in front of another one or of an indented line. -/
def Hangs (a b : Token) : Prop := a.kind = .newLine → b.kind = .newLine ∨ b.kind = .indentation

instance : DecidableRel Hangs := fun _ _ => inferInstanceAs (Decidable (_ → _))

def Edge (tokens : List Token) : Prop :=
  ∀ token ∈ tokens.head?, token.kind = .newLine ∨ token.kind = .indentation

section Lines

variable {indent : Nat} {tokens more breaks : List Token} {token indentation : Token}

theorem edge_of_newLines (newLines : ∀ token ∈ breaks, token.kind = .newLine) : Edge breaks :=
  fun token head => .inl (newLines token (List.mem_of_mem_head? head))

theorem edge_cons (kind : indentation.kind = .indentation) (more : List Token) :
    Edge (indentation :: more) := by
  rintro _ ⟨⟩
  exact .inr kind

theorem Edge.append (edge : Edge tokens) (next : Edge more) : Edge (tokens ++ more) := by
  cases tokens with
  | nil => exact next
  | cons token others => exact edge

theorem lines_append_newLine (newLine : token.kind = .newLine) (tokens more : List Token) :
    lines (tokens ++ token :: more) = lines tokens ++ lines more := by
  have split : (tokens ++ token :: more).splitOnP (·.kind = .newLine) =
      tokens.splitOnP (·.kind = .newLine) ++ more.splitOnP (·.kind = .newLine) :=
    List.splitOnP_append_cons tokens more (decide_eq_true newLine)
  rw [lines, split, List.filter_append]
  rfl

theorem lines_nil : lines [] = [] := by decide

theorem lines_newLine (newLine : token.kind = .newLine) (more : List Token) :
    lines (token :: more) = lines more := by
  have split := lines_append_newLine newLine [] more
  rwa [lines_nil] at split

theorem lines_breaks (newLines : ∀ token ∈ breaks, token.kind = .newLine) : lines breaks = [] := by
  induction breaks with
  | nil => exact lines_nil
  | cons token breaks ih =>
      rw [List.forall_mem_cons] at newLines
      rw [lines_newLine newLines.1, ih newLines.2]

theorem lines_append_breaks (newLines : ∀ token ∈ breaks, token.kind = .newLine)
    (tokens : List Token) : lines (tokens ++ breaks) = lines tokens := by
  cases breaks with
  | nil => rw [List.append_nil]
  | cons token others =>
      rw [List.forall_mem_cons] at newLines
      rw [lines_append_newLine newLines.1, lines_breaks newLines.2, List.append_nil]

theorem lines_of_unbroken (unbroken : ¬ Breaks tokens)
    (some : ∃ token ∈ tokens, token.kind ≠ .indentation) : lines tokens = [tokens] := by
  have whole : ∀ token ∈ tokens, decide (token.kind = .newLine) = false := fun token member =>
    decide_eq_false fun newLine => unbroken ⟨token, member, newLine⟩
  rw [lines, List.splitOnP_eq_singleton whole, List.filter_cons_of_pos (by simpa using some),
    List.filter_nil]

theorem lines_indentation (kind : indentation.kind = .indentation) : lines [indentation] = [] := by
  have whole : ∀ token ∈ [indentation], decide (token.kind = .newLine) = false := by simp [kind]
  rw [lines, List.splitOnP_eq_singleton whole, List.filter_cons_of_neg (by simp [kind]),
    List.filter_nil]

theorem lines_append_of_ends (ends : ∀ token ∈ tokens.getLast?, token.kind = .newLine)
    (more : List Token) : lines (tokens ++ more) = lines tokens ++ lines more := by
  cases tokens using List.reverseRecOn with
  | nil => rw [lines_nil, List.nil_append, List.nil_append]
  | append_singleton inner last =>
      have newLine := ends last List.getLast?_concat
      rw [List.append_assoc, List.singleton_append, lines_append_newLine newLine,
        lines_append_newLine newLine inner [], lines_nil, List.append_nil]

theorem lines_append (indents : (tokens ++ more).IsChain Indents) (edge : Edge more) :
    lines (tokens ++ more) = lines tokens ++ lines more := by
  cases more with
  | nil => rw [lines_nil, List.append_nil, List.append_nil]
  | cons token others =>
      rcases edge token rfl with newLine | indentation
      · rw [lines_append_newLine newLine, lines_newLine newLine]
      · apply lines_append_of_ends
        intro last member
        exact (List.isChain_append.mp indents).2.2 last member token rfl indentation

theorem shallower?_append (indents : (tokens ++ more).IsChain Indents) (edge : Edge more) :
    shallower? indent (tokens ++ more) =
      (shallower? indent more).or (shallower? indent tokens) := by
  rw [shallower?, lines_append indents edge, List.reverse_append, List.find?_append]
  rfl

theorem begins_or_mem_tail {line : List Token} {first : Token}
    (member : line ∈ tokens.splitOnP (·.kind = .newLine)) (head : first ∈ line.head?) :
    (first ∈ tokens.head? ∧ first.kind ≠ .newLine) ∨
      line ∈ (tokens.splitOnP (·.kind = .newLine)).tail := by
  cases tokens with
  | nil =>
      rw [List.splitOnP_nil, List.mem_singleton] at member
      rw [member] at head
      cases head
  | cons token tokens =>
      rw [List.splitOnP_cons_eq_if_modifyHead] at member ⊢
      by_cases newLine : token.kind = .newLine
      · rw [if_pos (decide_eq_true newLine)] at member ⊢
        rcases List.mem_cons.mp member with rfl | inside
        · cases head
        · exact .inr inside
      · rw [if_neg (by simpa using newLine)] at member ⊢
        obtain ⟨own, others, split⟩ := List.exists_cons_of_ne_nil
          (List.splitOnP_ne_nil (·.kind = .newLine) tokens)
        rw [split, List.modifyHead_cons] at member ⊢
        rcases List.mem_cons.mp member with rfl | inside
        · cases head
          exact .inl ⟨rfl, newLine⟩
        · exact .inr inside

theorem indented_of_mem_tail (hangs : tokens.IsChain Hangs) {line : List Token} {first : Token}
    (member : line ∈ (tokens.splitOnP (·.kind = .newLine)).tail) (head : first ∈ line.head?) :
    first.kind = .indentation ∧ first ∈ tokens := by
  induction tokens with
  | nil => cases member
  | cons token tokens ih =>
      have later inside := (ih hangs.tail inside).imp_right (List.mem_cons_of_mem token)
      rw [List.splitOnP_cons_eq_if_modifyHead] at member
      split at member
      · next newLine =>
          rcases begins_or_mem_tail member head with ⟨next, goes⟩ | inside
          · have hanging := hangs.rel_head? next (of_decide_eq_true newLine)
            exact ⟨hanging.resolve_left goes, .tail token (List.mem_of_mem_head? next)⟩
          · exact later inside
      · rw [List.tail_modifyHead] at member
        exact later member

theorem shallower?_eq_none (hangs : tokens.IsChain Hangs) (edge : Edge tokens)
    (deep : ∀ token ∈ tokens, token.kind = .indentation → indent ≤ token.span.length) :
    shallower? indent tokens = none := by
  rw [shallower?, List.find?_eq_none]
  intro line member
  obtain ⟨inside, some⟩ := List.mem_filter.mp (List.mem_reverse.mp member)
  cases line with
  | nil => cases some
  | cons first others =>
      have opened : first.kind = .indentation ∧ first ∈ tokens := by
        rcases begins_or_mem_tail inside rfl with ⟨head, goes⟩ | later
        · exact ⟨(edge first head).resolve_left goes, List.mem_of_mem_head? head⟩
        · exact indented_of_mem_tail hangs later rfl
      have indented : lineIndent 0 (first :: others) = first.span.length := if_pos opened.1
      simpa [indented] using deep first opened.2 opened.1

theorem shallower?_line {front flat : List Token}
    (ends : ∀ token ∈ front.getLast?, token.kind = .newLine) (unbroken : ¬ Breaks flat)
    (some : ∃ token ∈ flat, token.kind ≠ .indentation)
    (newLines : ∀ token ∈ breaks, token.kind = .newLine) (shallow : lineIndent 0 flat < indent) :
    shallower? indent (front ++ (flat ++ breaks)) = .some flat := by
  rw [shallower?, lines_append_of_ends ends, lines_append_breaks newLines,
    lines_of_unbroken unbroken some, List.reverse_concat,
    List.find?_cons_of_pos (by simpa using shallow)]

theorem unbroken_lastLine (tokens : List Token) : ¬ Breaks (lastLine tokens) := by
  intro breaks
  rcases breaks with ⟨token, member, newLine⟩
  rw [lastLine] at member
  have goes := List.mem_rtakeWhile_imp member
  exact of_decide_eq_true goes newLine

theorem shallower?_eq_some {front flat : List Token} (unbroken : ¬ Breaks flat)
    (some : ∃ token ∈ flat, token.kind ≠ .indentation)
    (newLines : ∀ token ∈ breaks, token.kind = .newLine)
    (shallow : lineIndent 0 (lastLine front ++ flat) < indent) :
    shallower? indent (front ++ (flat ++ breaks)) = .some (lastLine front ++ flat) := by
  let above := front.rdropWhile (·.kind ≠ .newLine)
  have split : above ++ lastLine front = front := List.rdropWhile_append_rtakeWhile
  have ends : ∀ token ∈ above.getLast?, token.kind = .newLine := by
    intro token last
    obtain ⟨nonempty, rfl⟩ := List.mem_getLast?_eq_getLast last
    have stops := List.rdropWhile_last_not (·.kind ≠ .newLine) front nonempty
    exact not_not.mp fun other => stops (decide_eq_true other)
  have whole : ¬ Breaks (lastLine front ++ flat) :=
    breaks_append.not.mpr (not_or.mpr ⟨unbroken_lastLine front, unbroken⟩)
  rcases some with ⟨token, member, solid⟩
  have found := shallower?_line ends whole ⟨token, List.mem_append_right _ member, solid⟩ newLines
    shallow
  rwa [List.append_assoc, ← List.append_assoc above, split] at found

end Lines

theorem before_isChain {row : List Token} (laid : Laid row) (place : Text.Location) :
    (before row place).IsChain Indents := by
  have whole : before row place ++ onward row place = row := List.takeWhile_append_dropWhile
  have indents := laid.indents
  rw [← whole] at indents
  exact indents.left_of_append

theorem nearest?_eq {row above : List Token} {node : Node} {indentation : Token}
    (laid : Laid row) (kind : indentation.kind = .indentation)
    (behind : before row node.span.start = above ++ [indentation]) :
    nearest? row node = shallower? indentation.span.length above := by
  have indents : (above ++ [indentation]).IsChain Indents := by
    rw [← behind]
    exact before_isChain laid node.span.start
  have alone : shallower? indentation.span.length [indentation] = none := by
    rw [shallower?, lines_indentation kind]
    rfl
  rw [nearest?, opening_of_indentation kind behind, Option.bind_some, behind,
    shallower?_append indents (edge_cons kind []), alone, Option.none_or]

end WidgetTree.Offside
