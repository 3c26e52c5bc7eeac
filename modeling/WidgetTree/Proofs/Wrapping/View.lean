import WidgetTree.Compilation
import WidgetTree.Proofs.Excerpt.Rows
import WidgetTree.Proofs.Grammar.FinalBreak
import WidgetTree.Proofs.Grammar.Lockstep
import WidgetTree.Proofs.Lexeme.Delimited
import WidgetTree.Proofs.Wrapping.Tokens

/-!
A view on its own and in a document. Main statements: `composes_iff`, a header with a view is read
as a document just when the view is read as one widget, and `wrap_agrees`, the view is then the same
node, moved behind the header.
-/

namespace WidgetTree.Wrapping

open Grammar
open Lexeme
open Text (Location Span isBlank)
open WidgetTree.Tree (Document Node)

section Rows

variable {view : String} {before : Option Token} {front rest : List Token} {token : Token}

def headerToken (kind : Kind) (value : String) (start : Nat) : Token :=
  ⟨kind, value, ⟨⟨start, 1, start⟩, ⟨start + value.length, 1, start + value.length⟩⟩⟩

def viewRow : List Token :=
  [headerToken .dot "." 26, headerToken .identifier "view" 27, headerToken .colon ":" 31]

def headerRow : List Token :=
  [headerToken .dot "." 10, headerToken .identifier "viewModel" 11, headerToken .colon ":" 20,
    headerToken .identifier "Vm" 22, headerToken .comma "," 24] ++ viewRow

theorem significantFrom_header :
    (placed Location.origin headerCuts).filter (!·.isTrivia) =
      headerToken .identifier "Stateless" 0 :: headerRow := by
  decide +kernel

theorem significantFrom_unindented (unindented : ∀ token ∈ front, token.kind ≠ .indentation)
    (before : Option Token) (rest : List Token) :
    ∃ next, significantFrom before (front ++ rest) =
      front.filter (!·.isTrivia) ++ significantFrom next rest := by
  induction front generalizing before with
  | nil => exact ⟨before, rfl⟩
  | cons token front ih =>
      rw [List.forall_mem_cons] at unindented
      rw [List.cons_append]
      cases trivia : token.isTrivia with
      | true =>
          obtain ⟨next, same⟩ := ih unindented.2 before
          exact ⟨next, by rw [significantFrom_trivia trivia, same,
            List.filter_cons_of_neg (by simp [trivia])]⟩
      | false =>
          have stays : Stays token.kind := ⟨trivia, unindented.1⟩
          obtain ⟨next, same⟩ := ih unindented.2 (some token)
          exact ⟨next, by rw [significantFrom_stays stays, same,
            List.filter_cons_of_pos (by simp [trivia]), List.cons_append]⟩

theorem leads_scan {lineStart : Bool} {c : Char} (full : isBlank c = false) (noMark : c ≠ '!')
    (rest : List Char) :
    Stays (scan lineStart c rest).kind ∧ (scan lineStart c rest).kind ≠ .newLine := by
  have leads {kind : Kind} (solid : Solid kind) : Stays kind ∧ kind ≠ .newLine :=
    ⟨solid.stays, solid.ne (.inl rfl)⟩
  have faulty : Stays .error ∧ Kind.error ≠ .newLine := by decide
  cases quotes : isQuote c with
  | true =>
      rw [scan_of_quote quotes, quoted]
      split
      · exact faulty
      · split
        · exact (by decide : Stays .string ∧ Kind.string ≠ .newLine)
        · exact faulty
  | false =>
      cases marks : mark? c with
      | some kind =>
          rw [scan_of_mark? marks]
          exact leads (.inr (.inr (mark?_category marks)))
      | none =>
          obtain ⟨more, settles⟩ := scan_settles (solid_of_full full) full noMark quotes marks rest
          have worded := settles.worded
          generalize scan lineStart c rest = cut at worded
          cases worded with
          | sound word => exact leads ((category_of_isWordKind word).imp_right .inl)
          | faulty => exact faulty

theorem leads_tokens (begins : Begins view) :
    ∃ first ∈ (tokens view).head?, Stays first.kind ∧ first.kind ≠ .newLine := by
  rw [tokens_eq_placed]
  cases chars : view.toList with
  | nil =>
      rw [cutsFrom]
      exact ⟨_, rfl, by decide⟩
  | cons c rest =>
      obtain ⟨full, noMark⟩ := begins c (by rw [chars]; rfl)
      rw [cutsFrom_cons]
      exact ⟨_, rfl, leads_scan full noMark rest⟩

theorem current_ne_newLine (begins : Begins view) :
    (current (significant (tokens view))).kind ≠ .newLine := by
  obtain ⟨first, head, stays, inline⟩ := leads_tokens begins
  obtain ⟨rest, split⟩ := List.head?_eq_some_iff.mp head
  rw [significant_eq, split, significantFrom_stays stays]
  exact inline

theorem forall₂_moved_iff {lineEnd : Option Nat} {row others : List Token} :
    List.Forall₂ (fun here alone => here = movedToken lineEnd alone) others row ↔
      others = row.map (movedToken lineEnd) := by
  rw [← List.forall₂_map_right_iff, List.forall₂_eq_eq_eq]

theorem significantFrom_moved (lineEnd : Option Nat) (row : List Token) :
    significantFrom none (row.map (movedToken lineEnd)) =
      (significantFrom none row).map (movedToken lineEnd) := by
  refine forall₂_moved_iff.mp (significantFrom_related ?_ (forall₂_moved_iff.mpr rfl) rfl)
  rintro _ token rfl
  rfl

theorem significant_wrap (begins : Begins view) :
    significant (tokens (wrap view)) = headerToken .identifier "Stateless" 0 :: (headerRow ++
      (significant (tokens view)).map (movedToken (lineEnd? (tokens view)))) := by
  obtain ⟨first, head, stays, -⟩ := leads_tokens begins
  have unindented : ∀ token ∈ placed Location.origin headerCuts, token.kind ≠ .indentation := by
    decide +kernel
  obtain ⟨next, kept⟩ := significantFrom_unindented unindented none
    ((tokens view).map (movedToken (lineEnd? (tokens view))))
  have moved : Stays (movedToken (lineEnd? (tokens view)) first).kind := stays
  have front : movedToken (lineEnd? (tokens view)) first ∈
      ((tokens view).map (movedToken (lineEnd? (tokens view)))).head? := by
    rw [List.head?_map, head]
    rfl
  rw [significant_eq, significant_eq, tokens_wrap begins, kept, significantFrom_header,
    Excerpt.significantFrom_of_head moved front next none, significantFrom_moved, List.cons_append]

end Rows

section Documents

variable {options : Options} {indent : Nat} {dot name colon : Token} {rear rest left : List Token}
  {node other : Node} {document : Document}

theorem node_unique (first : Derives options .node indent rear [node] rest)
    (second : Derives options .node indent rear [other] left) : node = other ∧ rest = left := by
  obtain ⟨_, ⟨⟩, _, ran⟩ := first.reads
  obtain ⟨_, ⟨⟩, _, again⟩ := second.reads
  cases ran.symm.trans again
  exact ⟨rfl, rfl⟩

theorem derives_inline_iff (marked : dot.kind = .dot) (named : name.kind = .identifier)
    (colonKind : colon.kind = .colon) (inline : (current rear).kind ≠ .newLine) :
    Derives options .content indent (dot :: name :: colon :: rear) [node] rest ↔
      ∃ child, Derives options .node indent rear [child] rest ∧
        node = .single .property name.value child ⟨dot.span.start, child.span.stop⟩ := by
  constructor
  · intro derives
    cases derives with
    | constant literal => simp [constant?, marked] at literal
    | reference named' => simp [marked, markedLeaf?] at named'
    | name header => simp [IsHeader, marked] at header
    | element header => simp [IsHeader, marked] at header
    | property _ _ ended held built =>
        rcases colon?_cases ended with ⟨_, rfl, -, front⟩ | ⟨-, -, absent⟩
        · cases front
          rw [valuesPart, if_neg inline] at held
          obtain ⟨child, rfl, -⟩ := held.reads
          cases built
          exact ⟨child, held, rfl⟩
        · exact absurd colonKind absent
  · rintro ⟨child, derives, rfl⟩
    have held : Derives options (valuesPart rear) indent rear [child] rest := by
      rwa [valuesPart, if_neg inline]
    exact .property marked named (colon?_yields_some colonKind) held rfl

theorem derives_viewModel_iff :
    Derives options .content 0 (headerRow ++ rear) [node] rest ↔
      rest = headerToken .comma "," 24 :: (viewRow ++ rear) ∧
        node = .single .property "viewModel" (.leaf .identifier "Vm" ⟨⟨22, 1, 22⟩, ⟨24, 1, 24⟩⟩)
          ⟨⟨10, 1, 10⟩, ⟨24, 1, 24⟩⟩ := by
  have named : Derives options .node 0 (headerToken .identifier "Vm" 22 ::
      headerToken .comma "," 24 :: (viewRow ++ rear))
      [.leaf .identifier "Vm" ⟨⟨22, 1, 22⟩, ⟨24, 1, 24⟩⟩]
      (headerToken .comma "," 24 :: (viewRow ++ rear)) := .node (.name ⟨.inl rfl, rfl⟩ rfl)
  have inline : (current (headerToken .identifier "Vm" 22 :: headerToken .comma "," 24 ::
      (viewRow ++ rear))).kind ≠ .newLine := Kind.noConfusion
  constructor
  · intro derives
    obtain ⟨child, held, rfl⟩ := (derives_inline_iff rfl rfl rfl inline).mp derives
    obtain ⟨rfl, rfl⟩ := node_unique held named
    exact ⟨rfl, rfl⟩
  · rintro ⟨rfl, rfl⟩
    exact (derives_inline_iff rfl rfl rfl inline).mpr ⟨_, named, rfl⟩

theorem root_of_composes (inline : (current rear).kind ≠ .newLine)
    (composes : Composes options (headerToken .identifier "Stateless" 0 :: (headerRow ++ rear))
      document) :
    ∃ rest, Derives options .node 0 rear [document.root] rest ∧ isWidget document.root = true ∧
      AtEnd rest := by
  obtain ⟨begins, -, -, -, firstRead, -, divided, -, -, secondRead, isView, shows, ends⟩ := composes
  cases begins
  obtain ⟨rfl, -⟩ := derives_viewModel_iff.mp firstRead
  cases divided
  obtain ⟨root, held, rfl⟩ := (derives_inline_iff rfl rfl rfl inline).mp secondRead
  cases isView
  exact ⟨_, held, shows, ends⟩

theorem exists_composes (inline : (current rear).kind ≠ .newLine)
    (read : Derives options .node 0 rear [node] rest) (shows : isWidget node = true)
    (ends : AtEnd rest) :
    ∃ document, Composes options (headerToken .identifier "Stateless" 0 :: (headerRow ++ rear))
      document ∧ document.root = node := by
  have first : Derives options .content 0 (headerRow ++ rear) _ _ :=
    derives_viewModel_iff.mpr ⟨rfl, rfl⟩
  have second : Derives options .content 0 (viewRow ++ rear) _ rest :=
    (derives_inline_iff rfl rfl rfl inline).mpr ⟨node, read, rfl⟩
  exact ⟨_, .intro rfl rfl rfl rfl first rfl rfl rfl rfl second rfl shows ends, rfl⟩

end Documents

section Views

variable {lineEnd : Option Nat} {options : Options} {view : String}
  {row rest others tokens' : List Token} {node : Node} {document : Document}

def moving (lineEnd : Option Nat) : Likeness where
  place here alone := here = moved lineEnd alone
  level here alone := here = alone
  later := by
    rintro _ a _ b rfl rfl
    simp only [moved, shifted, Nat.add_lt_add_iff_left]
    split <;> rfl
  deeper := deeper_of_eq

theorem moving_row (lineEnd : Option Nat) (row : List Token) :
    (moving lineEnd).Row (row.map (movedToken lineEnd)) row := by
  refine (forall₂_moved_iff.mpr rfl).imp ?_
  rintro _ token rfl
  exact ⟨rfl, rfl, fun _ => ⟨rfl, rfl⟩, fun _ => Nat.add_sub_add_left ..⟩

theorem read_of_moved (row : (moving lineEnd).Row others tokens')
    (read : Derives options .node 0 tokens' [node] rest) :
    ∃ other left, Derives options .node 0 others [other] left ∧
      Alike (moving lineEnd).place other node ∧ (moving lineEnd).Row left rest := by
  obtain ⟨_, ⟨⟩, _, ran⟩ := read.reads
  have agrees : Agrees (moving lineEnd).pairing options options
      ((moving lineEnd).pairing.Leaves (Alike (moving lineEnd).place))
      (Grammar.node options 0 others) (Grammar.node options 0 tokens') :=
    Pairing.node_agrees id _ _ (rfl : 0 = 0) row
  rw [ran] at agrees
  generalize ran' : Grammar.node options 0 others = outcome at agrees
  cases agrees with
  | read leaves => exact ⟨_, _, derives_of_node options 0 _ ran', leaves.value, leaves.rest⟩

theorem atEnd_of_row (row : (moving lineEnd).Row rest others) : AtEnd rest ↔ AtEnd others := by
  have lines := skipNewLines_related (fun _ _ same => Likeness.Token.kind same) row
  constructor
  · rintro ⟨last, behind, front, ends⟩
    rw [front] at lines
    obtain ⟨last', behind', same, -, front'⟩ := List.forall₂_cons_left_iff.mp lines
    exact ⟨last', behind', front', same.kind ▸ ends⟩
  · rintro ⟨last, behind, front, ends⟩
    rw [front] at lines
    obtain ⟨last', behind', same, -, front'⟩ := List.forall₂_cons_right_iff.mp lines
    exact ⟨last', behind', front', same.kind.trans ends⟩

theorem current_moved (lineEnd : Option Nat) (row : List Token) :
    (current (row.map (movedToken lineEnd))).kind = (current row).kind := by
  cases row <;> rfl

def words (row : List Token) : List Token :=
  row.filter fun token => token.kind ≠ .newLine && token.kind ≠ .endOfFile

theorem words_of_atEnd (whole : rest <:+ significant (tokens view)) (ends : AtEnd rest) :
    words rest = [] := by
  obtain ⟨lines, split, breaks⟩ := takes_newLines rest
  obtain ⟨last, behind, front, final⟩ := ends
  obtain ⟨kept, finish, row, -, -, goes, -⟩ := significant_tokens view
  obtain ⟨taken, whole⟩ := whole
  have none : behind = [] := by
    rcases List.eq_nil_or_concat behind with rfl | ⟨inner, token, rfl⟩
    · rfl
    · have same : (taken ++ lines ++ last :: inner) ++ [token] = kept ++ [finish] := by
        rw [← row, ← whole, split, front]
        simp
      have member : last ∈ kept := by
        rw [← (List.append_inj' same rfl).1]
        simp
      exact absurd final (goes last member)
  rw [split, front, none, words, List.filter_eq_nil_iff]
  intro token member
  rcases List.mem_append.mp member with inside | one
  · simp [breaks token inside]
  · simp [List.mem_singleton.mp one, final]

theorem atEnd_of_skipComma (whole : rest <:+ significant (tokens view))
    (comma : ∀ token ∈ (words (significant (tokens view))).getLast?, token.kind ≠ .comma)
    (ends : AtEnd (skipComma rest)) : AtEnd rest := by
  cases rest with
  | nil => exact ends
  | cons token more =>
      rw [skipComma] at ends
      split at ends
      · next left =>
          have none := words_of_atEnd ((List.suffix_cons token more).trans whole) ends
          obtain ⟨taken, whole⟩ := whole
          have last : (words (significant (tokens view))).getLast? = some token := by
            have kept : words (token :: more) = [token] := by
              rw [words, List.filter_cons_of_pos (by simp [left])]
              exact congrArg _ none
            rw [← whole, words, List.filter_append, ← words, ← words, kept, List.getLast?_concat]
          exact absurd left (comma token last)
      · exact ends

/-- A view is read alike on its own and in a document. Where a document is made of a header and the
view, the view is read as its root alone; and a widget that is read alone, with no comma left over
behind it, is the root of the document. -/
theorem wrap_agrees (options : Options) (view : String) (begins : Begins view) :
    (∀ document, (compile options (wrap view)).outcome = .ok document →
      ∃ node, parseFragment options (tokens view) = .ok node ∧
        Alike (fun here alone => here = within view alone) document.root node) ∧
    ∀ node, parseFragment options (tokens view) = .ok node → isWidget node = true →
      (∀ token ∈ (words (significant (tokens view))).getLast?, token.kind ≠ .comma) →
        ∃ document, (compile options (wrap view)).outcome = .ok document ∧
          Alike (fun here alone => here = within view alone) document.root node := by
  have alone := current_ne_newLine begins
  have inline := (current_moved (lineEnd? (tokens view)) _).trans_ne alone
  have row := moving_row (lineEnd? (tokens view)) (significant (tokens view))
  have outcome : (compile options (wrap view)).outcome = Grammar.document options _ :=
    congrArg (Grammar.document options) (significant_wrap begins)
  rw [outcome]
  constructor
  · intro document parsed
    obtain ⟨rest, read, -, ends⟩ := root_of_composes inline (document_eq_ok_iff.mp parsed)
    obtain ⟨nodes, rest', read', trees, left⟩ := read.alike (moving _) 0 _ rfl row
    obtain ⟨node, _, same, none, rfl⟩ := List.forall₂_cons_left_iff.mp trees
    obtain rfl := List.forall₂_nil_left_iff.mp none
    have ends' := (atEnd_of_row left).mp ends
    refine ⟨node, fragment_eq_ok_iff.mpr ⟨rest', ?_, ?_⟩, same⟩
    · rwa [skipNewLines_of_ne alone]
    · rwa [ends'.skipComma]
  · intro node parsed shows comma
    obtain ⟨rest, read, ends⟩ := fragment_eq_ok_iff.mp parsed
    rw [skipNewLines_of_ne alone] at read
    obtain ⟨other, left, read', alike, behind⟩ := read_of_moved row read
    have ends' := (atEnd_of_row behind).mpr (atEnd_of_skipComma read.suffix comma ends)
    obtain ⟨document, composes, rfl⟩ :=
      exists_composes inline read' ((isWidget_alike alike).trans shows) ends'
    exact ⟨document, document_eq_ok_iff.mpr composes, alike⟩

/-- A view with a child beside it, with lines below it and with a comment. -/
theorem wrap_agrees_row :
    Begins "Row Text 'a', ! one\n\tIcon:\n\t\t$tap" ∧
      ∃ node, parseFragment {} (tokens "Row Text 'a', ! one\n\tIcon:\n\t\t$tap") = .ok node ∧
        isWidget node = true ∧
          ∃ document, (compile {} (wrap "Row Text 'a', ! one\n\tIcon:\n\t\t$tap")).outcome =
              .ok document ∧
            Alike (fun here alone => here =
              within "Row Text 'a', ! one\n\tIcon:\n\t\t$tap" alone) document.root node := by
  have begins : Begins "Row Text 'a', ! one\n\tIcon:\n\t\t$tap" := by
    intro c head
    cases head
    exact ⟨by decide, by decide⟩
  have compiles : (compile {} (wrap "Row Text 'a', ! one\n\tIcon:\n\t\t$tap")).outcome.isOk =
      true := by
    decide +kernel
  have widget : (parseFragment {}
      (tokens "Row Text 'a', ! one\n\tIcon:\n\t\t$tap")).toOption.any isWidget = true := by
    decide +kernel
  have comma : ∀ token ∈ (words (significant
      (tokens "Row Text 'a', ! one\n\tIcon:\n\t\t$tap"))).getLast?, token.kind ≠ .comma := by
    decide +kernel
  obtain ⟨document, compiled⟩ := exists_ok_of_isOk compiles
  obtain ⟨node, parsed, -⟩ := (wrap_agrees {} _ begins).1 document compiled
  have shows : isWidget node = true := by
    rw [parsed] at widget
    exact widget
  exact ⟨begins, node, parsed, shows, (wrap_agrees {} _ begins).2 node parsed shows comma⟩

end Views

end WidgetTree.Wrapping
