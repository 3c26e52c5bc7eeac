import WidgetTree.Dart.View
import WidgetTree.Proofs.Lexeme.Spelling
import WidgetTree.Proofs.Outline.Lines

namespace WidgetTree.Dart

open Grammar (Piece constant? headerPieces leafPieces literalKind)
open Lexeme (Kind Lacks Spelled isSpelling isWordKind lacks_cons takeWhile_of_lacks)
open Outline (AllWritable Quotable Reads Writable wordCut wordCut_of_reads)
open WidgetTree.Tree (ConstantKind Leaf Role)

section Splits

variable {p : Char → Bool} {run run' rest rest' : List Char}

theorem split_run (inside : ∀ c ∈ run, p c = true) (inside' : ∀ c ∈ run', p c = true)
    (lacks : Lacks p rest) (lacks' : Lacks p rest') (same : run ++ rest = run' ++ rest') :
    run = run' ∧ rest = rest' := by
  have first := congrArg (List.takeWhile p) same
  rw [List.takeWhile_append_of_pos inside, List.takeWhile_append_of_pos inside',
    takeWhile_of_lacks lacks, takeWhile_of_lacks lacks', List.append_nil, List.append_nil] at first
  subst first
  exact ⟨rfl, List.append_cancel_left same⟩

theorem split_line {line line' below below' : List Char} (unbroken : '\n' ∉ line)
    (unbroken' : '\n' ∉ line') (same : line ++ '\n' :: below = line' ++ '\n' :: below') :
    line = line' ∧ below = below' := by
  have inside {line : List Char} (unbroken : '\n' ∉ line) : ∀ c ∈ line, (c != '\n') = true := by
    intro c member
    exact bne_iff_ne.mpr (by rintro rfl; exact unbroken member)
  have stops (below : List Char) : Lacks (· != '\n') ('\n' :: below) := rfl
  obtain ⟨first, others⟩ :=
    split_run (inside unbroken) (inside unbroken') (stops below) (stops below') same
  exact ⟨first, (List.cons.inj others).2⟩

theorem not_mem_of_spelled {word : List Char} (spelled : Spelled word) {c : Char}
    (other : isSpelling c = false) : c ∉ word := by
  intro member
  rw [spelled c member] at other
  cases other

end Splits

def IsWord (word : List Char) : Prop := word ≠ [] ∧ Spelled word

theorem isWord_of_reads {kind : Kind} {value : String} (word : isWordKind kind = true)
    (reads : Reads kind value) : IsWord value.toList := by
  obtain ⟨c, more, split, -, again⟩ := reads
  have alone := again false [] rfl
  rw [List.append_nil] at alone
  have spelled := Lexeme.scan_spelled false c more
  rw [alone] at spelled
  exact ⟨by rw [split]; exact List.cons_ne_nil c more, spelled word⟩

theorem isWord_of_header {value : String} (writable : Writable (.header value)) :
    IsWord value.toList := by
  obtain ⟨kind, word, reads⟩ := Outline.writable_header_word writable
  exact isWord_of_reads word reads

theorem isWord_of_headerPieces {role : Role} {name : String}
    (writable : AllWritable (headerPieces name role)) : IsWord name.toList := by
  cases role with
  | element => exact isWord_of_header (writable (.header name) List.mem_cons_self)
  | property => exact isWord_of_reads rfl (writable (.name name) (by simp [headerPieces]))

def leafText (leaf : Leaf) (value : String) : List Char := (leafExpression leaf value).toList

def wordLeaf (word : String) : Leaf :=
  match constant? ⟨(wordCut word).kind, word, {}⟩ with
  | some kind => .constant kind
  | none => .identifier

def firstWord (text : List Char) : String :=
  String.ofList ((text.dropWhile (!isSpelling ·)).takeWhile isSpelling)

def readLeaf (text : List Char) : Leaf × String :=
  match text with
  | '\x27' :: body => (.constant .string, String.ofList body.dropLast)
  | '(' :: _ => (.callback, firstWord text)
  | _ =>
      if text.contains '(' then (.call, firstWord text)
      else (wordLeaf (String.ofList text), String.ofList text)

section Leaves

variable {value : String} {leaf : Leaf}

theorem firstWord_append (front : List Char) {rest : List Char} (word : IsWord value.toList)
    (others : ∀ c ∈ front, isSpelling c = false) (lacks : Lacks isSpelling rest) :
    firstWord (front ++ (value.toList ++ rest)) = value := by
  obtain ⟨some, spelled⟩ := word
  obtain ⟨c, more, split⟩ := List.exists_cons_of_ne_nil some
  have first : isSpelling c = true := spelled c (split ▸ List.mem_cons_self)
  have begins : Lacks (!isSpelling ·) (value.toList ++ rest) := by
    rw [split]
    simpa using first
  rw [firstWord, List.dropWhile_append_of_pos (by simpa using others),
    Lexeme.dropWhile_of_lacks begins, List.takeWhile_append_of_pos spelled,
    takeWhile_of_lacks lacks, List.append_nil, String.ofList_toList]

theorem readLeaf_word (word : IsWord value.toList) (rest : List Char) :
    readLeaf (value.toList ++ rest) =
      if (value.toList ++ rest).contains '(' then (.call, firstWord (value.toList ++ rest))
      else
        (wordLeaf (String.ofList (value.toList ++ rest)),
          String.ofList (value.toList ++ rest)) := by
  obtain ⟨some, spelled⟩ := word
  obtain ⟨c, more, split⟩ := List.exists_cons_of_ne_nil some
  have first : isSpelling c = true := spelled c (split ▸ List.mem_cons_self)
  rw [split, List.cons_append, readLeaf.eq_def]
  split
  · next same =>
      rw [(List.cons.inj same).1] at first
      cases first
  · next same =>
      rw [(List.cons.inj same).1] at first
      cases first
  · rfl

theorem readLeaf_alone (word : IsWord value.toList) :
    readLeaf value.toList = (wordLeaf value, value) := by
  have noBracket : value.toList.contains '(' = false := by
    simpa using not_mem_of_spelled word.2 (c := '(') (by decide)
  have read := readLeaf_word word []
  rwa [List.append_nil, noBracket, String.ofList_toList] at read

theorem wordLeaf_of_reads {kind : Kind} (reads : Reads kind value) :
    wordLeaf value = match constant? ⟨kind, value, {}⟩ with
      | some kind => .constant kind
      | none => .identifier := by
  rw [wordLeaf, wordCut_of_reads reads]
  rfl

/-- The expression of a value: a word that stands for the value, a word with brackets, or a string
between quotes. -/
inductive Expresses : Leaf → String → List Char → Prop
  | word {leaf : Leaf} {value : String} (isWord : IsWord value.toList)
      (means : wordLeaf value = leaf) : Expresses leaf value value.toList
  | call {value : String} (isWord : IsWord value.toList) :
      Expresses .call value (value.toList ++ ['(', ')'])
  | callback {value : String} (isWord : IsWord value.toList) :
      Expresses .callback value ("() => ".toList ++ (value.toList ++ ['(', ')']))
  | string {value : String} (unbroken : '\n' ∉ value.toList) :
      Expresses (.constant .string) value ('\x27' :: (value.toList ++ ['\x27']))

theorem expresses_of_reads {kind : Kind} (word : isWordKind kind = true)
    (reads : Reads kind value)
    (means : (match constant? ⟨kind, value, {}⟩ with
      | some kind => .constant kind
      | none => .identifier) = leaf) : Expresses leaf value value.toList :=
  .word (isWord_of_reads word reads) ((wordLeaf_of_reads reads).trans means)

theorem expresses_leafText (writable : AllWritable (leafPieces value leaf)) :
    Expresses leaf value (leafText leaf value) := by
  cases leaf with
  | identifier =>
      obtain ⟨kind, rfl | ⟨rfl, other⟩, reads⟩ : Writable (.header value) :=
        writable _ List.mem_cons_self
      · exact expresses_of_reads rfl reads rfl
      · exact expresses_of_reads rfl reads (by simp [constant?, other])
  | call =>
      rw [leafText, leafExpression, String.toList_append]
      exact .call (isWord_of_reads rfl (writable (.name value) (by simp [leafPieces])))
  | callback =>
      rw [leafText, leafExpression, String.toList_append, String.toList_append,
        List.append_assoc]
      exact .callback (isWord_of_reads rfl (writable (.name value) (by simp [leafPieces])))
  | constant kind =>
      have fits := writable _ (List.mem_singleton_self _)
      cases kind with
      | string =>
          obtain ⟨quote, -, inside⟩ := fits
          rw [leafText, leafExpression, String.toList_append, String.toList_append,
            List.append_assoc]
          refine .string fun member => ?_
          exact absurd (inside '\n' member) (by simp [Lexeme.inString, Lexeme.isNewLine])
      | null =>
          obtain ⟨same, reads⟩ := fits
          obtain rfl := same rfl
          exact expresses_of_reads rfl reads (by simp [constant?, literalKind])
      | integer | float | boolean => exact expresses_of_reads rfl fits.2 rfl

theorem readLeaf_leafText (writable : AllWritable (leafPieces value leaf)) :
    readLeaf (leafText leaf value) = (leaf, value) := by
  have expresses := expresses_leafText writable
  generalize leafText leaf value = text at expresses ⊢
  cases expresses with
  | word isWord means => rw [readLeaf_alone isWord, means]
  | call isWord =>
      have name : firstWord (value.toList ++ ['(', ')']) = value :=
        firstWord_append [] isWord (by simp) rfl
      rw [readLeaf_word isWord, if_pos (by simp), name]
  | callback isWord =>
      have marks : "() => ".toList.all (!isSpelling ·) = true := by decide
      have others : ∀ c ∈ "() => ".toList, isSpelling c = false := fun c member => by
        simpa using List.all_eq_true.mp marks c member
      have name : firstWord ("() => ".toList ++ (value.toList ++ ['(', ')'])) = value :=
        firstWord_append "() => ".toList isWord others rfl
      exact congrArg (Leaf.callback, ·) name
  | string unbroken => rw [readLeaf, List.dropLast_concat, String.ofList_toList]

inductive Opening : List Char → Prop
  | word {word : List Char} (isWord : IsWord word) : Opening word
  | applied {word : List Char} (isWord : IsWord word) : Opening (word ++ ['(', ')'])
  | marked {c : Char} (mark : c = '\x27' ∨ c = '(') (rest : List Char) : Opening (c :: rest)

theorem opening_leafText (writable : AllWritable (leafPieces value leaf)) :
    Opening (leafText leaf value) := by
  have expresses := expresses_leafText writable
  generalize leafText leaf value = text at expresses ⊢
  cases expresses with
  | word isWord _ => exact .word isWord
  | call isWord => exact .applied isWord
  | callback isWord => exact .marked (.inr rfl) _
  | string unbroken => exact .marked (.inl rfl) _

theorem unbroken_word {word : List Char} (isWord : IsWord word) : '\n' ∉ word :=
  not_mem_of_spelled isWord.2 (by decide)

theorem unbroken_leafText (writable : AllWritable (leafPieces value leaf)) :
    '\n' ∉ leafText leaf value := by
  have expresses := expresses_leafText writable
  generalize leafText leaf value = text at expresses ⊢
  cases expresses with
  | word isWord _ => exact unbroken_word isWord
  | call isWord | callback isWord => simp [unbroken_word isWord]
  | string unbroken => simp [unbroken]

theorem leaf_told {leaf' : Leaf} {value' : String} {tail below below' : List Char}
    (writable : AllWritable (leafPieces value leaf))
    (writable' : AllWritable (leafPieces value' leaf')) (unbroken : '\n' ∉ tail)
    (same : leafText leaf value ++ (tail ++ '\n' :: below) =
      leafText leaf' value' ++ (tail ++ '\n' :: below')) :
    leaf = leaf' ∧ value = value' ∧ below = below' := by
  have whole {text : List Char} (line : '\n' ∉ text) : '\n' ∉ text ++ tail := by
    simp [line, unbroken]
  rw [← List.append_assoc, ← List.append_assoc] at same
  obtain ⟨line, rfl⟩ := split_line (whole (unbroken_leafText writable))
    (whole (unbroken_leafText writable')) same
  have read := congrArg readLeaf (List.append_cancel_right line)
  rw [readLeaf_leafText writable, readLeaf_leafText writable', Prod.mk.injEq] at read
  exact ⟨read.1, read.2, rfl⟩

end Leaves

end WidgetTree.Dart
