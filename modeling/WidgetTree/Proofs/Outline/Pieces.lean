import WidgetTree.Proofs.Grammar.Significant
import WidgetTree.Proofs.Outline.Writing

namespace WidgetTree.Outline

open Grammar (Piece literalKind)
open Lexeme
open Text (Location isBlank)
open WidgetTree.Tree (ConstantKind quoteFor)

def Reads (kind : Kind) (value : String) : Prop :=
  ∃ c more, value.toList = c :: more ∧ isBlank c = false ∧
    ∀ lineStart follow, Closes follow →
      scan lineStart c (more ++ follow) = plain kind value.toList

def Quotable (value : String) : Prop :=
  ∃ quote, isQuote quote = true ∧ ∀ d ∈ value.toList, inString quote d = true

def Writable : Piece → Prop
  | .mark _ => True
  | .header value =>
      ∃ kind, (kind = .widget ∨ kind = .identifier ∧ value ≠ "null") ∧ Reads kind value
  | .name value => Reads .identifier value
  | .literal .string value => Quotable value
  | .literal kind value => (kind = .null → value = "null") ∧ Reads (literalKind kind) value

section Lexed

variable {lineStart : Bool} {c : Char} {rest : List Char}

theorem reads_of_scan (word : isWordKind (scan lineStart c rest).kind = true) :
    Reads (scan lineStart c rest).kind (String.ofList (scan lineStart c rest).value) := by
  have form := scan_scans lineStart c rest
  generalize same : scan lineStart c rest = cut at form word
  cases form with
  | newLine | indentation | whiteSpace | lineComment | blockComment | openComment | string
  | openString | brokenString => cases word
  | mark marks =>
      rcases category_of_isWordKind word with category | category
      all_goals cases category.symm.trans (mark?_category marks)
  | @word more _ full settles =>
      have whole := settles.worded.eq_plain word
      have value : (scan lineStart c rest).value = c :: more := by
        rw [whole]
        rfl
      rw [value]
      refine ⟨c, more, String.toList_ofList, full, fun lineStart' follow closes => ?_⟩
      rw [scan_lineStart full lineStart' lineStart, settles.again follow closes,
        String.toList_ofList]
      exact whole

theorem quotable_of_scan (string : (scan lineStart c rest).kind = .string) :
    Quotable (String.ofList (scan lineStart c rest).value) := by
  have form := scan_scans lineStart c rest
  generalize scan lineStart c rest = cut at form string
  cases form with
  | newLine | indentation | whiteSpace | lineComment | blockComment | openComment | openString
  | brokenString => cases string
  | mark marks =>
      obtain rfl := string
      cases mark?_category marks
  | word _ _ settles =>
      have worded := settles.worded
      generalize scan lineStart c rest = cut at worded string
      cases worded with
      | sound word =>
          obtain rfl := string
          cases word
      | faulty => cases string
  | string quotes inside => exact ⟨c, quotes, by simpa using inside⟩

theorem exists_scan {text : String} {token : Token} (member : token ∈ tokens text)
    (goes : token.kind ≠ .endOfFile) :
    ∃ lineStart c rest, token.kind = (scan lineStart c rest).kind ∧
      token.value = String.ofList (scan lineStart c rest).value := by
  obtain ⟨lexeme, inside, rfl⟩ := List.mem_map.mp member
  obtain ⟨front, last, split, cuts⟩ := rowFrom_eq_append Location.origin none text.toList
  rw [row, split, List.mem_append, List.mem_singleton] at inside
  rcases inside with inside | rfl
  · obtain ⟨place, indented, c, rest, rfl⟩ := cuts lexeme inside
    exact ⟨_, c, rest, rfl, rfl⟩
  · exact absurd rfl goes

theorem reads_of_mem {text : String} {token : Token} (member : token ∈ tokens text)
    (word : isWordKind token.kind = true) : Reads token.kind token.value := by
  obtain ⟨lineStart, c, rest, kind, value⟩ :=
    exists_scan member (by intro ended; rw [ended] at word; cases word)
  rw [kind] at word ⊢
  rw [value]
  exact reads_of_scan word

end Lexed

theorem writable_of_fits {text : String} {token : Token} {piece : Piece}
    (fits : piece.Fits token) (member : token ∈ tokens text) : Writable piece := by
  cases piece with
  | mark kind => trivial
  | header value =>
      rcases fits with ⟨rfl, kind⟩
      refine ⟨token.kind, kind, reads_of_mem member ?_⟩
      rcases kind with widget | ⟨identifier, -⟩
      · rw [widget]
        rfl
      · rw [identifier]
        rfl
  | name value =>
      rcases fits with ⟨rfl, kind⟩
      have reads := reads_of_mem member (by rw [kind]; rfl)
      rwa [kind] at reads
  | literal kind value =>
      rcases fits with ⟨rfl, same, null⟩
      cases kind with
      | string =>
          obtain ⟨lineStart, c, rest, kind, value⟩ :=
            exists_scan member (by rw [same]; decide)
          rw [Writable, value]
          exact quotable_of_scan (kind.symm.trans same)
      | null | integer | float | boolean =>
          have reads := reads_of_mem member (by rw [same]; rfl)
          rw [same] at reads
          exact ⟨null, reads⟩

def markChar : Kind → Char
  | .dot => '.'
  | .dollarSign => '$'
  | .ampersand => '@'
  | .colon => ':'
  | _ => ','

def wordCut (value : String) : Cut :=
  match value.toList with
  | [] => plain .error []
  | c :: more => scan false c more

def stringCut (value : String) : Cut :=
  ⟨.string, quoteFor value :: value.toList ++ [quoteFor value], value.toList, none⟩

def pieceCut : Piece → Cut
  | .mark kind => plain kind [markChar kind]
  | .header value => wordCut value
  | .name value => wordCut value
  | .literal .string value => stringCut value
  | .literal _ value => wordCut value

theorem wordCut_of_reads {kind : Kind} {value : String} (reads : Reads kind value) :
    wordCut value = plain kind value.toList := by
  rcases reads with ⟨c, more, split, -, again⟩
  have alone := again false [] rfl
  rw [List.append_nil] at alone
  rw [wordCut, split]
  exact alone.trans (by rw [split])

/-- What a token says, its place apart. -/
structure Form where
  kind : Kind
  value : String
  length : Nat

def tokenForm (token : Token) : Form := ⟨token.kind, token.value, token.span.length⟩

def cutForm (cut : Cut) : Form := ⟨cut.kind, String.ofList cut.value, cut.taken.length⟩

theorem kind_of_form {token : Token} {cut : Cut} (same : tokenForm token = cutForm cut) :
    token.kind = cut.kind :=
  congrArg Form.kind same

theorem value_of_form {token : Token} {cut : Cut} (same : tokenForm token = cutForm cut) :
    token.value = String.ofList cut.value :=
  congrArg Form.value same

theorem token_of_reads {token : Token} {kind : Kind} {value : String} (reads : Reads kind value)
    (same : tokenForm token = cutForm (wordCut value)) :
    token.kind = kind ∧ token.value = value := by
  rw [wordCut_of_reads reads] at same
  exact ⟨kind_of_form same, (value_of_form same).trans String.ofList_toList⟩

theorem fits_of_form {token : Token} {piece : Piece} (writable : Writable piece)
    (same : tokenForm token = cutForm (pieceCut piece)) : piece.Fits token := by
  cases piece with
  | mark kind => exact kind_of_form same
  | header value =>
      rcases writable with ⟨kind, header, reads⟩
      obtain ⟨rfl, rfl⟩ := token_of_reads reads same
      exact ⟨rfl, header⟩
  | name value =>
      obtain ⟨kind, rfl⟩ := token_of_reads writable same
      exact ⟨rfl, kind⟩
  | literal kind value =>
      cases kind with
      | string =>
          exact ⟨(value_of_form same).trans String.ofList_toList, kind_of_form same, by simp⟩
      | null | integer | float | boolean =>
          rcases writable with ⟨null, reads⟩
          obtain ⟨kind, rfl⟩ := token_of_reads reads same
          exact ⟨rfl, kind, null⟩

end WidgetTree.Outline
