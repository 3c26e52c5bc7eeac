import WidgetTree.Proofs.Grammar.Alike
import WidgetTree.Proofs.Returns.Text

namespace WidgetTree.Returns

open Grammar (Solid Spanned)
open Lexeme
open Text (Location Span)

def returnedCut (cut : Cut) : Cut :=
  { cut with taken := returned cut.taken, value := returned cut.value }

section Scanning

variable {lineStart : Bool} {c c' : Char} {rest rest' front follow : List Char}

theorem returnedCut_eq_self {cut : Cut} (taken : ∀ d ∈ cut.taken, d ≠ '\n')
    (value : ∀ d ∈ cut.value, d ≠ '\n') : returnedCut cut = cut := by
  rw [returnedCut, returned_eq_self taken, returned_eq_self value]

theorem feed_ne {d : Char} (solid : isNewLine d = false) : d ≠ '\n' := by
  rintro rfl
  cases solid

theorem broken_returned (broken : Broken follow) : Broken (returned follow) := by
  cases follow with
  | nil => exact broken
  | cons d follow =>
      by_cases feed : d = '\n'
      · subst feed
        rfl
      · rw [returned_cons feed]
        exact broken

theorem head_returned (single : front.head? ≠ some '!') : (returned front).head? ≠ some '!' := by
  cases front with
  | nil => exact single
  | cons d front =>
      by_cases feed : d = '\n'
      · subst feed
        simp
      · rw [returned_cons feed]
        exact single

theorem throughMarks?_returned (text : List Char) :
    throughMarks? (returned text) = (throughMarks? text).map returned := by
  induction text with
  | nil => rfl
  | cons c text ih =>
      by_cases feed : c = '\n'
      · subst feed
        have step : ∀ (d : Char) (others : List Char), d ≠ '!' →
            throughMarks? (d :: others) = (throughMarks? others).map (d :: ·) := by
          intro d others other
          rw [throughMarks?, if_neg fun marks => other marks.1]
        rw [returned_feed, step _ _ (by decide), step _ _ (by decide), ih, step _ _ (by decide)]
        cases throughMarks? text with
        | none => rfl
        | some body => rfl
      · rw [returned_cons feed, throughMarks?, throughMarks?]
        by_cases marks : c = '!' ∧ text.head? = some '!'
        · obtain ⟨rfl, second⟩ := marks
          obtain ⟨others, rfl⟩ := List.head?_eq_some_iff.mp second
          rw [returned_cons (by decide), if_pos ⟨rfl, rfl⟩, if_pos ⟨rfl, rfl⟩]
          rfl
        · have unmarked : ¬ (c = '!' ∧ (returned text).head? = some '!') := by
            rintro ⟨mark, second⟩
            exact head_returned (fun first => marks ⟨mark, first⟩) second
          rw [if_neg marks, if_neg unmarked, ih]
          cases throughMarks? text with
          | none => rfl
          | some body =>
              rw [Option.map_some, Option.map_some, Option.map_some, Option.map_some,
                returned_cons feed]

theorem returnedCut_scan (solid : isNewLine c = false) (unbroken : ∀ d ∈ front, d ≠ '\n') :
    returnedCut (scan lineStart c front) = scan lineStart c front := by
  have taken : ∀ d ∈ (scan lineStart c front).taken, d ≠ '\n' := by
    intro d member
    have inside : d ∈ c :: front := by
      rw [← scan_taken_append lineStart c front]
      exact List.mem_append_left _ member
    rcases List.mem_cons.mp inside with rfl | inside
    · exact feed_ne solid
    · exact unbroken d inside
  apply returnedCut_eq_self taken
  cases quotes : isQuote c with
  | false =>
      rw [(value_of_unquoted lineStart quotes front).1]
      exact taken
  | true =>
      have body : (scan lineStart c front).value = front.takeWhile (inString c) := by
        rw [scan_of_quote quotes, quoted]
        split
        · rfl
        · split <;> rfl
      rw [body]
      exact fun d member => unbroken d ((List.takeWhile_prefix _).subset member)

theorem scan_returned_line (solid : isNewLine c = false)
    (single : c = '!' → rest.head? ≠ some '!') :
    scan lineStart c (returned rest) = returnedCut (scan lineStart c rest) := by
  have whole : rest.takeWhile (!isNewLine ·) ++ rest.dropWhile (!isNewLine ·) = rest :=
    List.takeWhile_append_dropWhile
  have line : ∀ d ∈ rest.takeWhile (!isNewLine ·), d ≠ '\n' := by
    intro d member
    have unbroken := List.mem_takeWhile_imp member
    exact feed_ne (by simpa using unbroken)
  have broken : Broken (rest.dropWhile (!isNewLine ·)) := by
    have stopped := lacks_dropWhile (!isNewLine ·) rest
    simpa [Lacks, Broken] using stopped
  generalize rest.takeWhile (!isNewLine ·) = front, rest.dropWhile (!isNewLine ·) = follow
    at whole line broken
  subst whole
  rw [returned_append, returned_eq_self line]
  have broken' := broken_returned broken
  cases quotes : isQuote c with
  | false =>
      have front_single : c = '!' → front.head? ≠ some '!' := by
        intro mark second
        apply single mark
        rw [List.head?_append, second]
        rfl
      rw [scan_broken solid quotes front_single broken,
        scan_broken solid quotes front_single broken', returnedCut_scan solid line]
  | true =>
      have same : (returned follow).isEmpty = follow.isEmpty := by
        rw [Bool.eq_iff_iff, List.isEmpty_iff, List.isEmpty_iff, returned_eq_nil_iff]
      rw [scan_of_quote quotes, scan_of_quote quotes, quoted_broken broken solid,
        quoted_broken broken' solid, same]
      split
      · have cons : ∀ d ∈ c :: front, d ≠ '\n' :=
          List.forall_mem_cons.mpr ⟨feed_ne solid, line⟩
        exact (returnedCut_eq_self cons line).symm
      · have whole : scan lineStart c front = quoted c front := scan_of_quote quotes
        rw [← whole, returnedCut_scan solid line]

theorem scan_returned (lineStart : Bool) (split : returned (c :: rest) = c' :: rest') :
    scan lineStart c' rest' = returnedCut (scan lineStart c rest) := by
  cases newLine : isNewLine c with
  | true =>
      have newLine' : isNewLine c' = true := by
        by_cases feed : c = '\n'
        · subst feed
          rw [returned_feed] at split
          rw [← (List.cons.inj split).1]
          rfl
        · rw [returned_cons feed] at split
          rw [← (List.cons.inj split).1, newLine]
      rw [scan_newLine newLine', scan_newLine newLine, ← split, takeWhile_returned]
      rfl
  | false =>
      rw [returned_cons (feed_ne newLine)] at split
      obtain ⟨rfl, rfl⟩ := List.cons.inj split
      by_cases block : c = '!' ∧ rest.head? = some '!'
      · obtain ⟨rfl, second⟩ := block
        obtain ⟨body, rfl⟩ := List.head?_eq_some_iff.mp second
        have marks := throughMarks?_returned body
        rw [scan_comment, scan_comment, returned_cons (by decide)]
        cases found : throughMarks? body with
        | none =>
            rw [found, Option.map_none] at marks
            rw [comment_open found, comment_open marks, returnedCut, returned_cons (by decide),
              returned_cons (by decide)]
        | some inner =>
            rw [found, Option.map_some] at marks
            rw [comment_closed found, comment_closed marks, returnedCut, plain, plain,
              returned_cons (by decide), returned_cons (by decide)]
      · exact scan_returned_line newLine fun mark second => block ⟨mark, second⟩

end Scanning

section Rows

/-- A token of a text and the same token of the text with returns. Only a token that no rule of the
grammar takes can hold a line break. -/
structure Matches (text : List Char) (token other : Token) : Prop where
  kind : token.kind = other.kind
  value : other.value = withReturns token.value
  spanned : Spanned (Widened text) token.span other.span
  solid : Solid token.kind → token.value = other.value
  level : token.kind = .indentation → token.span.length = other.span.length

structure SameLexeme (text : List Char) (lexeme other : Lexeme) : Prop where
  token : Matches text lexeme.token other.token
  fault : other.fault = lexeme.fault

variable {lineStart : Bool} {c c' : Char} {rest rest' front others whole : List Char} {cut : Cut}
  {place other : Location}

theorem Widened.after (widened : Widened whole place other)
    (split : whole = front ++ (cut.taken ++ others)) (start : place.index = front.length) :
    Widened whole (cut.after place) ((returnedCut cut).after other) := by
  have index : (cut.after place).index = (front ++ cut.taken).length := by
    rw [index_after, start, List.length_append]
  have through := widened.aligned.through cut.taken
  refine ⟨?_, ?_, ?_⟩
  · have kinds : (returnedCut cut).kind = cut.kind := rfl
    rw [Cut.after.eq_def, Cut.after.eq_def, kinds]
    generalize cut.kind = kind
    cases kind with
    | newLine => exact ⟨through.line, rfl⟩
    | _ => exact through
  · rw [index, split, ← List.append_assoc]
    exact (List.prefix_append (front ++ cut.taken) others).length_le
  · have behind : whole.take (front ++ cut.taken).length = front ++ cut.taken := by
      rw [split, ← List.append_assoc]
      exact List.take_left
    have before : whole.take front.length = front := by
      rw [split]
      exact List.take_left
    rw [index, behind, index_after, widened.index, start, before, returned_append,
      List.length_append, returnedCut]

theorem unbroken_of_solid (solid : Solid (scan lineStart c rest).kind) :
    ∀ d ∈ (scan lineStart c rest).value, d ≠ '\n' := by
  have form := scan_scans lineStart c rest
  generalize scan lineStart c rest = cut at form solid
  cases form with
  | newLine | indentation | whiteSpace | lineComment | blockComment | openComment | openString
  | brokenString => simp [Solid, plain, Kind.category] at solid
  | mark marks =>
      intro d member
      obtain rfl := List.mem_singleton.mp member
      rintro rfl
      cases marks
  | string quotes inside =>
      intro d member
      have inside := inside d member
      simp only [inString, Bool.and_eq_true, Bool.not_eq_true'] at inside
      exact feed_ne inside.2
  | @word more solidChar _ settles =>
      have worded := settles.worded
      have value : (scan lineStart c rest).value = c :: more := by
        generalize scan lineStart c rest = cut at worded
        cases worded <;> rfl
      intro d member
      rw [value] at member
      rcases List.mem_cons.mp member with rfl | inside
      · exact feed_ne solidChar
      · exact feed_ne (settles.unbroken d inside)

theorem indents_of_indentation (indentation : (scan lineStart c rest).kind = .indentation) :
    ∀ d ∈ (scan lineStart c rest).taken, d ≠ '\n' := by
  have form := scan_scans lineStart c rest
  generalize scan lineStart c rest = cut at form indentation
  cases form with
  | indentation start indents =>
      intro d member
      have indent := List.mem_takeWhile_imp member
      rintro rfl
      cases indent
  | newLine | whiteSpace | lineComment | blockComment | openComment | string | openString
  | brokenString => cases indentation
  | word solid full settles => exact absurd indentation settles.worded.kind_ne_indentation
  | @mark kind marks =>
      rw [show kind = .indentation from indentation] at marks
      cases mark?_category marks

theorem matches_token (widened : Widened whole place other)
    (split : whole = front ++ ((scan lineStart c rest).taken ++ others))
    (start : place.index = front.length) :
    Matches whole ((scan lineStart c rest).token place)
      ((returnedCut (scan lineStart c rest)).token other) where
  kind := rfl
  value := by
    rw [withReturns, Cut.token, Cut.token, String.toList_ofList]
    rfl
  spanned := ⟨widened, widened.after split start⟩
  solid solid := by
    have unbroken := unbroken_of_solid solid
    rw [Cut.token, Cut.token, returnedCut, returned_eq_self unbroken]
  level indentation := by
    have unbroken := indents_of_indentation indentation
    simp only [Cut.token, Span.length, index_after, returnedCut, returned_eq_self unbroken]
    omega

/-- The row of a text with returns has the lexemes of the text. -/
theorem rowFrom_returned (place : Location) (indented : Indented) (text : List Char) :
    ∀ front other, whole = front ++ text → place.index = front.length →
      Widened whole place other → List.Forall₂ (SameLexeme whole)
        (rowFrom place indented text) (rowFrom other indented (returned text)) := by
  induction place, indented, text using rowFrom.induct with
  | case1 place indented =>
      intro front other split start widened
      rw [rowFrom_nil, returned_nil, rowFrom_nil]
      exact .cons ⟨⟨rfl, rfl, ⟨widened, widened⟩, fun _ => rfl, by rintro ⟨⟩⟩, rfl⟩ .nil
  | case2 place indented c rest cut ih =>
      intro front other split start widened
      obtain ⟨c', rest', split'⟩ : ∃ c' rest', returned (c :: rest) = c' :: rest' :=
        List.exists_cons_of_ne_nil fun none => List.cons_ne_nil c rest (returned_eq_nil_iff.mp none)
      -- The columns are the same, so that a line begins in both texts or in neither.
      have column : decide (other.column = 0) = decide (place.column = 0) := by
        rw [widened.aligned.column]
      have same : scan (other.column = 0) c' rest' = returnedCut cut := by
        rw [column]
        exact scan_returned _ split'
      have taken : cut.taken ++ rest.drop (cut.taken.length - 1) = c :: rest :=
        scan_taken_append _ c rest
      have left : rest'.drop ((returnedCut cut).taken.length - 1) =
          returned (rest.drop (cut.taken.length - 1)) := by
        have whole' := scan_taken_append (other.column = 0) c' rest'
        rw [same, ← split', ← taken, returned_append] at whole'
        exact List.append_cancel_left whole'
      have first : cut.kind = .indentation → c' = c := by
        intro indentation
        by_cases feed : c = '\n'
        · have newLine : cut.kind = .newLine := by
            subst feed
            exact congrArg Cut.kind (scan_newLine rfl rest)
          rw [indentation] at newLine
          cases newLine
        · rw [returned_cons feed] at split'
          exact (List.cons.inj split').1.symm
      have fault : indentationFault (returnedCut cut) c' indented =
          indentationFault cut c indented := by
        by_cases indentation : cut.kind = .indentation
        · rw [first indentation]
          rfl
        · rw [indentationFault_of_kind_ne c indented indentation]
          exact indentationFault_of_kind_ne c' indented indentation
      have indents : indented.after (returnedCut cut) c' = indented.after cut c := by
        by_cases indentation : cut.kind = .indentation
        · rw [first indentation]
          rfl
        · rw [Indented.after, Indented.after, if_neg indentation]
          exact if_neg indentation
      rw [← taken] at split
      have token := matches_token widened split start
      have lexeme : lexemeAt other indented c' rest' =
          ⟨(returnedCut cut).token other, indentationFault (returnedCut cut) c' indented⟩ := by
        rw [lexemeAt, same]
        rfl
      rw [split', rowFrom_cons, rowFrom_cons, same, left, lexeme, indents]
      refine .cons ⟨token, fault⟩ (ih (front ++ cut.taken) _ ?_ ?_ (widened.after split start))
      · rw [split, List.append_assoc]
      · rw [index_after, start, List.length_append]

theorem widened_origin (whole : List Char) : Widened whole Location.origin Location.origin :=
  ⟨⟨rfl, rfl⟩, Nat.zero_le _, rfl⟩

theorem row_withReturns (text : String) :
    List.Forall₂ (SameLexeme text.toList) (row text) (row (withReturns text)) := by
  have rows : List.Forall₂ (SameLexeme text.toList) (row text)
      (rowFrom Location.origin none (returned text.toList)) :=
    rowFrom_returned Location.origin none text.toList [] _ rfl rfl (widened_origin _)
  rwa [← String.toList_ofList (l := returned text.toList)] at rows

theorem tokens_withReturns (text : String) :
    List.Forall₂ (Matches text.toList) (tokens text) (tokens (withReturns text)) := by
  rw [tokens, tokens, List.forall₂_map_left_iff, List.forall₂_map_right_iff]
  exact (row_withReturns text).imp fun _ _ same => same.token

end Rows

end WidgetTree.Returns
