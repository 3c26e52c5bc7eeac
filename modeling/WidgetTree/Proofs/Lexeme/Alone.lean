import Mathlib.Data.List.TakeWhile
import WidgetTree.Proofs.Lexeme.Breaks
import WidgetTree.Proofs.Lexeme.Lookahead
import WidgetTree.Proofs.Lexeme.Numbers

/-!
A lexeme by itself. Main definition: `Cut.Recurs`, two cuts are the same but for what is said to be
wrong with them. Main statement: `tokenize_alone`, what stands under a token other than white space
is cut into one token of the same kind and value, whatever stood around it.
-/

namespace WidgetTree.Lexeme

open Text (Location isBlank slice)

/-- The same cut again. What is wrong with it may be called otherwise: by itself, a string that a
line break cuts off is one that the end of the text cuts off. -/
def Cut.Recurs (cut again : Cut) : Prop := ∃ fault, again = { cut with fault := fault }

section Scanners

variable {lineStart : Bool} {c : Char} {rest more : List Char} {cut again : Cut}

theorem Cut.Recurs.of_eq (same : again = cut) : cut.Recurs again := ⟨cut.fault, same⟩

theorem run_alone {p : Char → Bool} (taken : (c :: rest).takeWhile p = c :: more) :
    (c :: more).takeWhile p = (c :: rest).takeWhile p := by
  rw [← taken, List.takeWhile_idem]

theorem comment_alone (taken : (comment ('!' :: rest)).taken = '!' :: more) :
    comment ('!' :: more) = comment ('!' :: rest) := by
  obtain ⟨others, rfl⟩ : more <+: rest := by
    have fits := (comment_continues rest).2
    rw [taken] at fits
    exact (List.prefix_cons_inj '!').mp fits
  by_cases single : (more ++ others).head? = some '!'
  · obtain ⟨text, split⟩ := List.head?_eq_some_iff.mp single
    rw [split] at taken ⊢
    cases found : throughMarks? text with
    | some body =>
        rw [comment_closed found] at taken ⊢
        obtain rfl : '!' :: body = more := (List.cons.inj taken).2
        obtain rfl : body ++ others = text := (List.cons.inj split).2
        exact comment_closed (throughMarks?_foreseen found le_rfl)
    | none =>
        rw [comment_open found] at taken ⊢
        obtain rfl : '!' :: text = more := (List.cons.inj taken).2
        exact comment_open found
  · rw [comment_line single] at taken ⊢
    have single' : more.head? ≠ some '!' := by
      intro double
      obtain ⟨tail, rfl⟩ := List.head?_eq_some_iff.mp double
      exact single rfl
    rw [comment_line single']
    exact congrArg (plain .lineComment) (run_alone taken)

theorem quoted_of_all {quote : Char} {body : List Char}
    (inside : ∀ d ∈ body, inString quote d = true) :
    quoted quote body = ⟨.error, quote :: body, body, some .unterminatedString⟩ := by
  rw [quoted, List.takeWhile_eq_self_iff.mpr inside, List.dropWhile_eq_nil_iff.mpr inside]

theorem quoted_recurs (taken : (quoted c rest).taken = c :: more) :
    (quoted c rest).Recurs (quoted c more) := by
  have inside : ∀ d ∈ rest.takeWhile (inString c), inString c d = true :=
    fun d => List.mem_takeWhile_imp
  generalize same : quoted c rest = cut at taken ⊢
  rw [quoted] at same
  split at same
  · subst same
    obtain rfl := (List.cons.inj taken).2
    exact .of_eq (quoted_of_all inside)
  · split at same
    · subst same
      obtain rfl := (List.cons.inj taken).2
      have again := quoted_of_inside inside []
      rw [List.append_nil] at again
      exact .of_eq again
    · subst same
      obtain rfl := (List.cons.inj taken).2
      exact ⟨_, quoted_of_all inside⟩

theorem blank_alone (solid : isNewLine c = false) (blank : isBlank c = true)
    (full : (scan lineStart c rest).kind ≠ .whiteSpace)
    (taken : (scan lineStart c rest).taken = c :: more) :
    scan true c more = scan lineStart c rest := by
  rw [scan_blank solid blank] at full taken ⊢
  rw [scan_blank solid blank]
  split at full
  · next indents =>
      rw [if_pos indents] at taken ⊢
      rw [if_pos (Bool.and_eq_true_iff.mpr ⟨rfl, (Bool.and_eq_true_iff.mp indents).2⟩)]
      exact congrArg (plain .indentation) (run_alone taken)
  · exact absurd rfl full

theorem scan_recurs (taken : (scan lineStart c rest).taken = c :: more)
    (full : (scan lineStart c rest).kind ≠ .whiteSpace) :
    (scan lineStart c rest).Recurs (scan true c more) := by
  cases breaks : isNewLine c with
  | true =>
      rw [scan_newLine breaks] at taken ⊢
      rw [scan_newLine breaks]
      exact .of_eq (congrArg (plain .newLine) (run_alone taken))
  | false =>
  cases blank : isBlank c with
  | true => exact .of_eq (blank_alone breaks blank full taken)
  | false =>
  rw [scan_lineStart blank lineStart true] at taken ⊢
  by_cases mark : c = '!'
  · subst mark
    rw [scan_comment] at taken ⊢
    rw [scan_comment]
    exact .of_eq (comment_alone taken)
  cases quotes : isQuote c with
  | true =>
      rw [scan_of_quote quotes] at taken ⊢
      rw [scan_of_quote quotes]
      exact quoted_recurs taken
  | false =>
  cases marks : mark? c with
  | some kind => exact .of_eq (by rw [scan_of_mark? marks, scan_of_mark? marks])
  | none =>
      obtain ⟨rear, settles⟩ := scan_settles breaks blank mark quotes marks rest
      rw [settles.worded.taken_eq] at taken
      obtain rfl : rear = more := by simpa using taken
      exact .of_eq settles.alone

theorem cutsFrom_alone (full : (scan lineStart c rest).kind ≠ .whiteSpace) :
    ∃ again, cutsFrom true (scan lineStart c rest).taken = [again] ∧
      (scan lineStart c rest).Recurs again := by
  obtain ⟨more, begins⟩ := (scan_continues lineStart c rest).1
  have taken : (scan lineStart c rest).taken = c :: more := begins.symm
  have recurs := scan_recurs taken full
  have same : (scan true c more).taken = c :: more := by
    obtain ⟨fault, again⟩ := recurs
    rw [again, taken]
  refine ⟨_, ?_, recurs⟩
  have alone := cutsFrom_of_scan same (congrArg (scan true c) (List.append_nil more))
  rw [List.append_nil, cutsFrom] at alone
  rw [taken, alone]

end Scanners

/-- What stands under a token other than white space is by itself a text of that one token. -/
theorem tokenize_alone {text : String} {log : Log} {token : Token}
    (member : token ∈ (tokenize text log).1) (full : token.kind ≠ .whiteSpace)
    (goes : token.kind ≠ .endOfFile) (log' : Log) :
    saying (tokenize (slice text token.span) log').1 =
      [(token.kind, token.value), (.endOfFile, "")] := by
  rw [tokenize_eq, tokens_eq_placed, List.mem_append, List.mem_singleton] at member
  rcases member with inside | rfl
  · obtain ⟨lineStart, c, rest, place, rfl, under⟩ := exists_scan_under inside
    obtain ⟨_, alone, fault, rfl⟩ := cutsFrom_alone full
    rw [tokenize_eq, saying_tokens, under, alone]
    rfl
  · exact absurd rfl goes

/-- What is left of a string is the same token by itself, and there it is fatal. -/
theorem tokenize_alone_broken :
    ∃ token ∈ (tokenize "Foo \x27a\nb" []).1, token.kind ≠ .whiteSpace ∧ token.kind ≠ .endOfFile ∧
      saying (tokenize (slice "Foo \x27a\nb" token.span) []).1 =
        [(.error, "a"), (.endOfFile, "")] ∧
      (tokenize "Foo \x27a\nb" []).2.map (·.severity) = [.error] ∧
      (tokenize (slice "Foo \x27a\nb" token.span) []).2.map (·.severity) = [.fatal] := by
  have member : (⟨.error, "a", ⟨⟨4, 1, 4⟩, ⟨6, 1, 6⟩⟩⟩ : Token) ∈
      (tokenize "Foo \x27a\nb" []).1 := by
    decide +kernel
  exact ⟨_, member, by decide, by decide, tokenize_alone member (by decide) (by decide) [],
    by decide +kernel, by decide +kernel⟩

end WidgetTree.Lexeme
