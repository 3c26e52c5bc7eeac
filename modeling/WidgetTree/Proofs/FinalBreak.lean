import WidgetTree.Proofs.Grammar.FinalBreak
import WidgetTree.Proofs.Lexeme.FinalBreak
import WidgetTree.Proofs.Refusal

/-!
A text with a line feed behind it, taken through both stages. Main statement: `compile_append_feed`,
the document is the same, unless a colon is missed in front of the line feed.
-/

namespace WidgetTree

open Grammar
open Lexeme (Fed Token endToken tokens tokens_append_feed)
open Text (Span)
open WidgetTree.Tree (Document)

variable {options : Options} {text : String} {document : Document} {tail tail' : List Token}

theorem closed_of_parse (parsed : parseDocument options (tokens text) = .ok document) :
    Lexeme.Closed text := by
  intro lexeme member opens
  apply not_malformed_of_parse parsed
  exact ⟨lexeme.token, List.mem_map_of_mem member,
    (Lexeme.error_iff_serious member).mpr ⟨_, opens, rfl⟩⟩

theorem fed_endsLine (fed : Fed text tail tail') :
    (∀ token ∈ tail, endsLine (some token) = true) ∧
      ∀ token ∈ tail', endsLine (some token) = true := by
  cases fed with
  | opened start width => simp [endsLine, endToken]
  | broken stop stop' newLine newLine' => simp [endsLine, endToken, newLine, newLine']

theorem fed_atEnd (fed : Fed text tail tail') : AtEnd tail ∧ AtEnd tail' := by
  cases fed with
  | opened start width => exact ⟨⟨_, _, rfl, rfl⟩, _, _, rfl, rfl⟩
  | broken stop stop' newLine newLine' =>
      exact ⟨⟨_, _, skipNewLines_cons_of_eq newLine, rfl⟩, _, _,
        skipNewLines_cons_of_eq newLine', rfl⟩

theorem significant_append_feed (closed : Lexeme.Closed text) :
    ∃ tail tail', Fed text tail tail' ∧
      UpTo tail tail' (significant (tokens text)) (significant (tokens (text ++ "\n"))) := by
  obtain ⟨core, tail, tail', split, split', fed⟩ := tokens_append_feed closed
  obtain ⟨ends, ends'⟩ := fed_endsLine fed
  obtain ⟨atEnd, atEnd'⟩ := fed_atEnd fed
  obtain ⟨kept, same, same'⟩ := significantFrom_append_ends ends ends' none core
  refine ⟨tail, tail', fed, ?_⟩
  rw [significant_eq, significant_eq, split, split', same, same']
  exact (UpTo.here atEnd atEnd').append kept

/-- A line feed behind a text leaves its document as it is, unless all colons are asked for and the
text ends in a header without one: there the line feed takes the place of the missing colon. -/
theorem compile_append_feed (compiled : (compile options text).outcome = .ok document) :
    (compile options (text ++ "\n")).outcome = .ok document ∨
      (options.enforceColons = true ∧
        (∃ node ∈ document.nodes, EndsInHeader options (significant (tokens text)) node) ∧
        ∃ span : Span, span.start.index = text.length ∧ span.stop.index = text.length + 1 ∧
          (compile options (text ++ "\n")).outcome =
            .error ⟨.unexpectedToken "\n" "Colon", span⟩) := by
  obtain ⟨tail, tail', fed, row⟩ := significant_append_feed (closed_of_parse compiled)
  rcases document_upTo row compiled with same | ⟨⟨asked, ends, header⟩, stops⟩
  · exact .inl same
  · cases fed with
    | @opened stop next start width => exact .inr ⟨asked, header, ⟨stop, next⟩, start, width, stops⟩
    | broken stop stop' newLine newLine' =>
        have last := newLine.symm.trans ends
        cases last

/-- The last header has a property on its line and no colon: all colons asked for, the text is read
as it is and refused with a line feed behind it. -/
theorem compile_append_feed_header :
    ∃ document,
      (compile .strict "Stateless .viewModel: V, .view: Text .style: bold").outcome =
        .ok document ∧
      (∃ node ∈ document.nodes, EndsInHeader .strict
        (significant (tokens "Stateless .viewModel: V, .view: Text .style: bold")) node) ∧
      ∃ span,
        (compile .strict ("Stateless .viewModel: V, .view: Text .style: bold" ++ "\n")).outcome =
          .error ⟨.unexpectedToken "\n" "Colon", span⟩ := by
  have reads : (compile .strict
      "Stateless .viewModel: V, .view: Text .style: bold").outcome.isOk = true := by
    decide +kernel
  have refused : (compile .strict
      ("Stateless .viewModel: V, .view: Text .style: bold" ++ "\n")).outcome.isOk = false := by
    decide +kernel
  obtain ⟨document, compiled⟩ := exists_ok_of_isOk reads
  rcases compile_append_feed compiled with same | ⟨-, header, span, -, -, stops⟩
  · rw [same] at refused
    cases refused
  · exact ⟨document, compiled, header, span, stops⟩

end WidgetTree
