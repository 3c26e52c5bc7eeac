import WidgetTree.Lexeme.Reader
import WidgetTree.Proofs.Lexeme.Tiling

/-!
What is found on the lexemes of a text. Main statements: `pull_eq`, a reader hands out the lexemes
one after the other and logs what is found on those and on no others, and `tokenize_reports`, the
findings are those that the tokens call for, malformed ones and lines indented otherwise than the
first.
-/

namespace WidgetTree.Lexeme

open Text (Location Span charAt)

namespace Reader

def coming (reader : Reader) : List Lexeme :=
  if reader.finished then [] else rowFrom reader.place reader.indented reader.left

structure Reads (reader after : Reader) (lexemes : List Lexeme) : Prop where
  text : after.text = reader.text
  coming : reader.coming = lexemes ++ after.coming
  log : after.log = reader.log ++ reports reader.text lexemes

theorem Reads.nothing (reader : Reader) : Reads reader reader [] :=
  ⟨rfl, rfl, (List.append_nil _).symm⟩

theorem Reads.trans {reader middle after : Reader} {lexemes more : List Lexeme}
    (first : Reads reader middle lexemes) (second : Reads middle after more) :
    Reads reader after (lexemes ++ more) where
  text := second.text.trans first.text
  coming := by rw [first.coming, second.coming, List.append_assoc]
  log := by
    rw [second.log, first.log, first.text, List.append_assoc, reports, reports, reports,
      List.filterMap_append]

theorem coming_of_next?_eq_none {reader : Reader} (none : reader.next? = none) :
    reader.coming = [] := by
  rw [next?] at none
  split at none
  · next finished => rw [coming, if_pos finished]
  · split at none
    · cases none
    · cases none

theorem reads_of_next? {reader after : Reader} {token : Token}
    (next : reader.next? = some (token, after)) :
    ∃ lexeme, token = lexeme.token ∧ Reads reader after [lexeme] := by
  rw [next?] at next
  split at next
  · cases next
  · next going =>
      split at next
      · next left =>
          cases next
          refine ⟨lexemeAtEnd reader.place, rfl, rfl, ?_, ?_⟩
          · rw [coming, if_neg going, left, rowFrom_nil, coming, if_pos rfl]
            rfl
          · exact (List.append_nil _).symm
      · next c rest left =>
          cases next
          refine ⟨lexemeAt reader.place reader.indented c rest, rfl, rfl, ?_, ?_⟩
          · rw [coming, if_neg going, left, rowFrom_cons, coming, if_neg going]
            rfl
          · rw [reports, List.filterMap_cons, List.filterMap_nil]
            simp only [lexemeAt]
            split
            · next none => simp [none]
            · next found => simp [found]

theorem pull_eq (count : Nat) (reader : Reader) :
    (reader.pull count).1 = (reader.coming.take count).map (·.token) ∧
      Reads reader (reader.pull count).2 (reader.coming.take count) := by
  induction count generalizing reader with
  | zero => exact ⟨rfl, .nothing reader⟩
  | succ count ih =>
      rw [pull]
      split
      · next none =>
          rw [coming_of_next?_eq_none none]
          exact ⟨rfl, .nothing reader⟩
      · next token after next =>
          obtain ⟨lexeme, rfl, reads⟩ := reads_of_next? next
          obtain ⟨handed, more⟩ := ih after
          rw [reads.coming, List.singleton_append, List.take_succ_cons, List.map_cons, ← handed]
          exact ⟨rfl, reads.trans more⟩

theorem pullAll_eq (reader : Reader) :
    reader.pullAll.1 = reader.coming.map (·.token) ∧
      Reads reader reader.pullAll.2 reader.coming := by
  induction reader using pullAll.induct with
  | case1 reader none =>
      rw [pullAll.eq_def]
      split
      · rw [coming_of_next?_eq_none none]
        exact ⟨rfl, .nothing reader⟩
      · next next => cases none.symm.trans next
  | case2 reader token after next _ _ _ ih =>
      rw [pullAll.eq_def]
      split
      · next none => cases none.symm.trans next
      · next token' after' next' =>
          cases next.symm.trans next'
          obtain ⟨lexeme, rfl, reads⟩ := reads_of_next? next
          obtain ⟨handed, more⟩ := ih
          rw [reads.coming, List.singleton_append, List.map_cons, ← handed]
          exact ⟨rfl, reads.trans more⟩

theorem coming_start (text : String) (log : Log) : (start text log).coming = row text := rfl

end Reader

theorem tokenize_eq (text : String) (log : Log) :
    tokenize text log = (tokens text, log ++ reports text (row text)) := by
  obtain ⟨handed, reads⟩ := (Reader.start text log).pullAll_eq
  exact Prod.ext handed reads.log

def Cut.Mild (cut : Cut) : Prop := ∀ fault ∈ cut.fault, fault.severity = .error

section Mild

theorem plain_mild (kind : Kind) (taken : List Char) : (plain kind taken).Mild := by
  rintro _ ⟨⟩

theorem malformed_mild {fault : String → Fault} (mild : ∀ word, (fault word).severity = .error)
    (taken rest : List Char) : (malformed fault taken rest).Mild := by
  rintro _ ⟨⟩
  exact mild _

theorem delimited_mild (kind : Kind) (taken rest : List Char) :
    (delimited kind taken rest).Mild := by
  rw [delimited]
  split
  · exact plain_mild kind taken
  · exact malformed_mild (fun _ => rfl) taken rest

theorem floatEnd_mild (taken rest : List Char) : (floatEnd taken rest).Mild := by
  rw [floatEnd.eq_def]
  split
  · exact plain_mild .float taken
  · split
    · exact plain_mild .float taken
    · split
      · exact malformed_mild (fun _ => rfl) taken _
      · exact malformed_mild (fun _ => rfl) taken _

theorem exponentDigits_mild (sign : Char) (taken rest : List Char) :
    (exponentDigits sign taken rest).Mild := by
  rw [exponentDigits]
  split
  · exact malformed_mild (fun _ => rfl) taken rest
  · exact floatEnd_mild _ _

theorem exponent_mild (taken rest : List Char) : (exponent taken rest).Mild := by
  rw [exponent.eq_def]
  split
  · exact exponentDigits_mild '-' _ _
  · exact exponentDigits_mild 'e' _ _
  · exact floatEnd_mild taken rest

theorem fraction_mild (taken rest : List Char) : (fraction taken rest).Mild := by
  rw [fraction]
  split
  · exact malformed_mild (fun _ => rfl) taken rest
  · exact exponent_mild _ _

theorem numberTail_mild (taken rest : List Char) : (numberTail taken rest).Mild := by
  rw [numberTail.eq_def]
  split
  · exact fraction_mild _ _
  · exact exponent_mild taken _
  · split
    · exact delimited_mild .integer _ _
    · exact delimited_mild .integer taken _
  · exact delimited_mild .integer taken rest

theorem number_mild (text : List Char) : (number text).Mild := by
  rw [number.eq_def]
  split
  · exact numberTail_mild _ _
  · exact numberTail_mild _ _

theorem comment_mild (text : List Char) : (comment text).Mild := by
  rw [comment.eq_def]
  split
  · split
    · exact plain_mild .blockComment _
    · rintro _ ⟨⟩
      rfl
  · exact plain_mild .lineComment _

theorem scan_mild {c : Char} (unquoted : isQuote c = false) (lineStart : Bool)
    (rest : List Char) : (scan lineStart c rest).Mild := by
  rw [scan]
  split
  · exact plain_mild .newLine _
  · split
    · split
      · exact plain_mild .indentation _
      · exact plain_mild .whiteSpace _
    · split
      · exact number_mild _
      · split
        · exact comment_mild _
        · split
          · exact delimited_mild _ _ _
          · split
            · next quotes =>
                rw [unquoted] at quotes
                cases quotes
            · split
              · exact plain_mild _ [c]
              · exact malformed_mild (fun _ => rfl) [c] rest

end Mild

def isCutOff (text : String) (token : Token) : Bool :=
  isQuote (charAt text token.span.start.index) && token.span.stop.index = text.length

/-- How bad the token is, if it is bad at all, where `first` begins the first indentation. -/
def verdict? (text : String) (first : Option Char) (token : Token) : Option Severity :=
  match token.kind with
  | .error => some (if isCutOff text token then .fatal else .error)
  | .indentation => if token.value.toList.head? = first then none else some .warning
  | _ => none

def firstIndent? (tokens : List Token) : Option Char :=
  (tokens.find? (·.kind = .indentation)).bind (·.value.toList.head?)

section Verdicts

variable {lineStart : Bool} {c : Char} {rest : List Char}

theorem quoted_severity (failed : (quoted c rest).kind = .error) :
    (quoted c rest).fault.map (·.severity) =
      some (if (quoted c rest).taken.length = rest.length + 1 then .fatal else .error) := by
  have whole : rest.takeWhile (inString c) ++ rest.dropWhile (inString c) = rest :=
    List.takeWhile_append_dropWhile
  rw [quoted] at failed ⊢
  split
  · next none =>
      rw [none, List.append_nil] at whole
      simp [whole, Fault.severity]
  · next d others left =>
      split
      · next closed =>
          simp only [left, closed, if_true] at failed
          cases failed
      · have shorter : (rest.takeWhile (inString c)).length < rest.length := by
          have lengths := congrArg List.length whole
          rw [left, List.length_append, List.length_cons] at lengths
          omega
        simp [Nat.ne_of_lt shorter, Fault.severity]

theorem scan_severity (failed : (scan lineStart c rest).kind = .error) :
    (scan lineStart c rest).fault.map (·.severity) =
      some (if isQuote c ∧ (scan lineStart c rest).taken.length = rest.length + 1 then .fatal
        else .error) := by
  cases quotes : isQuote c with
  | true =>
      rw [scan_of_quote quotes] at failed ⊢
      simpa using quoted_severity failed
  | false =>
      obtain ⟨fault, found, -⟩ := (scan_sound lineStart c rest).faulty failed
      simp [found, scan_mild quotes lineStart rest fault found]

theorem head?_of_indentation (indentation : (scan lineStart c rest).kind = .indentation) :
    (scan lineStart c rest).value.head? = some c := by
  obtain ⟨more, begins⟩ := (scan_continues lineStart c rest).1
  have spells := spells_scan lineStart c rest Location.origin
  cases spells with
  | plain unquoted other same =>
      rw [Cut.token, String.toList_ofList] at same
      rw [← same, ← begins]
      rfl
  | string kind => cases kind.symm.trans indentation
  | broken kind => cases kind.symm.trans indentation

theorem firstIndent?_cons (token : Token) (others : List Token) :
    firstIndent? (token :: others) =
      if token.kind = .indentation then token.value.toList.head? else firstIndent? others := by
  rw [firstIndent?, List.find?_cons]
  split
  · next indentation =>
      rw [if_pos (of_decide_eq_true indentation)]
      rfl
  · next other =>
      rw [if_neg (of_decide_eq_false other)]
      rfl

theorem or_firstIndent?_lexemeAt (place : Location) (indented : Indented) (others : List Token) :
    indented.or (firstIndent? ((lexemeAt place indented c rest).token :: others)) =
      (indented.after (scan (place.column = 0) c rest) c).or (firstIndent? others) := by
  have kind : (lexemeAt place indented c rest).token.kind =
      (scan (place.column = 0) c rest).kind := rfl
  rw [firstIndent?_cons, Indented.after, kind]
  by_cases indentation : (scan (place.column = 0) c rest).kind = .indentation
  · rw [if_pos indentation, if_pos indentation, Option.or_assoc, Option.some_or]
    simp only [lexemeAt, String.toList_ofList, head?_of_indentation indentation]
  · rw [if_neg indentation, if_neg indentation]

theorem isCutOff_lexemeAt {text : String} {front : List Char} {place : Location}
    (split : text.toList = front ++ c :: rest) (start : place.index = front.length)
    (indented : Indented) :
    isCutOff text (lexemeAt place indented c rest).token = true ↔
      isQuote c = true ∧ (scan (place.column = 0) c rest).taken.length = rest.length + 1 := by
  have first : charAt text place.index = c := by
    rw [charAt, split, start]
    simp
  have length : text.length = place.index + (rest.length + 1) := by
    rw [← String.length_toList, split, List.length_append, List.length_cons, start]
  simp only [isCutOff, lexemeAt, first, index_after, length, Bool.and_eq_true,
    decide_eq_true_eq, Nat.add_left_cancel_iff]

theorem verdict?_lexemeAt {text : String} {front : List Char} {place : Location}
    (split : text.toList = front ++ c :: rest) (start : place.index = front.length)
    (indented : Indented) (others : List Token) :
    (lexemeAt place indented c rest).fault.map (·.severity) =
      verdict? text
        (indented.or (firstIndent? ((lexemeAt place indented c rest).token :: others)))
        (lexemeAt place indented c rest).token := by
  have sound := scan_sound (place.column = 0) c rest
  have kind : (lexemeAt place indented c rest).token.kind =
      (scan (place.column = 0) c rest).kind := rfl
  by_cases indentation : (scan (place.column = 0) c rest).kind = .indentation
  · have head := head?_of_indentation indentation
    rw [or_firstIndent?_lexemeAt, Indented.after, if_pos indentation, Option.or_assoc,
      Option.some_or, verdict?, kind, indentation, lexemeAt]
    cases indented with
    | none =>
        rw [indentationFault_none, sound.faultless (by rw [indentation]; decide)]
        simp [head]
    | some expected =>
        rw [indentationFault.eq_def, indentation]
        by_cases same : expected = c
        · simp [same, head]
        · simp [same, Ne.symm same, head, Fault.severity]
  · have fault : (lexemeAt place indented c rest).fault = (scan (place.column = 0) c rest).fault :=
      indentationFault_of_kind_ne c indented indentation
    rw [fault, verdict?.eq_def, kind]
    by_cases failed : (scan (place.column = 0) c rest).kind = .error
    · rw [scan_severity failed, failed]
      simp only [isCutOff_lexemeAt split start]
    · rw [sound.faultless failed]
      split
      · next same => exact absurd same failed
      · next same => exact absurd same indentation
      · rfl

theorem verdict?_of_mem {text : String} {place : Location} {indented : Indented}
    {chars : List Char} {lexeme : Lexeme} (member : lexeme ∈ rowFrom place indented chars)
    (front : List Char) (split : text.toList = front ++ chars)
    (start : place.index = front.length) :
    lexeme.fault.map (·.severity) =
      verdict? text (indented.or (firstIndent? ((rowFrom place indented chars).map (·.token))))
        lexeme.token := by
  -- The state of the scan and the indentations to come always agree on the first one of the file.
  revert front
  induction place, indented, chars using rowFrom.induct with
  | case1 place indented =>
      intro front split start
      rw [rowFrom_nil, List.mem_singleton] at member
      rw [member]
      rfl
  | case2 place indented c rest cut ih =>
      intro front split start
      rw [rowFrom_cons] at member ⊢
      rw [List.map_cons]
      rcases List.mem_cons.mp member with rfl | later
      · exact verdict?_lexemeAt split start indented _
      · rw [or_firstIndent?_lexemeAt]
        apply ih later (front ++ cut.taken)
        · rw [split, List.append_assoc]
          exact congrArg (front ++ ·) (scan_taken_append _ c rest).symm
        · rw [index_after, start, List.length_append]

end Verdicts

/-- The findings that tokens of a text call for, each with its severity and place. -/
def verdicts (text : String) (tokens : List Token) : List (Severity × Span) :=
  tokens.filterMap fun token =>
    (verdict? text (firstIndent? (Lexeme.tokens text)) token).map (·, token.span)

/-- The findings behind those of the first log are the ones that the tokens call for. -/
def Adds (text : String) (tokens : List Token) (log after : Log) : Prop :=
  ∃ found, after = log ++ found ∧
    found.map (fun report => (report.severity, report.span)) = verdicts text tokens

theorem adds_reports {text : String} {lexemes : List Lexeme} (all : lexemes ⊆ row text)
    (log : Log) : Adds text (lexemes.map (·.token)) log (log ++ reports text lexemes) := by
  refine ⟨_, rfl, ?_⟩
  rw [reports, List.map_filterMap, verdicts, List.filterMap_map]
  apply List.filterMap_congr
  intro lexeme member
  have verdict : lexeme.fault.map (·.severity) =
      verdict? text (firstIndent? (tokens text)) lexeme.token :=
    verdict?_of_mem (all member) [] rfl rfl
  rw [Function.comp, ← verdict, report?, Option.map_map, Option.map_map]
  rfl

/-- A text that is read to its end, or for some lexemes only, leaves the findings in the log as they
are and adds those that the tokens read call for. -/
theorem tokenize_reports (text : String) (log : Log) :
    ((tokenize text log).1 = tokens text ∧ Adds text (tokens text) log (tokenize text log).2) ∧
      ∀ count, ((Reader.start text log).pull count).1 = (tokens text).take count ∧
        Adds text ((tokens text).take count) log ((Reader.start text log).pull count).2.log ∧
        ((Reader.start text log).pull count).2.log <+: (tokenize text log).2 := by
  rw [tokenize_eq]
  refine ⟨⟨rfl, adds_reports (List.Subset.refl _) log⟩, fun count => ?_⟩
  obtain ⟨handed, reads⟩ := Reader.pull_eq count (Reader.start text log)
  rw [Reader.coming_start] at handed reads
  have found : ((Reader.start text log).pull count).2.log =
      log ++ reports text ((row text).take count) := reads.log
  rw [handed, found, tokens, ← List.map_take]
  refine ⟨rfl, adds_reports (List.take_subset count _) log, ?_⟩
  exact (List.prefix_append_right_inj log).mpr ((List.take_prefix count _).filterMap _)

end WidgetTree.Lexeme
