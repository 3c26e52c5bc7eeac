import WidgetTree.Proofs.Lexeme.Delimited
import WidgetTree.Proofs.Lexeme.Findings

/-!
The number tokens of a text. Main statements: `number_texts`, which texts are one number, read
without a finding, and which of those that begin like one are one malformed word, and
`number_tokens`, of all numbers only a bare radix prefix has no digits.
-/

namespace WidgetTree.Lexeme

open Text (Location isAlphabetic)

def isNumber : Kind → Bool
  | .integer | .float => true
  | _ => false

inductive Numeral.Of : Kind → List Char → Prop
  | float {word : List Char} (numeral : word ∈ Numeral.float.matches') : Of .float word
  | integer {word : List Char} (numeral : word ∈ Numeral.integer.matches') : Of .integer word

def BeginsNumber (text : List Char) : Prop :=
  ∃ c rest, text = c :: rest ∧ beginsNumber c rest = true

namespace Numeral

variable {kind : Kind} {word whole front : List Char}

theorem of_float_iff : Of .float word ↔ word ∈ float.matches' :=
  ⟨fun numeral => by cases numeral; assumption, .float⟩

theorem of_integer_iff : Of .integer word ↔ word ∈ integer.matches' :=
  ⟨fun numeral => by cases numeral; assumption, .integer⟩

theorem begins_of_whole (numeral : whole ∈ (sign * digits).matches') (more : List Char) :
    BeginsNumber (whole ++ more) := by
  obtain ⟨run, numeral, same⟩ := mem_whole_iff.mp numeral
  obtain ⟨some, each⟩ := mem_digits_iff.mp numeral
  cases run with
  | nil => exact absurd rfl some
  | cons c cs =>
      have digit : isDigit c = true := each c List.mem_cons_self
      rcases same with rfl | rfl
      · exact ⟨c, cs ++ more, rfl, by simp [beginsNumber, digit]⟩
      · exact ⟨'-', c :: cs ++ more, rfl, by simp [beginsNumber, digit]⟩

theorem begins_of_radix (bare : front ∈ (sign * radix).matches') (more : List Char) :
    BeginsNumber (front ++ more) := by
  rcases mem_radix_iff.mp bare with rfl | rfl
  · exact ⟨'0', 'x' :: more, rfl, rfl⟩
  · exact ⟨'-', '0' :: 'x' :: more, rfl, rfl⟩

theorem Of.begins (numeral : Of kind word) : BeginsNumber word := by
  cases numeral with
  | float numeral =>
      obtain ⟨whole, front, more, -, rfl⟩ := mem_mul_iff.mp numeral
      exact begins_of_whole front more
  | integer numeral =>
      rcases mem_add_iff.mp numeral with decimal | hexadecimal
      · have begins := begins_of_whole decimal []
        rwa [List.append_nil] at begins
      · obtain ⟨front, first, more, -, rfl⟩ := mem_mul_iff.mp hexadecimal
        exact begins_of_radix first more

end Numeral

theorem number_of_numeral {kind : Kind} {text : List Char} (numeral : Numeral.Of kind text) :
    number text = plain kind text := by
  cases numeral with
  | float numeral => exact number_of_float numeral
  | integer numeral => exact number_of_integer numeral

section Cuts

variable {lineStart : Bool} {c : Char} {rest text : List Char} {cut : Cut}

theorem NumberForms.value_eq (forms : NumberForms text cut) : cut.value = cut.taken := by
  cases forms <;> rfl

theorem NumberForms.numeral_or_error (forms : NumberForms text cut) :
    (Numeral.Of cut.kind cut.taken ∧ cut.fault = none) ∨
      cut.kind = .error ∧ ∃ fault, cut.fault = some fault ∧ fault.severity = .error := by
  cases forms with
  | float _ numeral => exact .inl ⟨.float numeral, rfl⟩
  | integer _ numeral => exact .inl ⟨.integer numeral, rfl⟩
  | malformed _ serious => exact .inr ⟨rfl, _, rfl, serious _⟩

theorem scan_forms (begins : beginsNumber c rest = true) :
    NumberForms (c :: rest) (scan lineStart c rest) := by
  rw [scan_of_beginsNumber begins]
  exact number_forms begins

theorem isNumber_nameKind (name : String) : isNumber (nameKind name) = false := by
  unfold nameKind
  split
  · rfl
  · split <;> rfl

theorem isNumber_word (text : List Char) : isNumber (word text).kind = false := by
  rw [word, delimited]
  split
  · exact isNumber_nameKind _
  · rfl

theorem beginsNumber_of_isNumber (number : isNumber (scan lineStart c rest).kind = true) :
    beginsNumber c rest = true := by
  have value : IsValue (scan lineStart c rest).kind ∧ (scan lineStart c rest).kind ≠ .string := by
    generalize (scan lineStart c rest).kind = kind at number
    cases kind <;> simp [isNumber, IsValue, Kind.category] at number ⊢
  cases digit : beginsNumber c rest with
  | true => rfl
  | false =>
      cases letter : (isAlphabetic c || c = '_') with
      | true =>
          rw [scan_of_beginsName digit letter, isNumber_word] at number
          cases number
      | false =>
          have others : beginsWord c rest = false := by
            rw [beginsWord, digit, Bool.false_or, letter]
          exact absurd (string_of_value others value.1) value.2

theorem taken_of_unterminated (begins : beginsNumber c rest = true)
    (inside : ∀ d ∈ rest, isTerminator d = false) :
    (scan lineStart c rest).taken = c :: rest := by
  have forms : NumberForms (c :: rest) (scan lineStart c rest) := scan_forms begins
  obtain ⟨left, split, ends⟩ := forms.ends
  obtain ⟨more, first⟩ := (scan_continues lineStart c rest).1
  rw [← first] at split ⊢
  obtain rfl : rest = more ++ left := (List.cons.inj split).2
  cases left with
  | nil => simp
  | cons d others =>
      have stops : isTerminator d = true := ends
      rw [inside d (List.mem_append_right more List.mem_cons_self)] at stops
      cases stops

end Cuts

def saying (tokens : List Token) : List (Kind × String) :=
  tokens.map fun token => (token.kind, token.value)

section Texts

variable {text : String} {c : Char} {rest : List Char}

theorem saying_tokens (text : String) :
    saying (tokens text) = (cutsFrom true text.toList).map
      (fun cut => (cut.kind, String.ofList cut.value)) ++ [(.endOfFile, "")] := by
  have each (place : Location) (cuts : List Cut) :
      saying (placed place cuts) = cuts.map fun cut => (cut.kind, String.ofList cut.value) := by
    induction cuts generalizing place with
    | nil => rfl
    | cons cut cuts ih => exact congrArg _ (ih (cut.after place))
  rw [tokens_eq_placed, saying, List.map_append]
  exact congrArg (· ++ _) (each _ _)

theorem tokenize_of_taken (split : text.toList = c :: rest)
    (whole : (scan true c rest).taken = c :: rest)
    (value : (scan true c rest).value = (scan true c rest).taken) (log : Log) :
    saying (tokenize text log).1 = [((scan true c rest).kind, text), (.endOfFile, "")] ∧
      (tokenize text log).2 =
        log ++ (report? text (lexemeAt Location.origin none c rest)).toList := by
  have done : rest.drop ((scan true c rest).taken.length - 1) = [] := by
    rw [whole]
    exact List.drop_length
  have start : decide (Location.origin.column = 0) = true := rfl
  have lexemes : row text = [lexemeAt Location.origin none c rest,
      lexemeAtEnd ((scan true c rest).after Location.origin)] := by
    rw [row, split, rowFrom_cons, start, done, rowFrom_nil]
  have same : String.ofList (scan true c rest).value = text := by
    rw [value, whole, ← split, String.ofList_toList]
  rw [tokenize_eq]
  constructor
  · rw [tokens, lexemes, ← same]
    rfl
  · rw [lexemes, reports, List.filterMap_cons, List.filterMap_cons, List.filterMap_nil]
    have none : report? text (lexemeAtEnd ((scan true c rest).after Location.origin)) = none := rfl
    rw [none]
    cases report? text (lexemeAt Location.origin Option.none c rest) with
    | none => rfl
    | some report => rfl

theorem tokenize_of_numeral {kind : Kind} (numeral : Numeral.Of kind text.toList) (log : Log) :
    saying (tokenize text log).1 = [(kind, text), (.endOfFile, "")] ∧
      (tokenize text log).2 = log := by
  obtain ⟨c, rest, split, begins⟩ := numeral.begins
  have cut : scan true c rest = plain kind (c :: rest) := by
    rw [scan_of_beginsNumber begins, ← split]
    exact number_of_numeral numeral
  obtain ⟨said, found⟩ := tokenize_of_taken split (by rw [cut, plain]) (by rw [cut, plain]) log
  rw [cut] at said
  refine ⟨said, ?_⟩
  have sound : (lexemeAt Location.origin none c rest).fault = none := by
    rw [lexemeAt, indentationFault_none]
    exact congrArg Cut.fault cut
  rw [found, report?, sound]
  exact List.append_nil log

theorem numeral_of_saying {kind : Kind} (number : isNumber kind = true)
    (said : saying (tokens text) = [(kind, text), (.endOfFile, "")]) :
    Numeral.Of kind text.toList := by
  rw [saying_tokens] at said
  obtain ⟨cut, one, same⟩ := List.map_eq_singleton_iff.mp (List.append_cancel_right said)
  have whole := taken_cutsFrom true text.toList
  rw [one, List.flatMap_singleton] at whole
  cases split : text.toList with
  | nil =>
      rw [split, cutsFrom] at one
      cases one
  | cons c rest =>
      rw [split, cutsFrom_cons] at one
      obtain rfl : scan true c rest = cut := (List.cons.inj one).1
      obtain ⟨rfl, -⟩ := Prod.mk.inj same
      rw [← split, ← whole]
      rcases (scan_forms (beginsNumber_of_isNumber number)).numeral_or_error with found | failed
      · exact found.1
      · rw [failed.1] at number
        cases number

theorem saying_numeral_iff {kind : Kind} (number : isNumber kind = true) (text : String)
    (log : Log) : saying (tokenize text log).1 = [(kind, text), (.endOfFile, "")] ↔
      Numeral.Of kind text.toList := by
  refine ⟨fun said => ?_, fun numeral => (tokenize_of_numeral numeral log).1⟩
  rw [tokenize_eq] at said
  exact numeral_of_saying number said

theorem tokenize_of_glued (split : text.toList = c :: rest) (begins : beginsNumber c rest = true)
    (inside : ∀ d ∈ rest, isTerminator d = false) (other : ∀ kind, ¬ Numeral.Of kind text.toList)
    (log : Log) :
    saying (tokenize text log).1 = [(.error, text), (.endOfFile, "")] ∧
      ∃ report, (tokenize text log).2 = log ++ [report] ∧ report.severity = .error ∧
        report.span.start = Location.origin ∧ report.span.stop.index = text.length := by
  have forms : NumberForms (c :: rest) (scan true c rest) := scan_forms begins
  have whole : (scan true c rest).taken = c :: rest := taken_of_unterminated begins inside
  obtain ⟨said, found⟩ := tokenize_of_taken split whole forms.value_eq log
  rcases forms.numeral_or_error with ⟨numeral, -⟩ | ⟨failed, fault, faulty, serious⟩
  · rw [whole, ← split] at numeral
    exact absurd numeral (other _)
  · have same : (lexemeAt Location.origin none c rest).fault = some fault := by
      rw [lexemeAt, indentationFault_none]
      exact faulty
    rw [failed] at said
    rw [report?, same] at found
    refine ⟨said, _, found, serious, rfl, ?_⟩
    have stop : ((scan true c rest).after Location.origin).index = text.length := by
      rw [index_after, whole, ← split, String.length_toList, Location.origin, Nat.zero_add]
    exact stop

/-- Which texts are one number, and what becomes of the others that begin like one. -/
theorem number_texts (text : String) (log : Log) :
    (saying (tokenize text log).1 = [(.float, text), (.endOfFile, "")] ↔
      text.toList ∈ Numeral.float.matches') ∧
    (saying (tokenize text log).1 = [(.integer, text), (.endOfFile, "")] ↔
      text.toList ∈ Numeral.integer.matches') ∧
    (text.toList ∈ Numeral.float.matches' ∨ text.toList ∈ Numeral.integer.matches' →
      (tokenize text log).2 = log) ∧
    ∀ c rest, text.toList = c :: rest → beginsNumber c rest = true →
      (∀ d ∈ rest, isTerminator d = false) →
      text.toList ∉ Numeral.float.matches' → text.toList ∉ Numeral.integer.matches' →
        saying (tokenize text log).1 = [(.error, text), (.endOfFile, "")] ∧
          ∃ report, (tokenize text log).2 = log ++ [report] ∧ report.severity = .error ∧
            report.span.start = Location.origin ∧ report.span.stop.index = text.length := by
  refine ⟨?_, ?_, ?_, ?_⟩
  · rw [saying_numeral_iff rfl, Numeral.of_float_iff]
  · rw [saying_numeral_iff rfl, Numeral.of_integer_iff]
  · rintro (float | integer)
    · exact (tokenize_of_numeral (.float float) log).2
    · exact (tokenize_of_numeral (.integer integer) log).2
  · intro c rest split begins inside noFloat noInteger
    refine tokenize_of_glued split begins inside (fun kind numeral => ?_) log
    cases numeral with
    | float numeral => exact noFloat numeral
    | integer numeral => exact noInteger numeral

theorem number_texts_exponent :
    saying (tokenize "-1.5e-3" []).1 = [(.float, "-1.5e-3"), (.endOfFile, "")] ∧
      (tokenize "-1.5e-3" []).2 = [] ∧
      saying (tokenize "-12e" []).1 = [(.error, "-12e"), (.endOfFile, "")] ∧
      (tokenize "-12e" []).2.length = 1 := by
  have float : "-1.5e-3".toList ∈ Numeral.float.matches' := by decide +kernel
  have noFloat : "-12e".toList ∉ Numeral.float.matches' := by decide +kernel
  have noInteger : "-12e".toList ∉ Numeral.integer.matches' := by decide +kernel
  have solid : "12e".toList.all (!isTerminator ·) = true := by decide
  have inside : ∀ d ∈ "12e".toList, isTerminator d = false := by
    simpa only [List.all_eq_true, Bool.not_eq_true'] using solid
  obtain ⟨floats, -, silent, -⟩ := number_texts "-1.5e-3" []
  obtain ⟨failed, report, found, -⟩ :=
    (number_texts "-12e" []).2.2.2 '-' "12e".toList rfl rfl inside noFloat noInteger
  exact ⟨floats.mpr float, silent (.inl float), failed, by rw [found]; rfl⟩

end Texts

/-- A point or an exponent, its minus sign with it, that has no digit behind it. -/
inductive Dangles : List Char → Prop
  | behindPoint {whole rest : List Char} (front : whole ∈ (Numeral.sign * Numeral.digits).matches')
      (none : Lacks isDigit rest) : Dangles (whole ++ '.' :: rest)
  | behindMark {mantissa rest : List Char} (front : mantissa ∈ Numeral.mantissa.matches')
      (none : Lacks isDigit rest) (unsigned : Lacks (· == '-') rest) :
      Dangles (mantissa ++ 'e' :: rest)
  | behindMinus {mantissa rest : List Char} (front : mantissa ∈ Numeral.mantissa.matches')
      (none : Lacks isDigit rest) : Dangles (mantissa ++ 'e' :: '-' :: rest)

section Digits

variable {taken rest text word : List Char} {kind : Kind}

theorem fraction_of_lacks (none : Lacks isDigit rest) (taken : List Char) :
    fraction taken rest = malformed (fun _ => .missingDigits '.') taken rest := by
  rw [fraction, takeWhile_of_lacks none]
  rfl

theorem exponentDigits_of_lacks (none : Lacks isDigit rest) (mark : Char) (taken : List Char) :
    exponentDigits mark taken rest = malformed (fun _ => .missingDigits mark) taken rest := by
  rw [exponentDigits, takeWhile_of_lacks none]
  rfl

theorem Dangles.failed (dangles : Dangles text) : (number text).kind = .error := by
  cases dangles with
  | behindPoint front none =>
      rw [number_of_whole front ((lacks_cons ..).mpr rfl), numberTail, fraction_of_lacks none]
      rfl
  | behindMark front none unsigned =>
      rw [number_of_mantissa front, exponent_mark unsigned, exponentDigits_of_lacks none]
      rfl
  | behindMinus front none =>
      rw [number_of_mantissa front, exponent, exponentDigits_of_lacks none]
      rfl

theorem Dangles.begins (dangles : Dangles text) : BeginsNumber text := by
  have mantissa : ∀ front ∈ Numeral.mantissa.matches', ∀ more, BeginsNumber (front ++ more) := by
    intro front numeral more
    obtain ⟨whole, first, point, -, rfl⟩ := Numeral.mem_mul_iff.mp numeral
    rw [List.append_assoc]
    exact Numeral.begins_of_whole first _
  cases dangles with
  | behindPoint front => exact Numeral.begins_of_whole front _
  | behindMark front => exact mantissa _ front _
  | behindMinus front => exact mantissa _ front _

theorem Numeral.mem_number_of_float (numeral : word ∈ float.matches') : word ∈ number.matches' := by
  obtain ⟨whole, front, tail, behind, rfl⟩ := mem_mul_iff.mp numeral
  refine mem_add_iff.mpr (.inl (append_mem front ?_))
  rcases mem_add_iff.mp behind with point | both
  · exact mem_mul_iff.mpr
      ⟨tail, mem_maybe_iff.mpr (.inr point), [], mem_maybe_iff.mpr (.inl rfl), List.append_nil tail⟩
  · obtain ⟨point, first, mark, second, rfl⟩ := mem_mul_iff.mp both
    exact append_mem first (mem_maybe_iff.mpr (.inr second))

theorem Numeral.mem_number_or_bare (numeral : word ∈ integer.matches') :
    word ∈ number.matches' ∨ word ∈ (sign * radix).matches' := by
  have none : [] ∈ (maybe fraction * maybe exponent).matches' :=
    mem_mul_iff.mpr ⟨[], mem_maybe_iff.mpr (.inl rfl), [], mem_maybe_iff.mpr (.inl rfl), rfl⟩
  rcases mem_add_iff.mp numeral with decimal | hexadecimal
  · have whole := append_mem decimal none
    rw [List.append_nil] at whole
    exact .inl (mem_add_iff.mpr (.inl whole))
  · obtain ⟨front, first, run, digits, rfl⟩ := mem_mul_iff.mp hexadecimal
    cases run with
    | nil =>
        rw [List.append_nil]
        exact .inr first
    | cons c cs =>
        refine .inl (mem_add_iff.mpr (.inr (append_mem first ?_)))
        exact mem_oneOf_some_iff.mpr ⟨List.cons_ne_nil c cs, mem_oneOf_star_iff.mp digits⟩

theorem Numeral.not_mem_number_of_bare (bare : word ∈ (sign * radix).matches') :
    word ∉ number.matches' := by
  rcases mem_radix_iff.mp bare with rfl | rfl
  · decide +kernel
  · decide +kernel

theorem Numeral.mem_number_iff (numeral : Of kind word) :
    word ∈ number.matches' ↔ word ∉ (sign * radix).matches' := by
  refine ⟨fun number bare => not_mem_number_of_bare bare number, fun other => ?_⟩
  cases numeral with
  | float numeral => exact mem_number_of_float numeral
  | integer numeral => exact (mem_number_or_bare numeral).resolve_right other

end Digits

section Tokens

variable {text : String} {token : Token}

theorem numeral_of_isNumber (member : token ∈ tokens text) (number : isNumber token.kind = true) :
    Numeral.Of token.kind token.value.toList := by
  rcases exists_cutAt member with ⟨lineStart, c, rest, cut⟩ | ⟨finish, -⟩
  · have forms : NumberForms (c :: rest) (scan lineStart c rest) := by
      rw [cut.kind_eq] at number
      exact scan_forms (beginsNumber_of_isNumber number)
    have value : token.value.toList = (scan lineStart c rest).taken := by
      rw [cut.same, Cut.token, String.toList_ofList, forms.value_eq]
    rw [cut.kind_eq] at number ⊢
    rw [value]
    rcases forms.numeral_or_error with found | failed
    · exact found.1
    · rw [failed.1] at number
      cases number
  · rw [finish] at number
    cases number

theorem kind_of_begins (member : token ∈ tokens text)
    (begins : BeginsNumber (text.toList.drop token.span.start.index)) :
    token.kind = (number (text.toList.drop token.span.start.index)).kind := by
  obtain ⟨c, rest, split, begins⟩ := begins
  rcases exists_cutAt member with ⟨lineStart, d, others, cut⟩ | ⟨-, none⟩
  · obtain ⟨rfl, rfl⟩ := List.cons.inj (cut.stands.symm.trans split)
    rw [cut.kind_eq, scan_of_beginsNumber begins, split]
  · cases none.symm.trans split

theorem failed_of_dangles (member : token ∈ tokens text)
    (dangles : Dangles (text.toList.drop token.span.start.index)) : token.kind = .error :=
  (kind_of_begins member dangles.begins).trans dangles.failed

theorem kind_of_bare (member : token ∈ tokens text) {front rest : List Char}
    (bare : front ∈ (Numeral.sign * Numeral.radix).matches') (none : Lacks isHexDigit rest)
    (split : text.toList.drop token.span.start.index = front ++ rest) :
    token.kind = if endsBefore rest then .integer else .error := by
  have begins := Numeral.begins_of_radix bare rest
  rw [← split] at begins
  rw [kind_of_begins member begins, split, number_of_radix bare, takeWhile_of_lacks none,
    dropWhile_of_lacks none, List.append_nil, delimited]
  split <;> rfl

/-- A number has digits wherever digits are called for, with one exception: none need stand behind a
radix prefix. A point, an exponent mark or its sign without digits is always an error. -/
theorem number_tokens (member : token ∈ tokens text) :
    (token.kind = .integer ∨ token.kind = .float →
      (token.value.toList ∈ Numeral.number.matches' ↔
        token.value ≠ "0x" ∧ token.value ≠ "-0x")) ∧
    (Dangles (text.toList.drop token.span.start.index) → token.kind = .error) ∧
    ∀ front rest, front ∈ (Numeral.sign * Numeral.radix).matches' → Lacks isHexDigit rest →
      text.toList.drop token.span.start.index = front ++ rest →
        token.kind = if endsBefore rest then .integer else .error := by
  refine ⟨fun kinds => ?_, failed_of_dangles member, fun front rest => kind_of_bare member⟩
  have number : isNumber token.kind = true := by
    rcases kinds with kind | kind
    · rw [kind]
      rfl
    · rw [kind]
      rfl
  rw [Numeral.mem_number_iff (numeral_of_isNumber member number), Numeral.mem_radix_iff, not_or]
  have unsigned : token.value = "0x" ↔ token.value.toList = ['0', 'x'] :=
    String.toList_inj.symm
  have signed : token.value = "-0x" ↔ token.value.toList = ['-', '0', 'x'] :=
    String.toList_inj.symm
  rw [ne_eq, ne_eq, unsigned, signed]

/-- A bare prefix is a number token, and no number. -/
theorem number_tokens_bare :
    (∃ token ∈ tokens "Text 0x", token.kind = .integer ∧
      token.value.toList ∉ Numeral.number.matches') ∧
    ∃ token ∈ tokens "1.e5", token.kind = .error ∧ token.value = "1.e5" := by
  have bare : (⟨.integer, "0x", ⟨⟨5, 1, 5⟩, ⟨7, 1, 7⟩⟩⟩ : Token) ∈ tokens "Text 0x" := by
    decide +kernel
  have point : (⟨.error, "1.e5", ⟨⟨0, 1, 0⟩, ⟨4, 1, 4⟩⟩⟩ : Token) ∈ tokens "1.e5" := by
    decide +kernel
  obtain ⟨digits, -, radix⟩ := number_tokens bare
  have dangles : Dangles "1.e5".toList :=
    .behindPoint (Numeral.mem_whole_iff.mpr ⟨['1'], by decide +kernel, .inl rfl⟩) (by decide)
  refine ⟨⟨_, bare, ?_, fun number => ?_⟩, _, point, (number_tokens point).2.1 dangles, rfl⟩
  · exact radix ['0', 'x'] [] (Numeral.mem_radix_iff.mpr (.inl rfl)) rfl rfl
  · exact ((digits (.inl rfl)).mp number).1 rfl

end Tokens

end WidgetTree.Lexeme
