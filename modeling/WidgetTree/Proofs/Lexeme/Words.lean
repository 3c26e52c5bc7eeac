import Mathlib.Data.List.TakeWhile
import WidgetTree.Lexeme.Taken

/-!
Numbers and names, well formed or not. Main statements: `number_settles` and `word_settles`, a
scanner of words takes a run without line breaks, and takes the same run, with the same outcome,
wherever that run is followed by a closing character or by nothing.
-/

namespace WidgetTree.Lexeme

open Text (isAlphabetic)

def isClosing (c : Char) : Bool := isNewLine c || c = ' ' || c = ':' || c = ','

def Closes (follow : List Char) : Prop := follow.head?.all isClosing = true

theorem closed_of {p : Char → Bool} (ends : ['\r', '\n', ' ', ':', ','].all (!p ·) = true) :
    ∀ c, isClosing c = true → p c = false := by
  intro c closing
  have listed : c ∈ ['\r', '\n', ' ', ':', ','] := by
    simpa [isClosing, isNewLine, or_assoc] using closing
  simpa using List.all_eq_true.mp ends c listed

def Unbroken (chars : List Char) : Prop := chars.all (!isNewLine ·) = true

instance (chars : List Char) : Decidable (Unbroken chars) :=
  inferInstanceAs (Decidable (_ = true))

theorem Unbroken.isNewLine_eq_false {chars : List Char} (unbroken : Unbroken chars) {c : Char}
    (member : c ∈ chars) : isNewLine c = false := by
  simpa using List.all_eq_true.mp unbroken c member

theorem unbroken_of {p : Char → Bool} (ends : ['\r', '\n'].all (!p ·) = true) :
    ∀ c, p c = true → isNewLine c = false := by
  intro c holds
  cases newLine : isNewLine c with
  | false => rfl
  | true =>
      have listed : c ∈ ['\r', '\n'] := by simpa [isNewLine] using newLine
      have absent := List.all_eq_true.mp ends c listed
      simp [holds] at absent

def isWordKind : Kind → Bool
  | .integer | .float | .boolean | .identifier | .widget => true
  | _ => false

inductive Worded (taken : List Char) : Cut → Prop
  | sound {kind : Kind} (word : isWordKind kind = true) : Worded taken (plain kind taken)
  | faulty {fault : Fault} (serious : fault.severity.isError = true) :
      Worded taken ⟨.error, taken, taken, some fault⟩

theorem Worded.taken_eq {taken : List Char} {cut : Cut} (worded : Worded taken cut) :
    cut.taken = taken := by
  cases worded <;> rfl

theorem Worded.eq_plain {taken : List Char} {cut : Cut} (worded : Worded taken cut)
    (word : isWordKind cut.kind = true) : cut = plain cut.kind taken := by
  cases worded with
  | sound => rfl
  | faulty => cases word

theorem category_of_isWordKind {kind : Kind} (word : isWordKind kind = true) :
    kind.category = .constant ∨ kind.category = .identifier := by
  cases kind
  case integer | float | boolean => exact .inl rfl
  case identifier | widget => exact .inr rfl
  all_goals cases word

/-- Behind `taken` the scanner takes `more` of `rest`, whatever closing text follows it. -/
structure Settles (scanner : List Char → Cut) (taken rest more : List Char) : Prop where
  front : more <+: rest
  unbroken : ∀ c ∈ more, isNewLine c = false
  again : ∀ follow, Closes follow → scanner (more ++ follow) = scanner rest
  worded : Worded (taken ++ more) (scanner rest)

def Lacks (p : Char → Bool) (text : List Char) : Prop := text.head?.all (!p ·) = true

instance (p : Char → Bool) (text : List Char) : Decidable (Lacks p text) :=
  inferInstanceAs (Decidable (_ = true))

section Heads

variable {p : Char → Bool} {more rest follow : List Char}

@[simp] theorem lacks_nil (p : Char → Bool) : Lacks p [] := rfl

@[simp] theorem lacks_cons (p : Char → Bool) (c : Char) (rest : List Char) :
    Lacks p (c :: rest) ↔ p c = false := by
  simp [Lacks]

theorem exists_of_not_lacks {c : Char} (begins : ¬ Lacks (· == c) rest) :
    ∃ others, rest = c :: others := by
  cases rest with
  | nil => exact absurd rfl begins
  | cons first others => exact ⟨others, by simpa using begins⟩

theorem lacks_closed (closes : Closes follow) (open? : ∀ c, isClosing c = true → p c = false)
    (front : more <+: rest) (lacks : Lacks p rest) : Lacks p (more ++ follow) := by
  cases more with
  | nil =>
      cases follow with
      | nil => rfl
      | cons c follow => simpa using open? c (by simpa [Closes] using closes)
  | cons c more =>
      rcases front with ⟨others, rfl⟩
      simpa using lacks

theorem takeWhile_of_lacks (lacks : Lacks p rest) : rest.takeWhile p = [] := by
  cases rest with
  | nil => rfl
  | cons c rest => exact List.takeWhile_cons_of_neg (by simpa using lacks)

theorem dropWhile_of_lacks (lacks : Lacks p rest) : rest.dropWhile p = rest := by
  cases rest with
  | nil => rfl
  | cons c rest => exact List.dropWhile_cons_of_neg (by simpa using lacks)

theorem lacks_of_takeWhile (none : (rest.takeWhile p).isEmpty = true) : Lacks p rest := by
  cases rest with
  | nil => rfl
  | cons c rest =>
      rw [lacks_cons]
      cases first : p c with
      | false => rfl
      | true => simp [List.takeWhile_cons_of_pos first] at none

theorem lacks_dropWhile (p : Char → Bool) (rest : List Char) : Lacks p (rest.dropWhile p) := by
  have stopped := List.head?_dropWhile_not p rest
  rw [Lacks]
  cases found : (rest.dropWhile p).head? with
  | none => rfl
  | some c => simpa [found] using stopped

theorem run_closed (p : Char → Bool) (closes : Closes follow)
    (open? : ∀ c, isClosing c = true → p c = false) (front : more <+: rest.dropWhile p) :
    ((rest.takeWhile p ++ more) ++ follow).takeWhile p = rest.takeWhile p ∧
      ((rest.takeWhile p ++ more) ++ follow).dropWhile p = more ++ follow := by
  have lacks := lacks_closed closes open? front (lacks_dropWhile p rest)
  have run : ∀ c ∈ rest.takeWhile p, p c = true := fun c => List.mem_takeWhile_imp
  rw [List.append_assoc]
  constructor
  · rw [List.takeWhile_append_of_pos run, takeWhile_of_lacks lacks, List.append_nil]
  · rw [List.dropWhile_append_of_pos run, dropWhile_of_lacks lacks]

end Heads

namespace Settles

variable {scanner scanner' : List Char → Cut} {taken rest more : List Char}

theorem extend {passed : List Char} (settles : Settles scanner (taken ++ passed) rest more)
    (unbroken : Unbroken passed)
    (here : scanner' (passed ++ rest) = scanner rest)
    (again : ∀ follow, Closes follow →
      scanner' ((passed ++ more) ++ follow) = scanner (more ++ follow)) :
    Settles scanner' taken (passed ++ rest) (passed ++ more) where
  front := (List.prefix_append_right_inj passed).mpr settles.front
  unbroken c member :=
    (List.mem_append.mp member).elim unbroken.isNewLine_eq_false (settles.unbroken c)
  again follow closes := by rw [again follow closes, settles.again follow closes, here]
  worded := by
    rw [here, ← List.append_assoc]
    exact settles.worded

theorem alone (settles : Settles scanner taken rest more) : scanner more = scanner rest := by
  have again := settles.again [] rfl
  rwa [List.append_nil] at again

theorem congr (settles : Settles scanner taken rest more) (here : scanner' rest = scanner rest)
    (again : ∀ follow, Closes follow → scanner' (more ++ follow) = scanner (more ++ follow)) :
    Settles scanner' taken rest more where
  front := settles.front
  unbroken := settles.unbroken
  again follow closes := by rw [again follow closes, settles.again follow closes, here]
  worded := here ▸ settles.worded

theorem extendWhile {p : Char → Bool} (open? : ∀ c, isClosing c = true → p c = false)
    (clean : ∀ c, p c = true → isNewLine c = false)
    (settles : Settles scanner (taken ++ rest.takeWhile p) (rest.dropWhile p) more)
    (steps : ∀ text, text.takeWhile p = rest.takeWhile p →
      scanner' text = scanner (text.dropWhile p)) :
    Settles scanner' taken rest (rest.takeWhile p ++ more) := by
  have extended : Settles scanner' taken (rest.takeWhile p ++ rest.dropWhile p)
      (rest.takeWhile p ++ more) := by
    have solid : Unbroken (rest.takeWhile p) :=
      List.all_eq_true.mpr fun c member => by simp [clean c (List.mem_takeWhile_imp member)]
    refine settles.extend solid ?_ ?_
    · rw [List.takeWhile_append_dropWhile]
      exact steps rest rfl
    · intro follow closes
      obtain ⟨same, others⟩ := run_closed p closes open? settles.front
      rw [steps _ same, others]
  rwa [List.takeWhile_append_dropWhile] at extended

end Settles

section Endings

variable {taken rest : List Char}

def wordRest (rest : List Char) : List Char := rest.takeWhile (!isTerminator ·)

theorem wordRest_closed {follow : List Char} (closes : Closes follow) (rest : List Char) :
    wordRest (wordRest rest ++ follow) = wordRest rest := by
  have closed := (run_closed (!isTerminator ·) closes (closed_of (by decide))
    (List.nil_prefix : [] <+: rest.dropWhile (!isTerminator ·))).1
  rwa [List.append_nil] at closed

theorem malformed_settles (fault : String → Fault)
    (serious : ∀ word, (fault word).severity.isError = true) :
    Settles (malformed fault taken) taken rest (wordRest rest) where
  front := List.takeWhile_prefix _
  unbroken c member := by
    have inside : isTerminator c = false := by simpa using List.mem_takeWhile_imp member
    simp only [isTerminator, Bool.or_eq_false_iff] at inside
    exact inside.1.2
  again follow closes := by
    have same := wordRest_closed closes rest
    rw [wordRest] at same
    rw [malformed, same]
    rfl
  worded := .faulty (serious _)

theorem endsBefore_eq (rest : List Char) : endsBefore rest = rest.head?.all isTerminator := by
  cases rest <;> rfl

theorem endsBefore_of_closes {follow : List Char} (closes : Closes follow) :
    endsBefore follow = true := by
  cases follow with
  | nil => rfl
  | cons c follow =>
      have stops : ∀ c, isClosing c = true → (!isTerminator c) = false := closed_of (by decide)
      simpa [endsBefore] using stops c (by simpa [Closes] using closes)

theorem wordRest_of_endsBefore (ends : endsBefore rest = true) : wordRest rest = [] :=
  takeWhile_of_lacks (by simpa [Lacks, endsBefore_eq] using ends)

theorem wordRest_cons {c : Char} (inside : isTerminator c = false) :
    wordRest (c :: rest) = c :: wordRest rest :=
  List.takeWhile_cons_of_pos (by simp [inside])

theorem delimited_settles {kind : Kind} (word : isWordKind kind = true) (taken rest : List Char) :
    Settles (delimited kind taken) taken rest (wordRest rest) := by
  cases ends : endsBefore rest with
  | true =>
      rw [wordRest_of_endsBefore ends]
      refine ⟨List.nil_prefix, by simp, fun follow closes => ?_, ?_⟩
      · rw [delimited, delimited, if_pos ends, List.nil_append,
          if_pos (endsBefore_of_closes closes)]
      · rw [delimited, if_pos ends, List.append_nil]
        exact .sound word
  | false =>
      refine (malformed_settles .unexpectedToken fun _ => rfl).congr ?_ fun follow closes => ?_
      · rw [delimited, ends]
        rfl
      · cases rest with
        | nil => cases ends
        | cons c others =>
            rw [wordRest_cons ends, delimited, List.cons_append, endsBefore,
              show isTerminator c = false from ends]
            rfl

theorem floatEnd_settles : Settles (floatEnd taken) taken rest (wordRest rest) := by
  cases ends : endsBefore rest with
  | true =>
      have stops : ∀ text, endsBefore text = true → floatEnd taken text = plain .float taken := by
        intro text ends
        cases text with
        | nil => rfl
        | cons c text => rw [floatEnd, if_pos (show isTerminator c = true from ends)]
      rw [wordRest_of_endsBefore ends]
      refine ⟨List.nil_prefix, by simp, fun follow closes => ?_, ?_⟩
      · rw [List.nil_append, stops rest ends, stops follow (endsBefore_of_closes closes)]
      · rw [stops rest ends, List.append_nil]
        exact .sound rfl
  | false =>
      cases rest with
      | nil => cases ends
      | cons c others =>
          have inside : isTerminator c = false := ends
          obtain ⟨fault, serious, goes⟩ : ∃ fault : String → Fault,
              (∀ word, (fault word).severity.isError = true) ∧
                ∀ text, floatEnd taken (c :: text) = malformed fault taken (c :: text) := by
            by_cases letter : isAlphabetic c = true
            · exact ⟨.invalidFloat, fun _ => rfl, fun text => by
                rw [floatEnd, if_neg (by simp [inside]), if_pos letter]⟩
            · exact ⟨.unexpectedToken, fun _ => rfl, fun text => by
                rw [floatEnd, if_neg (by simp [inside]), if_neg letter]⟩
          refine (malformed_settles fault serious).congr (goes others) fun follow closes => ?_
          rw [wordRest_cons inside]
          exact goes _

end Endings

section Numbers

variable {taken rest : List Char}

theorem isDigit_closed : ∀ c, isClosing c = true → isDigit c = false := closed_of (by decide)

theorem isDigit_unbroken : ∀ c, isDigit c = true → isNewLine c = false := unbroken_of (by decide)

theorem digits_settle (fault : String → Fault) {next : List Char → List Char → Cut}
    {scanner : List Char → Cut} (serious : ∀ word, (fault word).severity.isError = true)
    (missing : ∀ text, (text.takeWhile isDigit).isEmpty = true →
      scanner text = malformed fault taken text)
    (found : ∀ text, (text.takeWhile isDigit).isEmpty = false →
      scanner text = next (taken ++ text.takeWhile isDigit) (text.dropWhile isDigit))
    (settles : ∀ taken rest, ∃ more, Settles (next taken) taken rest more) :
    ∃ more, Settles scanner taken rest more := by
  cases digits : (rest.takeWhile isDigit).isEmpty with
  | true =>
      refine ⟨_, (malformed_settles fault serious).congr (missing rest digits) ?_⟩
      intro follow closes
      apply missing
      have front : wordRest rest <+: rest := List.takeWhile_prefix _
      rw [takeWhile_of_lacks (lacks_closed closes isDigit_closed front (lacks_of_takeWhile digits))]
      rfl
  | false =>
      obtain ⟨more, settled⟩ := settles (taken ++ rest.takeWhile isDigit) (rest.dropWhile isDigit)
      refine ⟨_, settled.extendWhile isDigit_closed isDigit_unbroken fun text same => ?_⟩
      rw [found text (by rw [same, digits]), same]

theorem exponentDigits_settles (sign : Char) (taken rest : List Char) :
    ∃ more, Settles (exponentDigits sign taken) taken rest more := by
  refine digits_settle (fun _ => .missingDigits sign) (fun _ => rfl) (fun text none => ?_)
    (fun text some => ?_) fun taken rest => ⟨_, floatEnd_settles⟩
  · rw [exponentDigits, if_pos none]
  · rw [exponentDigits, if_neg (by simp [some])]

theorem exponent_mark {text : List Char} (unsigned : Lacks (· == '-') text) :
    exponent taken ('e' :: text) = exponentDigits 'e' (taken ++ ['e']) text := by
  cases text with
  | nil => rfl
  | cons c text =>
      rw [lacks_cons, beq_eq_false_iff_ne] at unsigned
      rw [exponent.eq_def]
      split
      · next same => exact absurd (List.cons.inj (List.cons.inj same).2).1 unsigned
      · next same => cases same; rfl
      · next other => exact absurd rfl (other _)

theorem exponent_none {text : List Char} (unmarked : Lacks (· == 'e') text) :
    exponent taken text = floatEnd taken text := by
  cases text with
  | nil => rfl
  | cons c text =>
      rw [lacks_cons, beq_eq_false_iff_ne] at unmarked
      rw [exponent.eq_def]
      split
      · next same => exact absurd (List.cons.inj same).1 unmarked
      · next same => exact absurd (List.cons.inj same).1 unmarked
      · rfl

theorem exponent_mark_settles (taken rest : List Char) :
    ∃ more, Settles (exponent taken) taken ('e' :: rest) ('e' :: more) := by
  by_cases sign : Lacks (· == '-') rest
  · obtain ⟨more, settled⟩ := exponentDigits_settles 'e' (taken ++ ['e']) rest
    refine ⟨more, settled.extend (by decide : Unbroken ['e'])
      (exponent_mark sign) fun follow closes => ?_⟩
    exact exponent_mark (lacks_closed closes (closed_of (by decide)) settled.front sign)
  · obtain ⟨others, rfl⟩ := exists_of_not_lacks sign
    obtain ⟨more, settled⟩ := exponentDigits_settles '-' (taken ++ ['e', '-']) others
    exact ⟨'-' :: more, settled.extend (by decide : Unbroken ['e', '-']) rfl
      fun _ _ => rfl⟩

theorem exponent_settles (taken rest : List Char) :
    ∃ more, Settles (exponent taken) taken rest more := by
  by_cases mark : Lacks (· == 'e') rest
  · refine ⟨_, floatEnd_settles.congr (exponent_none mark) fun follow closes => ?_⟩
    have front : wordRest rest <+: rest := List.takeWhile_prefix _
    exact exponent_none (lacks_closed closes (closed_of (by decide)) front mark)
  · obtain ⟨others, rfl⟩ := exists_of_not_lacks mark
    obtain ⟨more, settled⟩ := exponent_mark_settles taken others
    exact ⟨_, settled⟩

theorem fraction_settles (taken rest : List Char) :
    ∃ more, Settles (fraction taken) taken rest more := by
  refine digits_settle (fun _ => .missingDigits '.') (fun _ => rfl) (fun text none => ?_)
    (fun text some => ?_) exponent_settles
  · rw [fraction, if_pos none]
  · rw [fraction, if_neg (by simp [some])]

def isNumberMark (c : Char) : Bool := c == '.' || c == 'e' || c == 'x'

theorem numberTail_other {text : List Char} (unmarked : Lacks isNumberMark text) :
    numberTail taken text = delimited .integer taken text := by
  cases text with
  | nil => rfl
  | cons c text =>
      simp only [lacks_cons, isNumberMark, Bool.or_eq_false_iff, beq_eq_false_iff_ne] at unmarked
      rw [numberTail.eq_def]
      split
      · next same => exact absurd (List.cons.inj same).1 unmarked.1.1
      · next same => exact absurd (List.cons.inj same).1 unmarked.1.2
      · next same => exact absurd (List.cons.inj same).1 unmarked.2
      · rfl

theorem hexadecimal_settles (zero : taken = ['0'] ∨ taken = ['-', '0']) (hex : List Char) :
    ∃ more, Settles (numberTail taken) taken ('x' :: hex) more := by
  have steps : ∀ text, numberTail taken ('x' :: text) =
      delimited .integer ((taken ++ ['x']) ++ text.takeWhile isHexDigit)
        (text.dropWhile isHexDigit) := by
    intro text
    rw [numberTail, if_pos (by simpa using zero), List.append_assoc]
    rfl
  have ending := delimited_settles (rfl : isWordKind .integer = true)
    ((taken ++ ['x']) ++ hex.takeWhile isHexDigit) (hex.dropWhile isHexDigit)
  have digits : Settles (fun text => numberTail taken ('x' :: text)) (taken ++ ['x']) hex _ :=
    ending.extendWhile (closed_of (by decide)) (unbroken_of (by decide)) fun text same => by
      rw [steps text, same]
  exact ⟨_, digits.extend (by decide : Unbroken ['x']) rfl fun _ _ => rfl⟩

theorem numberTail_settles (taken rest : List Char) :
    ∃ more, Settles (numberTail taken) taken rest more := by
  by_cases unmarked : Lacks isNumberMark rest
  · have here : numberTail taken rest = delimited .integer taken rest := numberTail_other unmarked
    refine ⟨_, (delimited_settles rfl taken _).congr here fun follow closes => ?_⟩
    have front : wordRest rest <+: rest := List.takeWhile_prefix _
    exact numberTail_other (lacks_closed closes (closed_of (by decide)) front unmarked)
  · cases rest with
    | nil => exact absurd rfl unmarked
    | cons c others =>
        simp only [lacks_cons, Bool.not_eq_false, isNumberMark, Bool.or_eq_true, beq_iff_eq]
          at unmarked
        rcases unmarked with (rfl | rfl) | rfl
        · obtain ⟨more, settled⟩ := fraction_settles (taken ++ ['.']) others
          have unbroken : Unbroken ['.'] := by decide
          exact ⟨_, settled.extend unbroken rfl fun _ _ => rfl⟩
        · obtain ⟨more, settled⟩ := exponent_mark_settles taken others
          exact ⟨_, settled.congr rfl fun _ _ => rfl⟩
        · by_cases zero : taken = ['0'] ∨ taken = ['-', '0']
          · exact hexadecimal_settles zero others
          · have goes : ∀ text, numberTail taken ('x' :: text) =
                delimited .integer taken ('x' :: text) := by
              intro text
              rw [numberTail, if_neg (by simpa using zero)]
            refine ⟨_, (delimited_settles rfl taken _).congr (goes others) fun follow closes => ?_⟩
            rw [wordRest_cons (by decide)]
            exact goes _

theorem number_cons {c : Char} (begins : c = '-' ∨ isDigit c = true) (text : List Char) :
    number (c :: text) = numberTail (c :: text.takeWhile isDigit) (text.dropWhile isDigit) := by
  rw [number.eq_def]
  split
  · next same =>
      obtain ⟨rfl, rfl⟩ := List.cons.inj same
      rfl
  · next unsigned =>
      have digit : isDigit c = true := begins.resolve_left fun same => unsigned text (by rw [same])
      rw [List.takeWhile_cons_of_pos digit, List.dropWhile_cons_of_pos digit]

theorem number_settles {c : Char} (begins : c = '-' ∨ isDigit c = true) (rest : List Char) :
    ∃ more, Settles (fun text => number (c :: text)) [c] rest
      (rest.takeWhile isDigit ++ more) := by
  obtain ⟨more, settled⟩ :=
    numberTail_settles (c :: rest.takeWhile isDigit) (rest.dropWhile isDigit)
  refine ⟨more, Settles.extendWhile isDigit_closed isDigit_unbroken settled fun text same => ?_⟩
  rw [number_cons begins, same]

end Numbers

theorem isWordChar_unbroken : ∀ c, isWordChar c = true → isNewLine c = false :=
  unbroken_of (by decide)

theorem nameKind_isWordKind (name : String) : isWordKind (nameKind name) = true := by
  unfold nameKind
  split
  · rfl
  · split <;> rfl

theorem word_cons {c : Char} (begins : isWordChar c = true) (text : List Char) :
    word (c :: text) = delimited (nameKind (String.ofList (c :: text.takeWhile isWordChar)))
      (c :: text.takeWhile isWordChar) (text.dropWhile isWordChar) := by
  rw [word, List.takeWhile_cons_of_pos begins, List.dropWhile_cons_of_pos begins]

theorem word_settles {c : Char} (begins : isWordChar c = true) (rest : List Char) :
    ∃ more, Settles (fun text => word (c :: text)) [c] rest more := by
  have settled := delimited_settles
    (nameKind_isWordKind (String.ofList (c :: rest.takeWhile isWordChar)))
    (c :: rest.takeWhile isWordChar) (rest.dropWhile isWordChar)
  refine ⟨_, Settles.extendWhile (closed_of (by decide)) isWordChar_unbroken settled ?_⟩
  intro text same
  rw [word_cons begins, same]

end WidgetTree.Lexeme
