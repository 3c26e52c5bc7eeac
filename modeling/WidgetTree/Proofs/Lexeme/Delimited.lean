import WidgetTree.Proofs.Lexeme.Numeral
import WidgetTree.Proofs.Lexeme.Tiling

/-!
Where literals and names end. Main statements: `scan_ends`, the cut of a number or a name, well
formed or not, goes up to the end or to a character that may stand behind it, and
`values_delimited`, of all tokens that stand for a value only a string can run into the next one.
-/

namespace WidgetTree.Text

theorem Ranges.exists_of_contains {ranges : Ranges} {n : Nat} (inside : ranges.contains n = true) :
    ∃ range ∈ ranges, range.1 ≤ n ∧ n ≤ range.2 := by
  induction ranges with
  | nil => cases inside
  | cons range ranges ih =>
      simp only [Ranges.contains, Bool.and_eq_true, Bool.not_eq_true', Bool.or_eq_true,
        decide_eq_true_eq, decide_eq_false_iff_not, Nat.not_lt] at inside
      obtain ⟨least, most | later⟩ := inside
      · exact ⟨range, List.mem_cons_self, least, most⟩
      · obtain ⟨found, listed, bounds⟩ := ih later
        exact ⟨found, List.mem_cons_of_mem range listed, bounds⟩

theorem of_isBlank {p : Char → Prop} [DecidablePred p] {c : Char}
    (each : ∀ range ∈ blank, ∀ n ∈ List.range' range.1 (range.2 + 1 - range.1), p (Char.ofNat n))
    (blank : isBlank c = true) : p c := by
  obtain ⟨range, listed, least, most⟩ := Ranges.exists_of_contains blank
  have inside : c.toNat ∈ List.range' range.1 (range.2 + 1 - range.1) := by
    rw [List.mem_range'_1]
    omega
  simpa using each range listed c.toNat inside

end WidgetTree.Text

namespace WidgetTree.Lexeme

open Text (Location isAlphabetic isBlank)

def IsValue (kind : Kind) : Prop := kind.category = .constant ∨ kind.category = .identifier

instance : DecidablePred IsValue := fun kind =>
  inferInstanceAs (Decidable (kind.category = .constant ∨ kind.category = .identifier))

def beginsWord (c : Char) (rest : List Char) : Bool :=
  beginsNumber c rest || isAlphabetic c || c = '_'

section Characters

variable {c : Char} {rest : List Char}

theorem full_of_beginsWord (begins : beginsWord c rest = true) : isBlank c = false := by
  cases blank : isBlank c with
  | false => rfl
  | true =>
      have free := Text.of_isBlank
        (p := fun c => (isDigit c || c = '-' || isAlphabetic c || c = '_') = false)
        (by decide +kernel) blank
      simp only [Bool.or_eq_false_iff, decide_eq_false_iff_not] at free
      obtain ⟨⟨⟨noDigit, noMinus⟩, noLetter⟩, noLine⟩ := free
      simp [beginsWord, beginsNumber, noDigit, noMinus, noLetter, noLine] at begins

theorem solid_of_full (full : isBlank c = false) : isNewLine c = false := by
  cases breaks : isNewLine c with
  | false => rfl
  | true =>
      simp only [isNewLine, Bool.or_eq_true, decide_eq_true_eq] at breaks
      rcases breaks with rfl | rfl
      · cases full
      · cases full

theorem full_of_not_isTerminator (inside : isTerminator c = false) : isBlank c = false := by
  simp only [isTerminator, isSpace, Bool.or_eq_false_iff] at inside
  simpa [inside.1.2] using inside.1.1

theorem mark?_of_not_isTerminator (inside : isTerminator c = false) : mark? c = none := by
  cases marks : mark? c with
  | none => rfl
  | some kind =>
      rw [mark?.eq_def] at marks
      split at marks
      case h_6 => cases marks
      all_goals cases inside

end Characters

def Cut.Ends (cut : Cut) (text : List Char) : Prop :=
  ∃ left, text = cut.taken ++ left ∧ endsBefore left = true

section Ends

variable {taken rest text : List Char} {cut : Cut} {lineStart : Bool} {c : Char}

theorem malformed_ends (fault : String → Fault) (taken rest : List Char) :
    (malformed fault taken rest).Ends (taken ++ rest) := by
  refine ⟨rest.dropWhile (!isTerminator ·), ?_, ?_⟩
  · simp only [malformed, List.append_assoc, List.takeWhile_append_dropWhile]
  · have stopped := lacks_dropWhile (!isTerminator ·) rest
    simpa [endsBefore_eq, Lacks] using stopped

theorem delimited_ends (kind : Kind) (taken rest : List Char) :
    (delimited kind taken rest).Ends (taken ++ rest) := by
  rw [delimited]
  split
  · next ends => exact ⟨rest, rfl, ends⟩
  · exact malformed_ends .unexpectedToken taken rest

theorem NumberForms.ends (forms : NumberForms text cut) : cut.Ends text := by
  cases forms with
  | float split _ ends => exact ⟨_, split, ends⟩
  | integer split _ ends => exact ⟨_, split, ends⟩
  | malformed split =>
      rw [split]
      exact malformed_ends _ _ _

theorem scan_of_beginsNumber (begins : beginsNumber c rest = true) :
    scan lineStart c rest = number (c :: rest) := by
  have word : beginsWord c rest = true := by simp [beginsWord, begins]
  have full := full_of_beginsWord word
  exact scan_number (solid_of_full full) full begins

theorem scan_of_beginsName (noDigit : beginsNumber c rest = false)
    (begins : (isAlphabetic c || c = '_') = true) : scan lineStart c rest = word (c :: rest) := by
  have word : beginsWord c rest = true := by rw [beginsWord, noDigit, Bool.false_or, begins]
  have full := full_of_beginsWord word
  refine scan_word (solid_of_full full) full noDigit ?_ begins
  rintro rfl
  exact absurd begins (by decide)

theorem scan_ends (begins : beginsWord c rest = true) :
    (scan lineStart c rest).Ends (c :: rest) := by
  cases digit : beginsNumber c rest with
  | true =>
      rw [scan_of_beginsNumber digit]
      exact (number_forms digit).ends
  | false =>
      rw [beginsWord, digit, Bool.false_or] at begins
      have letter : isWordChar c = true := by
        simp only [isWordChar, Bool.or_eq_true] at begins ⊢
        exact begins.imp_left Or.inl
      rw [scan_of_beginsName digit begins, word_cons letter]
      have ends := delimited_ends (nameKind (String.ofList (c :: rest.takeWhile isWordChar)))
        (c :: rest.takeWhile isWordChar) (rest.dropWhile isWordChar)
      rwa [List.cons_append, List.takeWhile_append_dropWhile] at ends

end Ends

section Kinds

variable {lineStart : Bool} {c : Char} {rest : List Char}

theorem kind_of_settles {scanner : List Char → Cut} {taken : List Char}
    (settled : ∃ more, Settles scanner taken rest more) :
    IsValue (scanner rest).kind ∨ (scanner rest).kind = .error := by
  obtain ⟨more, settles⟩ := settled
  have worded := settles.worded
  generalize scanner rest = cut at worded
  cases worded with
  | sound word => exact .inl (category_of_isWordKind word)
  | faulty => exact .inr rfl

theorem quoted_kind (quote : Char) (rest : List Char) :
    (quoted quote rest).kind = .string ∨ (quoted quote rest).kind = .error := by
  rw [quoted]
  split
  · exact .inr rfl
  · split
    · exact .inl rfl
    · exact .inr rfl

theorem comment_kind (text : List Char) : ¬ IsValue (comment text).kind := by
  rw [comment.eq_def]
  split
  · split
    · exact (by decide : ¬ IsValue .blockComment)
    · exact (by decide : ¬ IsValue .error)
  · exact (by decide : ¬ IsValue .lineComment)

theorem kind_of_not_isTerminator (inside : isTerminator c = false) :
    IsValue (scan lineStart c rest).kind ∨ (scan lineStart c rest).kind = .error := by
  have full := full_of_not_isTerminator inside
  cases quotes : isQuote c with
  | true =>
      rw [scan_of_quote quotes]
      exact (quoted_kind c rest).imp_left fun string => by rw [string]; decide
  | false =>
      have noMark : c ≠ '!' := by
        rintro rfl
        cases inside
      have strays := mark?_of_not_isTerminator inside
      exact kind_of_settles (scan_settles (solid_of_full full) full noMark quotes strays rest)

theorem kind_of_beginsWord (begins : beginsWord c rest = true) :
    IsValue (scan lineStart c rest).kind ∨ (scan lineStart c rest).kind = .error := by
  have full := full_of_beginsWord begins
  have solid := solid_of_full full
  cases digit : beginsNumber c rest with
  | true => exact kind_of_settles (scan_number_settles solid full digit)
  | false =>
      rw [beginsWord, digit, Bool.false_or] at begins
      have noMark : c ≠ '!' := by
        rintro rfl
        exact absurd begins (by decide)
      exact kind_of_settles (scan_word_settles solid full digit noMark begins)

theorem string_of_value (others : beginsWord c rest = false)
    (value : IsValue (scan lineStart c rest).kind) : (scan lineStart c rest).kind = .string := by
  simp only [beginsWord, beginsNumber, Bool.or_eq_false_iff] at others
  obtain ⟨⟨noDigit, noLetter⟩, noLine⟩ := others
  revert value
  rw [scan]
  simp only [noDigit, noLetter, noLine, Bool.or_self, Bool.false_eq_true, if_false]
  split
  · exact fun value => absurd value (by decide : ¬ IsValue .newLine)
  split
  · split
    · exact fun value => absurd value (by decide : ¬ IsValue .indentation)
    · exact fun value => absurd value (by decide : ¬ IsValue .whiteSpace)
  split
  · exact fun value => absurd value (comment_kind _)
  split
  · intro value
    refine (quoted_kind c rest).resolve_right fun failed => ?_
    rw [failed] at value
    exact absurd value (by decide)
  split
  · next marks =>
      intro value
      rw [IsValue, show (plain _ [c]).kind.category = _ from mark?_category marks] at value
      exact absurd value (by decide)
  · exact fun value => absurd value (by decide : ¬ IsValue .error)

end Kinds

section Tokens

variable {text : String} {token : Token} {place : Location} {lineStart : Bool} {chars : List Char}
  {cuts : List Cut} {c : Char} {rest : List Char}

theorem exists_scan_placed (member : token ∈ placed place (cutsFrom lineStart chars)) :
    ∃ front c rest lineStart, chars = front ++ c :: rest ∧
      token.span.start.index = place.index + front.length ∧
        token = (scan lineStart c rest).token token.span.start := by
  induction lineStart, chars using cutsFrom.induct generalizing place
  case case1 lineStart =>
    rw [cutsFrom] at member
    cases member
  case case2 lineStart c rest cut ih =>
    rw [cutsFrom_cons] at member
    rcases List.mem_cons.mp member with rfl | later
    · exact ⟨[], c, rest, lineStart, rfl, rfl, rfl⟩
    · obtain ⟨front, d, others, lineStart', split, start, same⟩ := ih later
      refine ⟨cut.taken ++ front, d, others, lineStart', ?_, ?_, same⟩
      · rw [List.append_assoc, ← split]
        exact (scan_taken_append lineStart c rest).symm
      · rw [start, index_after, List.length_append, Nat.add_assoc]

structure CutAt (text : String) (token : Token) (lineStart : Bool) (c : Char) (rest : List Char) :
    Prop where
  stands : text.toList.drop token.span.start.index = c :: rest
  same : token = (scan lineStart c rest).token token.span.start

theorem drop_behind (text : String) :
    text.toList.drop (behind Location.origin (cutsFrom true text.toList)).index = [] := by
  rw [index_behind, taken_cutsFrom, Location.origin, Nat.zero_add]
  exact List.drop_length

theorem exists_cutAt (member : token ∈ tokens text) :
    (∃ lineStart c rest, CutAt text token lineStart c rest) ∨
      token.kind = .endOfFile ∧ text.toList.drop token.span.start.index = [] := by
  rw [tokens_eq_placed, List.mem_append, List.mem_singleton] at member
  rcases member with inside | rfl
  · obtain ⟨front, c, rest, lineStart, split, start, same⟩ := exists_scan_placed inside
    refine .inl ⟨lineStart, c, rest, ?_, same⟩
    rw [split]
    exact List.drop_left' (by rw [start, Location.origin, Nat.zero_add])
  · exact .inr ⟨rfl, drop_behind text⟩

theorem exists_next (member : token ∈ placed place cuts) :
    ∃ next ∈ placed place cuts ++ [endToken (behind place cuts)], Adjoins token next := by
  induction cuts generalizing place with
  | nil => cases member
  | cons cut cuts ih =>
      rw [placed, List.cons_append, behind_cons]
      rcases List.mem_cons.mp member with rfl | later
      · cases cuts with
        | nil => exact ⟨_, List.mem_cons_of_mem _ List.mem_cons_self, rfl⟩
        | cons second cuts => exact ⟨_, List.mem_cons_of_mem _ List.mem_cons_self, rfl⟩
      · obtain ⟨next, inside, adjoins⟩ := ih later
        exact ⟨next, List.mem_cons_of_mem _ inside, adjoins⟩

namespace CutAt

theorem kind_eq (cut : CutAt text token lineStart c rest) :
    token.kind = (scan lineStart c rest).kind := by
  rw [cut.same]
  rfl

theorem taken_append (cut : CutAt text token lineStart c rest) :
    (scan lineStart c rest).taken ++ text.toList.drop token.span.stop.index = c :: rest := by
  have front : (scan lineStart c rest).taken <+: c :: rest :=
    ⟨_, scan_taken_append lineStart c rest⟩
  have stop : token.span.stop.index =
      token.span.start.index + (scan lineStart c rest).taken.length := by
    rw [cut.same]
    exact index_after _ _
  rw [stop, ← List.drop_drop, cut.stands]
  exact List.prefix_iff_eq_append.mp front

theorem next {d : Char} {others : List Char} (member : token ∈ tokens text)
    (goes : token.kind ≠ .endOfFile)
    (behind : text.toList.drop token.span.stop.index = d :: others) :
    ∃ next ∈ tokens text, Adjoins token next ∧ ∃ lineStart, CutAt text next lineStart d others := by
  have inside := member
  rw [tokens_eq_placed, List.mem_append, List.mem_singleton] at inside
  obtain ⟨next, listed, adjoins⟩ :=
    exists_next (inside.resolve_right fun same => goes (by rw [same, endToken]))
  rw [← tokens_eq_placed] at listed
  refine ⟨next, listed, adjoins, ?_⟩
  rw [adjoins] at behind
  rcases exists_cutAt listed with ⟨lineStart, e, more, cut⟩ | ⟨-, none⟩
  · obtain ⟨rfl, rfl⟩ := List.cons.inj (cut.stands.symm.trans behind)
    exact ⟨lineStart, cut⟩
  · cases none.symm.trans behind

end CutAt

def BeginsWord (text : String) (token : Token) : Prop :=
  ∃ c rest, text.toList.drop token.span.start.index = c :: rest ∧ beginsWord c rest = true

/-- Right behind the token the text ends or goes on with a character that may stand there. -/
def Delimited (text : String) (token : Token) : Prop :=
  endsBefore (text.toList.drop token.span.stop.index) = true

instance (text : String) (token : Token) : Decidable (Delimited text token) :=
  inferInstanceAs (Decidable (_ = true))

theorem CutAt.delimited (cut : CutAt text token lineStart c rest)
    (begins : beginsWord c rest = true) : Delimited text token := by
  have taken : (scan lineStart c rest).Ends (c :: rest) := scan_ends begins
  obtain ⟨left, split, ends⟩ := taken
  have same := cut.taken_append.trans split
  rwa [Delimited, List.append_cancel_left same]

/-- A token that stands for a value is a number, a name or a string. Where a number or a name
begins, one token goes up to a character that may stand behind it, be it well formed or an error.
A string alone can have another value or a malformed word right behind it. -/
theorem values_delimited (member : token ∈ tokens text) :
    (IsValue token.kind → BeginsWord text token ∨ token.kind = .string) ∧
      (BeginsWord text token →
        Delimited text token ∧ (IsValue token.kind ∨ token.kind = .error)) ∧
      (token.kind = .string → Delimited text token ∨
        ∃ next ∈ tokens text, Adjoins token next ∧
          (IsValue next.kind ∨ next.kind = .error)) := by
  rcases exists_cutAt member with ⟨lineStart, c, rest, cut⟩ | ⟨finish, none⟩
  · refine ⟨fun value => ?_, ?_, fun string => ?_⟩
    · rw [cut.kind_eq] at value ⊢
      cases begins : beginsWord c rest with
      | true => exact .inl ⟨c, rest, cut.stands, begins⟩
      | false => exact .inr (string_of_value begins value)
    · rintro ⟨d, others, stands, begins⟩
      obtain ⟨rfl, rfl⟩ := List.cons.inj (cut.stands.symm.trans stands)
      rw [cut.kind_eq]
      exact ⟨cut.delimited begins, kind_of_beginsWord begins⟩
    · by_cases delimited : Delimited text token
      · exact .inl delimited
      · refine .inr ?_
        cases behind : text.toList.drop token.span.stop.index with
        | nil => exact absurd (by rw [Delimited, behind]; rfl) delimited
        | cons d others =>
            have inside : isTerminator d = false := by
              simpa [Delimited, behind, endsBefore] using delimited
            obtain ⟨next, listed, adjoins, lineStart, cut⟩ :=
              CutAt.next member (by rw [string]; decide) behind
            refine ⟨next, listed, adjoins, ?_⟩
            rw [cut.kind_eq]
            exact kind_of_not_isTerminator inside
  · refine ⟨fun value => ?_, ?_, fun string => ?_⟩
    · rw [finish] at value
      exact absurd value (by decide)
    · rintro ⟨d, others, stands, -⟩
      cases none.symm.trans stands
    · cases finish.symm.trans string

/-- A name right behind a string is a token of its own. -/
theorem values_delimited_glued :
    ∃ token ∈ tokens "\x27a\x27b", token.kind = .string ∧ ¬ Delimited "\x27a\x27b" token ∧
      ∃ next ∈ tokens "\x27a\x27b", Adjoins token next ∧ next.kind = .identifier ∧
        BeginsWord "\x27a\x27b" next ∧ Delimited "\x27a\x27b" next := by
  have string : (⟨.string, "a", ⟨⟨0, 1, 0⟩, ⟨3, 1, 3⟩⟩⟩ : Token) ∈ tokens "\x27a\x27b" := by
    decide +kernel
  have name : (⟨.identifier, "b", ⟨⟨3, 1, 3⟩, ⟨4, 1, 4⟩⟩⟩ : Token) ∈ tokens "\x27a\x27b" := by
    decide +kernel
  have glued : ¬ Delimited "\x27a\x27b" ⟨.string, "a", ⟨⟨0, 1, 0⟩, ⟨3, 1, 3⟩⟩⟩ := by
    decide +kernel
  have begins := ((values_delimited name).1 (by decide)).resolve_right (by decide)
  obtain ⟨delimited, -⟩ := (values_delimited name).2.1 begins
  exact ⟨_, string, rfl, glued, _, name, rfl, rfl, begins, delimited⟩

end Tokens

end WidgetTree.Lexeme
