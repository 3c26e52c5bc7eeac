import WidgetTree.Proofs.Grammar.Places

namespace WidgetTree.Grammar

open Lexeme (Kind Token)
open WidgetTree.Tree (Node)

variable {options : Options} {indent : Nat} {tokens rest gap more left : List Token}

structure SameFront (tokens rest : List Token) : Prop where
  here : current tokens = current rest
  below : current (skipNewLines tokens) = current (skipNewLines rest)

theorem skipNewLines_of_ne (other : (current tokens).kind ≠ .newLine) :
    skipNewLines tokens = tokens := by
  cases tokens with
  | nil => rfl
  | cons token rest => exact skipNewLines_cons_of_ne other

theorem current_skipNewLines_ne (tokens : List Token) :
    (current (skipNewLines tokens)).kind ≠ .newLine := by
  have stopped := List.head?_dropWhile_not (fun token : Token => token.kind = .newLine) tokens
  rw [skipNewLines]
  cases found : tokens.dropWhile (·.kind = .newLine) with
  | nil => simp [current]
  | cons token rest => simpa [found, current] using stopped

theorem skipNewLines_skipNewLines (tokens : List Token) :
    skipNewLines (skipNewLines tokens) = skipNewLines tokens :=
  skipNewLines_of_ne (current_skipNewLines_ne tokens)

theorem skipNewLines_append {breaks : List Token}
    (newLines : ∀ token ∈ breaks, token.kind = .newLine)
    (other : (current rest).kind ≠ .newLine) : skipNewLines (breaks ++ rest) = rest := by
  have skipped : ∀ token ∈ breaks, decide (token.kind = .newLine) = true := by simpa using newLines
  rw [skipNewLines, List.dropWhile_append_of_pos skipped]
  exact skipNewLines_of_ne other

namespace SameFront

theorem refl (tokens : List Token) : SameFront tokens tokens := ⟨rfl, rfl⟩

theorem cons (token : Token) (same : SameFront tokens rest) :
    SameFront (token :: tokens) (token :: rest) := by
  refine ⟨rfl, ?_⟩
  by_cases newLine : token.kind = .newLine
  · rw [skipNewLines_cons_of_eq newLine, skipNewLines_cons_of_eq newLine, same.below]
  · rw [skipNewLines_cons_of_ne newLine, skipNewLines_cons_of_ne newLine]
    rfl

theorem append (gap : List Token) (same : SameFront tokens rest) :
    SameFront (gap ++ tokens) (gap ++ rest) := by
  induction gap with
  | nil => exact same
  | cons token gap ih => exact ih.cons token

theorem of_mem {core : List Token} {token : Token} (member : token ∈ core)
    (other : token.kind ≠ .newLine) (tokens rest : List Token) :
    SameFront (core ++ tokens) (core ++ rest) := by
  induction core with
  | nil => cases member
  | cons first core ih =>
      rcases List.mem_cons.mp member with rfl | later
      · refine ⟨rfl, ?_⟩
        rw [List.cons_append, List.cons_append, skipNewLines_cons_of_ne other,
          skipNewLines_cons_of_ne other]
        rfl
      · exact (ih later).cons first

theorem of_solid {core : List Token} (solid : ∃ token ∈ core, Solid token.kind)
    (tokens rest : List Token) : SameFront (core ++ tokens) (core ++ rest) := by
  obtain ⟨token, member, solid⟩ := solid
  exact .of_mem member (solid.ne (.inl rfl)) tokens rest

end SameFront

theorem current_append {core : List Token} (solid : ∃ token ∈ core, Solid token.kind)
    (tokens rest : List Token) : current (core ++ tokens) = current (core ++ rest) :=
  (SameFront.of_solid solid tokens rest).here

theorem opensDeeper_congr (same : current tokens = current rest) (indent : Nat) :
    opensDeeper indent tokens = opensDeeper indent rest := by
  rw [opensDeeper, opensDeeper, same]

theorem standsAlone_congr (same : SameFront tokens rest) (indent : Nat) :
    standsAlone indent tokens = standsAlone indent rest := by
  rw [standsAlone, standsAlone, same.here, opensDeeper_congr same.below]

/-- What may stand behind the last token of a rule, and where the rule ends then: the layout that it
skipped and a row that looks like the one in front of which it ended, or the end of the file. -/
inductive Follows (gap rest : List Token) : List Token → List Token → Prop
  | same {left : List Token} (front : SameFront rest left) : Follows gap rest (gap ++ left) left
  | ended {last : Token} (ends : last.kind = .endOfFile) : Follows gap rest [last] [last]

theorem Follows.here (gap rest : List Token) : Follows gap rest (gap ++ rest) rest :=
  .same (.refl rest)

theorem Follows.nil (follows : Follows [] rest tokens left) : tokens = left := by
  cases follows with
  | same front => rfl
  | ended ends => rfl

theorem Follows.split (follows : Follows (gap ++ more) rest tokens left) :
    ∃ middle, Follows gap (more ++ rest) tokens middle ∧ Follows more rest middle left := by
  cases follows with
  | same front =>
      rw [List.append_assoc]
      exact ⟨_, .same (front.append more), .same front⟩
  | ended ends => exact ⟨_, .ended ends, .ended ends⟩

theorem Follows.current_or (follows : Follows gap rest tokens left) :
    current left = current rest ∨ (current left).kind = .endOfFile := by
  cases follows with
  | same front => exact .inl front.here.symm
  | ended ends => exact .inr ends

theorem Follows.standsAlone (follows : Follows [] rest tokens left)
    (alone : Grammar.standsAlone indent rest = true) :
    Grammar.standsAlone indent tokens = true := by
  cases follows with
  | same front => rwa [List.nil_append, ← standsAlone_congr front]
  | ended ends => simp [Grammar.standsAlone, current, ends]

theorem skipComma_commas (rest : List Token) : ∃ commas, rest = commas ++ skipComma rest ∧
    (∀ token ∈ commas, token.kind = .comma) ∧
    ∀ tokens left, Follows commas (skipComma rest) tokens left → skipComma tokens = left := by
  have ended : ∀ last : Token, last.kind = .endOfFile → skipComma [last] = [last] := by
    intro last ends
    rw [skipComma, ends]
    rfl
  by_cases comma : (current rest).kind = .comma
  · cases rest with
    | nil => cases comma
    | cons token others =>
        have skipped : skipComma (token :: others) = others := if_pos comma
        refine ⟨[token], by rw [skipped]; rfl, List.forall_mem_singleton.mpr comma, ?_⟩
        intro tokens left follows
        cases follows with
        | same front => exact if_pos comma
        | ended ends => exact ended _ ends
  · have skipped : skipComma rest = rest := by
      cases rest with
      | nil => rfl
      | cons token others => exact if_neg comma
    refine ⟨[], by rw [skipped]; rfl, List.forall_mem_nil _, ?_⟩
    intro tokens left follows
    have other : (current left).kind ≠ .comma := by
      rw [skipped] at follows
      rcases follows.current_or with same | ends
      · rwa [same]
      · rw [ends]
        decide
    rw [follows.nil]
    cases left with
    | nil => rfl
    | cons token others => exact if_neg other

section Colons

variable {colon : Option Token}

structure Colons (read : List Token → List Token → Prop) (colon : Option Token)
    (tokens rest colons : List Token) : Prop where
  split : tokens = colons ++ rest
  same : colons = colon.toList
  kind : ∀ token ∈ colons, token.kind = .colon
  again : ∀ left, (colons = [] → current left = current rest ∨ (current left).kind = .endOfFile) →
    read (colons ++ left) left

theorem lax_of_colon?_none (read : Yields (colon? options tokens) none rest) :
    options.enforceColons = false := by
  rcases colon?_cases read with ⟨token, same, -⟩ | ⟨-, -, absent⟩
  · cases same
  · rcases read with ⟨shorter, ran⟩
    rw [colon?_absent absent] at ran
    split at ran
    · cases ran
    · next lax => simpa using lax

theorem colon?_none (lax : options.enforceColons = false)
    (absent : (current tokens).kind ≠ .colon) : Yields (colon? options tokens) none tokens :=
  ⟨Nat.lt_succ_self _, by rw [colon?_absent absent, lax]; rfl⟩

theorem colon?_colons (read : Yields (colon? options tokens) colon rest) :
    ∃ colons, Colons (fun tokens => Yields (colon? options tokens) colon) colon tokens rest
      colons := by
  rcases colon?_cases read with ⟨token, rfl, kind, rfl⟩ | ⟨rfl, rfl, other⟩
  · refine ⟨[token], rfl, rfl, List.forall_mem_singleton.mpr kind, fun left _ => ?_⟩
    exact colon?_yields_some kind
  · refine ⟨[], rfl, rfl, List.forall_mem_nil _, fun left front => ?_⟩
    have absent : (current left).kind ≠ .colon := by
      rcases front rfl with same | ended
      · rwa [same]
      · rw [ended]
        decide
    exact colon?_none (lax_of_colon?_none read) absent

theorem headerColon?_colons {inline : List Node}
    (read : Yields (headerColon? options inline tokens) colon rest) :
    ∃ colons, Colons (fun tokens => Yields (headerColon? options inline tokens) colon) colon
      tokens rest colons := by
  by_cases unasked : ((current tokens).kind = .endOfFile || (current tokens).kind = .indentation ||
      inline.getLast?.any Node.isValue) = true
  · rcases read with ⟨shorter, ran⟩
    rw [headerColon?, if_pos unasked] at ran
    cases ran
    refine ⟨[], rfl, rfl, List.forall_mem_nil _, fun left front => ?_⟩
    have none : headerColon? options inline left = .ok (.leaving none left) := by
      rw [headerColon?, if_pos]
      rcases front rfl with same | ended
      · rwa [same]
      · simp [ended]
    exact ⟨Nat.lt_succ_self _, none⟩
  · have plain : Yields (colon? options tokens) colon rest := by
      rwa [headerColon?, if_neg unasked] at read
    obtain ⟨colons, found⟩ := colon?_colons plain
    refine ⟨colons, found.split, found.same, found.kind, fun left front => ?_⟩
    have again := found.again left front
    rw [headerColon?]
    split
    · next asked =>
        cases colons with
        | nil =>
            have none : colon = none := by simpa using found.same.symm
            subst none
            exact ⟨Nat.lt_succ_self _, rfl⟩
        | cons token others =>
            have same : current (token :: others ++ left) = current tokens := by
              rw [found.split]
              rfl
            rw [same] at asked
            exact absurd asked unasked
    · exact again

end Colons

end WidgetTree.Grammar
