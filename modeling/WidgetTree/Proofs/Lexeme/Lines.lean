import WidgetTree.Proofs.Lexeme.Breaks

/-!
Texts one below the other. Main statements: `tokens_append_run`, the tokens of a text with another
one some lines below are the tokens of both with the line breaks between, and `tokens_join`, the
same for a single line feed.
-/

namespace WidgetTree.Lexeme

open Text (Location Span)

/-- The same place where `lines` more lines, of `chars` characters, stand in front of the text. -/
def lower (chars lines : Nat) (place : Location) : Location :=
  ⟨place.index + chars, place.line + lines, place.column⟩

def Token.lower (chars lines : Nat) (token : Token) : Token :=
  { token with
    span := ⟨Lexeme.lower chars lines token.span.start, Lexeme.lower chars lines token.span.stop⟩ }

section Lower

variable (chars lines : Nat)

theorem lower_through (place : Location) (text : List Char) :
    (lower chars lines place).through text = lower chars lines (place.through text) := by
  induction text generalizing place with
  | nil => rfl
  | cons c text ih =>
      have next : (lower chars lines place).next c = lower chars lines (place.next c) := by
        rw [Location.next, Location.next]
        split
        · simp only [lower, Nat.add_right_comm _ _ 1]
        · simp only [lower, Nat.add_right_comm _ _ 1]
      have step : ∀ place : Location, place.through (c :: text) = (place.next c).through text :=
        fun _ => rfl
      rw [step, step, next, ih]

theorem lower_after (cut : Cut) (place : Location) :
    cut.after (lower chars lines place) = lower chars lines (cut.after place) := by
  rw [Cut.after.eq_def, Cut.after.eq_def, lower_through]
  split <;> rfl

theorem lower_behind (place : Location) (cuts : List Cut) :
    behind (lower chars lines place) cuts = lower chars lines (behind place cuts) := by
  induction cuts generalizing place with
  | nil => rfl
  | cons cut cuts ih => rw [behind_cons, behind_cons, lower_after, ih]

theorem lower_placed (place : Location) (cuts : List Cut) :
    placed (lower chars lines place) cuts =
      (placed place cuts).map (Token.lower chars lines) := by
  induction cuts generalizing place with
  | nil => rfl
  | cons cut cuts ih =>
      rw [placed, placed, List.map_cons, lower_after, ih, Cut.token, lower_after]
      rfl

theorem lower_tokens (text : String) :
    placed (lower chars lines Location.origin) (cutsFrom true text.toList) ++
        [endToken (behind (lower chars lines Location.origin) (cutsFrom true text.toList))] =
      (tokens text).map (Token.lower chars lines) := by
  rw [lower_placed, lower_behind, tokens_eq_placed, List.map_append]
  rfl

end Lower

section Bare

variable (place : Location) (cuts : List Cut)

theorem behind_bare : behind place (cuts.map Cut.bare) = behind place cuts := by
  rw [behind, List.foldl_map]
  rfl

theorem placed_bare : placed place (cuts.map Cut.bare) = placed place cuts := by
  induction cuts generalizing place with
  | nil => rfl
  | cons cut cuts ih =>
      rw [List.map_cons, placed, placed, ih]
      rfl

end Bare

section Closed

/-- No comment is left open. -/
def Closed (text : String) : Prop :=
  ∀ lexeme ∈ row text, lexeme.fault ≠ some .unterminatedComment

instance (text : String) : Decidable (Closed text) :=
  inferInstanceAs (Decidable (∀ _ ∈ _, _))

theorem closed_cutsFrom {place : Location} {indented : Indented} {text : List Char}
    (closed : ∀ lexeme ∈ rowFrom place indented text,
      lexeme.fault ≠ some .unterminatedComment) :
    ∀ cut ∈ cutsFrom (place.column = 0) text, cut.fault ≠ some .unterminatedComment := by
  induction place, indented, text using rowFrom.induct with
  | case1 place indented =>
      rw [cutsFrom]
      exact List.forall_mem_nil _
  | case2 place indented c rest cut ih =>
      rw [rowFrom_cons, List.forall_mem_cons] at closed
      rw [cutsFrom_cons, List.forall_mem_cons]
      constructor
      · intro opens
        have malformed : (scan (place.column = 0) c rest).kind = .error := by
          by_contra sound
          rw [(scan_sound _ c rest).faultless sound] at opens
          cases opens
        have other : (scan (place.column = 0) c rest).kind ≠ .indentation := by
          rw [malformed]
          decide
        exact closed.1 ((indentationFault_of_kind_ne c indented other).trans opens)
      · by_cases done : rest.drop ((scan (place.column = 0) c rest).taken.length - 1) = []
        · rw [done, cutsFrom]
          exact List.forall_mem_nil _
        · rw [← decide_eq_decide.mpr (column_after_iff_of_left place done)]
          exact ih closed.2

end Closed

variable {above run below : String}

theorem tokens_append_run (ends : EndsOpen above.toList)
    (breaks : BreakRun run.toList below.toList) (closed : Closed above) :
    ∃ inner stop, tokens above = inner ++ [endToken stop] ∧
      tokens (above ++ run ++ below) =
        inner ++ ⟨.newLine, run, ⟨stop, lower (above.length + run.length)
            (above.toList.count '\n' + run.toList.count '\n') Location.origin⟩⟩ ::
          (tokens below).map (Token.lower (above.length + run.length)
            (above.toList.count '\n' + run.toList.count '\n')) := by
  have sound : ∀ cut ∈ cutsFrom true above.toList, cut.fault ≠ some .unterminatedComment :=
    closed_cutsFrom closed
  have cuts := cutsFrom_lines ends breaks sound
  have whole : (above ++ run ++ below).toList = above.toList ++ (run.toList ++ below.toList) := by
    rw [String.toList_append, String.toList_append, List.append_assoc]
  refine ⟨_, _, tokens_eq_placed above, ?_⟩
  set stop := behind Location.origin (cutsFrom true above.toList)
  have next : (plain .newLine run.toList).after stop = lower (above.length + run.length)
      (above.toList.count '\n' + run.toList.count '\n') Location.origin := by
    have lineStart : (plain .newLine run.toList).after stop =
        ⟨(stop.through run.toList).index, (stop.through run.toList).line, 0⟩ := rfl
    rw [lineStart, Location.index_through, line_through, index_behind, line_behind, taken_cutsFrom,
      String.length_toList, String.length_toList, lower, Location.origin]
    simp only [Location.mk.injEq, and_true]
    omega
  have token : (plain .newLine run.toList).token stop =
      ⟨.newLine, run, ⟨stop, (plain .newLine run.toList).after stop⟩⟩ := by
    simp only [Cut.token, plain, String.ofList_toList]
  rw [tokens_eq_placed, whole, ← placed_bare, ← behind_bare, cuts, placed_bare, behind_bare,
    placed_append, behind_append, placed, behind_cons, token, next, List.append_assoc,
    List.cons_append, lower_tokens]

/-- What is below a line feed has the tokens it has alone, one line below the text above, and that
text has those it has alone, where it leaves no comment open. -/
theorem tokens_join (above below : String) (ends : EndsOpen above.toList)
    (begins : Lacks isNewLine below.toList) (closed : Closed above) :
    ∃ inner stop, tokens above = inner ++ [endToken stop] ∧
      tokens (above ++ "\n" ++ below) =
        inner ++ ⟨.newLine, "\n", ⟨stop, ⟨above.length + 1, above.toList.count '\n' + 2, 0⟩⟩⟩ ::
          (tokens below).map
            (Token.lower (above.length + 1) (above.toList.count '\n' + 1)) := by
  have breaks : BreakRun "\n".toList below.toList :=
    ⟨by decide, List.forall_mem_singleton.mpr rfl, begins⟩
  obtain ⟨inner, stop, split, joined⟩ := tokens_append_run ends breaks closed
  have next : lower (above.length + 1) (above.toList.count '\n' + 1) Location.origin =
      ⟨above.length + 1, above.toList.count '\n' + 2, 0⟩ := by
    simp only [lower, Location.origin, Location.mk.injEq, and_true]
    omega
  exact ⟨inner, stop, split, next ▸ joined⟩

/-- A string that is cut off by the line break, a minus in front of it and a number that is cut off
below. -/
theorem tokens_join_broken :
    Closed "Foo .bar: -\n\t1.x \x22y" ∧ ∃ inner stop,
      tokens "Foo .bar: -\n\t1.x \x22y" = inner ++ [endToken stop] ∧
      tokens ("Foo .bar: -\n\t1.x \x22y" ++ "\n" ++ "\t2e") =
        inner ++ ⟨.newLine, "\n", ⟨stop, ⟨20, 3, 0⟩⟩⟩ ::
          (tokens "\t2e").map (Token.lower 20 2) := by
  have closed : Closed "Foo .bar: -\n\t1.x \x22y" := by decide +kernel
  exact ⟨closed, tokens_join _ "\t2e" (by decide) (by decide) closed⟩

end WidgetTree.Lexeme
