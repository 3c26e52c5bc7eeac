import WidgetTree.Proofs.Lexeme.Lines

namespace WidgetTree.Lexeme

open Text (Location)

section Cuts

variable {lineStart : Bool} {text run : List Char}

def breakCut (run : List Char) : List Cut := if run = [] then [] else [plain .newLine run]

theorem cutsFrom_breaks (breaks : ∀ c ∈ run, isNewLine c = true) (lineStart : Bool) :
    cutsFrom lineStart run = breakCut run := by
  rw [breakCut]
  split
  · next none => rw [none, cutsFrom]
  · next some =>
      have last : BreakRun run [] := ⟨some, breaks, rfl⟩
      have whole := cutsFrom_run last lineStart
      rwa [List.append_nil, cutsFrom] at whole

theorem cutsFrom_append_feed
    (closed : ∀ cut ∈ cutsFrom lineStart text, cut.fault ≠ some .unterminatedComment) :
    ∃ cuts run, cutsFrom lineStart text = cuts ++ breakCut run ∧
      (cutsFrom lineStart (text ++ ['\n'])).map Cut.bare =
        (cuts ++ [plain .newLine (run ++ ['\n'])]).map Cut.bare := by
  have grown : ∀ {run : List Char} (lineStart : Bool), (∀ c ∈ run, isNewLine c = true) →
      cutsFrom lineStart (run ++ ['\n']) = [plain .newLine (run ++ ['\n'])] := by
    intro run lineStart breaks
    have all : ∀ c ∈ run ++ ['\n'], isNewLine c = true := by
      intro c member
      rcases List.mem_append.mp member with inside | last
      · exact breaks c inside
      · rw [List.mem_singleton.mp last]
        rfl
    rw [cutsFrom_breaks all, breakCut, if_neg (by simp)]
  induction lineStart, text using cutsFrom.induct with
  | case1 lineStart =>
      refine ⟨[], [], by rw [cutsFrom]; rfl, ?_⟩
      rw [grown lineStart (List.forall_mem_nil _)]
      rfl
  | case2 lineStart c rest cut ih =>
      by_cases whole : ∀ d ∈ c :: rest, isNewLine d = true
      · refine ⟨[], c :: rest, cutsFrom_breaks whole lineStart, ?_⟩
        rw [grown lineStart whole]
        rfl
      · rw [cutsFrom_cons, List.forall_mem_cons] at closed
        have same : (scan lineStart c (rest ++ ['\n'])).bare = (scan lineStart c rest).bare := by
          cases newLine : isNewLine c with
          | true =>
              have goes : ∃ d ∈ rest, isNewLine d = false := by simpa [newLine] using whole
              rw [scan_newLine_append newLine goes]
          | false => exact scan_line newLine rfl closed.1
        obtain ⟨cuts, run, split, fed⟩ := ih closed.2
        refine ⟨scan lineStart c rest :: cuts, run, ?_, ?_⟩
        · rw [cutsFrom_cons, split, List.cons_append]
        · rw [List.cons_append, cutsFrom_append_cons same, fed, List.cons_append, List.map_cons]

end Cuts

/-- What ends the tokens of a text, and of the text with a line feed behind it: a line break of its
own behind the last line, or a longer one behind the line breaks that end the text. -/
inductive Fed (text : String) : List Token → List Token → Prop
  | opened {stop next : Location} (start : stop.index = text.length)
      (width : next.index = text.length + 1) :
      Fed text [endToken stop] [⟨.newLine, "\n", ⟨stop, next⟩⟩, endToken next]
  | broken {first first' : Token} (stop stop' : Location) (newLine : first.kind = .newLine)
      (newLine' : first'.kind = .newLine) :
      Fed text [first, endToken stop] [first', endToken stop']

theorem tokens_append_feed {text : String} (closed : Closed text) :
    ∃ core tail tail', tokens text = core ++ tail ∧ tokens (text ++ "\n") = core ++ tail' ∧
      Fed text tail tail' := by
  have sound : ∀ cut ∈ cutsFrom true text.toList, cut.fault ≠ some .unterminatedComment :=
    closed_cutsFrom closed
  obtain ⟨cuts, run, split, fed⟩ := cutsFrom_append_feed sound
  have feed : (text ++ "\n").toList = text.toList ++ ['\n'] := String.toList_append
  have whole := tokens_eq_placed text
  have whole' := tokens_eq_placed (text ++ "\n")
  rw [feed, ← placed_bare, ← behind_bare, fed, placed_bare, behind_bare, placed_append,
    behind_append, List.append_assoc] at whole'
  rw [split, placed_append, behind_append, List.append_assoc] at whole
  refine ⟨_, _, _, whole, whole', ?_⟩
  cases run with
  | nil =>
      have start : (behind Location.origin cuts).index = text.length := by
        have all : cuts = cutsFrom true text.toList := by simpa [breakCut] using split.symm
        rw [index_behind, all, taken_cutsFrom, String.length_toList, Location.origin,
          Nat.zero_add]
      refine .opened start ?_
      rw [index_after, start]
      rfl
  | cons c run => exact .broken _ _ rfl rfl

end WidgetTree.Lexeme
