import WidgetTree.Lexeme.Stream

namespace WidgetTree.Lexeme

open Text (Location)

/-- How far a text has been read, what is left of it and the findings so far. -/
structure Reader where
  text : String
  place : Location
  indented : Indented
  left : List Char
  finished : Bool
  log : Log

namespace Reader

def start (text : String) (log : Log) : Reader :=
  ⟨text, Location.origin, none, text.toList, false, log⟩

def next? (reader : Reader) : Option (Token × Reader) :=
  if reader.finished then none
  else
    match reader.left with
    | [] =>
        some (⟨.endOfFile, "", ⟨reader.place, reader.place⟩⟩, { reader with finished := true })
    | c :: rest =>
        let cut := scan (reader.place.column = 0) c rest
        let lexeme : Lexeme :=
          ⟨⟨cut.kind, String.ofList cut.value, ⟨reader.place, cut.after reader.place⟩⟩,
            indentationFault cut c reader.indented⟩
        some (lexeme.token,
          { reader with
              place := cut.after reader.place
              indented := reader.indented.after cut c
              left := rest.drop (cut.taken.length - 1)
              log := reader.log ++ (report? reader.text lexeme).toList })

/-- The number of lexemes to come is at most this. -/
def pending (reader : Reader) : Nat := if reader.finished then 0 else reader.left.length + 1

theorem pending_lt {reader after : Reader} {token : Token}
    (next : reader.next? = some (token, after)) : after.pending < reader.pending := by
  rw [next?] at next
  split at next
  · cases next
  · next going =>
      rw [Bool.not_eq_true] at going
      split at next
      · cases next
        simp [pending, going]
      · next left =>
          cases next
          simp only [pending, going, left, List.length_drop, List.length_cons]
          simp only [Bool.false_eq_true, if_false]
          omega

def pull : Nat → Reader → List Token × Reader
  | 0, reader => ([], reader)
  | count + 1, reader =>
      match reader.next? with
      | none => ([], reader)
      | some (token, after) =>
          let (more, last) := pull count after
          (token :: more, last)

def pullAll (reader : Reader) : List Token × Reader :=
  match _next : reader.next? with
  | none => ([], reader)
  | some (token, after) =>
      let (more, last) := after.pullAll
      (token :: more, last)
termination_by reader.pending
decreasing_by exact pending_lt _next

end Reader

def tokenize (text : String) (log : Log) : List Token × Log :=
  let (tokens, reader) := (Reader.start text log).pullAll
  (tokens, reader.log)

end WidgetTree.Lexeme
