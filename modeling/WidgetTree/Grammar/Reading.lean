import WidgetTree.Grammar.Problem

namespace WidgetTree.Grammar

open Lexeme (Kind Token)

structure Options where
  /-- Kept for callers; no rule looks at it. -/
  strictIndentation : Bool := false
  /-- Asks for the colon of every header that may leave it out. -/
  enforceColons : Bool := false
  deriving DecidableEq, Repr

def Options.strict : Options := ⟨true, true⟩

/-- What a rule has read, and the fewer than `bound` tokens that it left. -/
structure Reading (α : Type) (bound : Nat) where
  value : α
  rest : List Token
  shorter : rest.length < bound

def Reading.leaving {α : Type} (value : α) (tokens : List Token) :
    Reading α (tokens.length + 1) :=
  ⟨value, tokens, Nat.lt_succ_self _⟩

abbrev Result (α : Type) (bound : Nat) := Except Problem (Reading α bound)

/-- The token to read next. A row that has run out reads as an end of file. -/
def current : List Token → Token
  | [] => ⟨.endOfFile, "", {}⟩
  | token :: _ => token

def unexpected (expected : String) (tokens : List Token) : Problem :=
  ⟨.unexpectedToken (current tokens).quote expected, (current tokens).span⟩

def namesOf (kinds : List Kind) : String := ",".intercalate (kinds.map (·.name))

def expect (kinds : List Kind) : (tokens : List Token) → Result Token tokens.length
  | [] => .error (unexpected (namesOf kinds) [])
  | token :: rest =>
      if kinds.contains token.kind then .ok ⟨token, rest, Nat.lt_succ_self _⟩
      else .error (unexpected (namesOf kinds) (token :: rest))

def colon? (options : Options) (tokens : List Token) :
    Result (Option Token) (tokens.length + 1) :=
  if options.enforceColons || (current tokens).kind = .colon then
    match expect [.colon] tokens with
    | .error problem => .error problem
    | .ok colon => .ok ⟨some colon.value, colon.rest, Nat.lt_succ_of_lt colon.shorter⟩
  else .ok (.leaving none tokens)

def skipNewLines (tokens : List Token) : List Token := tokens.dropWhile (·.kind = .newLine)

def skipComma : List Token → List Token
  | [] => []
  | token :: rest => if token.kind = .comma then rest else token :: rest

theorem skipNewLines_length_le (tokens : List Token) :
    (skipNewLines tokens).length ≤ tokens.length :=
  (List.dropWhile_sublist _).length_le

theorem skipComma_length_le (tokens : List Token) :
    (skipComma tokens).length ≤ tokens.length := by
  unfold skipComma
  split
  · exact Nat.le_refl _
  · split
    · exact Nat.le_succ _
    · exact Nat.le_refl _

end WidgetTree.Grammar
