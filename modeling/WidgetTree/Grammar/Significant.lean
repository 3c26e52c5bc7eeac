import WidgetTree.Lexeme.Token

/-!
The tokens that the grammar reads: no trivia, no indentation of blank lines, and an end of file at
the end.
-/

namespace WidgetTree.Grammar

open Lexeme (Token)

/-- Whether a neighbour, or none, leaves nothing on the line beside it. -/
def endsLine : Option Token → Bool
  | none => true
  | some token => token.kind = .newLine || token.kind = .endOfFile

/-- Drops trivia and blank indentation; `before` is the nearest token in front, trivia aside. -/
def significantFrom (before : Option Token) : List Token → List Token
  | [] => []
  | token :: rest =>
      if token.isTrivia then significantFrom before rest
      else if token.kind = .indentation && endsLine before &&
          endsLine (rest.find? (!·.isTrivia)) then significantFrom (some token) rest
      else token :: significantFrom (some token) rest

def endAfter (last : Option Token) : Token :=
  match last with
  | none => ⟨.endOfFile, "", {}⟩
  | some token => ⟨.endOfFile, "", ⟨token.span.stop, token.span.stop⟩⟩

def closed (tokens : List Token) : List Token :=
  if tokens.getLast?.any (·.kind = .endOfFile) then tokens
  else tokens ++ [endAfter tokens.getLast?]

def significant (tokens : List Token) : List Token := closed (significantFrom none tokens)

end WidgetTree.Grammar
