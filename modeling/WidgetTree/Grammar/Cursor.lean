import WidgetTree.Grammar.Document

/-!
The grammar as a reader that moves along the row: one place that every rule moves on, and a log that
the rule that fails adds to. Nothing here says that a rule comes to its end; one that goes on for
ever has no outcome.
-/

namespace WidgetTree.Grammar

open Lexeme (Kind Token)
open WidgetTree.Tree (Document Leaf Node WidgetKind)

structure Cursor where
  text : String
  row : List Token
  /-- What is seen outside the row, on either side. -/
  last : Token
  options : Options
  position : Nat
  log : Log

namespace Cursor

/-- Moves the cursor and yields a value or fails. What was moved and logged until then is kept. -/
abbrev Rule := ExceptT Problem (StateT Cursor Option)

def start (text : String) (options : Options) (tokens : List Token) (log : Log) : Cursor :=
  let row := significant tokens
  ⟨text, row, row.getLast?.getD ⟨.endOfFile, "", {}⟩, options, 0, log⟩

/-- The token so many places further on, or back where `offset` is negative. -/
def look (cursor : Cursor) (offset : Int) : Token :=
  match (cursor.position : Int) + offset with
  | .ofNat place => cursor.row[place]?.getD cursor.last
  | .negSucc _ => cursor.last

def peek (offset : Int) : Rule Token := do
  return (← get).look offset

def moved (cursor : Cursor) : Cursor := { cursor with position := cursor.position + 1 }

def advance : Rule Unit := modify moved

def bump : Rule Token := do
  let token ← peek 0
  advance
  return token

def fail {α : Type} (problem : Problem) : Rule α := do
  modify fun cursor => { cursor with log := cursor.log ++ [problem.report cursor.text] }
  throw problem

/-- Steps past the token that does not fit, looks back at it and reports it. -/
def unexpected {α : Type} (expected : String) : Rule α := do
  advance
  let found ← peek (-1)
  fail ⟨.unexpectedToken found.quote expected, found.span⟩

def pastNewLines (cursor : Cursor) : Option Cursor :=
  if (cursor.look 0).kind = .newLine then cursor.moved |>.pastNewLines
  else some cursor
partial_fixpoint

def skipNewLines : Rule Unit := do
  set (← liftM (← get).pastNewLines)

def skipComma : Rule Unit := do
  if (← peek 0).kind = .comma then advance
  else return ()

def expect (kinds : List Kind) : Rule Token := do
  if kinds.contains (← peek 0).kind then bump
  else unexpected (namesOf kinds)

def colon? : Rule (Option Token) := do
  if (← get).options.enforceColons || (← peek 0).kind = .colon then
    return some (← expect [.colon])
  else return none

def lookPast (cursor : Cursor) (offset : Int) : Option Token :=
  if (cursor.look offset).kind = .newLine then cursor |>.lookPast (offset + 1)
  else some (cursor.look offset)
partial_fixpoint

def peekPast (offset : Int) : Rule Token := do
  liftM ((← get).lookPast offset)

def headerColon? (inline : List Node) : Rule (Option Token) := do
  if (← peek 0).kind = .indentation || inline.getLast?.any Node.isValue then return none
  else colon?

def reference (leaf : Leaf) (mark : Kind) : Rule Node := do
  let first ← expect [mark]
  let name ← expect [.identifier]
  return .leaf leaf name.value ⟨first.span.start, name.span.stop⟩

def constant : Rule Node := do
  match constant? (← peek 0) with
  | some kind =>
      let token ← bump
      return .leaf (.constant kind) token.value token.span
  | none => unexpected "Constant"

structure Level where
  indent : Nat

namespace Level

/-- Whether a name is all there is of an element. The cursor stays where it is. -/
def standsAlone (level : Level) : Rule Bool := do
  match (← peek 0).kind with
  | .comma | .endOfFile => return true
  | .newLine =>
      let next ← peekPast 1
      return !(next.kind = .indentation && level.indent < next.span.length)
  | _ => return false

def line (level : Level) : Rule Level := do
  if (← peek 0).kind = .indentation then
    let token ← bump
    return ⟨token.span.length⟩
  else return level

mutual

def node (level : Level) : Rule Node := do
  let inner ← level.line
  inner |>.content
partial_fixpoint

def content (level : Level) : Rule Node := do
  let token ← peek 0
  if token.category = .constant || (token.kind = .identifier && token.value = "null") then constant
  else
    match token.kind with
    | .dot => level |>.property
    | .dollarSign => reference .call .dollarSign
    | .ampersand => reference .callback .ampersand
    | _ => level |>.element
partial_fixpoint

def element (level : Level) : Rule Node := do
  let name ← expect [.identifier, .widget]
  if ← level.standsAlone then return .leaf .identifier name.value name.span
  else
    let inline ← level |>.arguments
    if (← peek 0).kind = .endOfFile then return elementNode name inline none []
    else
      let colon ← headerColon? inline
      let below ← level |>.block
      return elementNode name inline colon below
partial_fixpoint

def property (level : Level) : Rule Node := do
  let dot ← expect [.dot]
  let name ← expect [.identifier]
  let colon ← colon?
  let children ← level |>.values
  match propertyNode dot name colon children with
  | .ok node => return node
  | .error problem => fail problem
partial_fixpoint

def values (level : Level) : Rule (List Node) := do
  if (← peek 0).kind = .newLine then level |>.block
  else return [← level |>.node]
partial_fixpoint

def arguments (level : Level) : Rule (List Node) := do
  if endsArguments (← peek 0).kind then return []
  else
    let child ← level |>.node
    skipComma
    let more ← level |>.arguments
    return child :: more
partial_fixpoint

def block (level : Level) : Rule (List Node) := do
  skipNewLines
  let token ← peek 0
  if token.kind = .indentation && level.indent < token.span.length then
    let child ← level |>.node
    let more ← level |>.block
    return child :: more
  else return []
partial_fixpoint

end

end Level

def document : Rule Document := do
  skipNewLines
  let root ← expect [.identifier]
  let some kind := WidgetKind.ofName? root.value
    | fail ⟨.invalidRootKind root.value, root.span⟩
  skipNewLines
  let first ← Level.property ⟨0⟩
  let some viewModel := viewModel? first | fail ⟨.missingViewModel, first.span⟩
  let _ ← expect [.comma]
  skipNewLines
  let second ← Level.property ⟨0⟩
  let some view := view? second | fail ⟨.missingView, second.span⟩
  if isWidget view.child then
    skipNewLines
    let _ ← expect [.endOfFile]
    return ⟨kind, viewModel, view⟩
  else fail ⟨.viewNotWidget, view.child.span⟩

def fragment : Rule Node := do
  skipNewLines
  let child ← Level.node ⟨0⟩
  skipComma
  skipNewLines
  let _ ← expect [.endOfFile]
  return child

end Cursor

/-- The document of a row of tokens, and where the cursor stops. -/
def runDocument (text : String) (options : Options) (tokens : List Token) (log : Log) :
    Option (Except Problem Document × Cursor) :=
  Cursor.document.run.run (.start text options tokens log)

/-- The single node of a row of tokens, and where the cursor stops. Its log begins empty. -/
def runFragment (text : String) (options : Options) (tokens : List Token) :
    Option (Except Problem Node × Cursor) :=
  Cursor.fragment.run.run (.start text options tokens [])

end WidgetTree.Grammar
