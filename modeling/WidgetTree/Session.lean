import WidgetTree.Compilation
import WidgetTree.Lexeme.Reader

namespace WidgetTree

open Grammar (Options Problem)
open Lexeme (Token)
open WidgetTree.Tree (Document Node)

structure Session where
  options : Options
  text : String := ""
  tokens : List Token := []
  lexemeLog : Log := []
  grammarLog : Log := []

namespace Session

inductive Request
  /-- Makes `text` current and reads its first lexemes, or all where no number is given. -/
  | read (text : String) (count : Option Nat)
  | document
  | fragment
  | takeLexemeLog
  | takeGrammarLog
  deriving DecidableEq

inductive Answer
  | tokens (tokens : List Token)
  | document (outcome : Except Problem Document)
  | fragment (outcome : Except Problem Node)
  | taken (log : Log)

def pulled (text : String) (count : Option Nat) : List Token × Lexeme.Reader :=
  match count with
  | some count => (Lexeme.Reader.start text []).pull count
  | none => (Lexeme.Reader.start text []).pullAll

def step (session : Session) : Request → Session × Answer
  | .read text count =>
      let (tokens, reader) := pulled text count
      ({ session with text := text, tokens := tokens, lexemeLog := reader.log }, .tokens tokens)
  | .document =>
      let outcome := Grammar.parseDocument session.options session.tokens
      ({ session with grammarLog := Grammar.reports session.text outcome }, .document outcome)
  | .fragment =>
      let outcome := Grammar.parseFragment session.options session.tokens
      ({ session with grammarLog := Grammar.reports session.text outcome }, .fragment outcome)
  | .takeLexemeLog => ({ session with lexemeLog := [] }, .taken session.lexemeLog)
  | .takeGrammarLog => ({ session with grammarLog := [] }, .taken session.grammarLog)

end Session

end WidgetTree
