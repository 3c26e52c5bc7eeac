import WidgetTree.Grammar.Document
import WidgetTree.Lexeme.Stream

namespace WidgetTree

open Grammar (Options Problem)
open Lexeme (Token)
open WidgetTree.Tree (Document)

structure Compilation where
  tokens : List Token
  outcome : Except Problem Document
  log : Log

/-- The findings on the lexemes come first, then that on the document. -/
def compile (options : Options) (text : String) : Compilation :=
  let lexemes := Lexeme.row text
  let tokens := lexemes.map (·.token)
  let outcome := Grammar.parseDocument options tokens
  ⟨tokens, outcome, Lexeme.reports text lexemes ++ Grammar.reports text outcome⟩

/-- The document of a text alone. What was found on its lexemes is not kept. -/
def documentOf (text : String) : Except Problem Document := (compile {} text).outcome

def Compilation.hasErrors (compilation : Compilation) : Bool :=
  !compilation.outcome.isOk || compilation.log.hasErrors

end WidgetTree
