import WidgetTree.Grammar.Node
import WidgetTree.Grammar.Significant
import WidgetTree.Lexeme.Catalogue
import WidgetTree.Tree.Document

namespace WidgetTree.Grammar

open Lexeme (Kind Token)
open WidgetTree.Tree (Document Node Property WidgetKind)

def viewModel? : Node → Option Property
  | .single .property name (.leaf .identifier value inner) span =>
      if name = "viewModel" then some ⟨name, .leaf .identifier value inner, span⟩ else none
  | _ => none

def view? : Node → Option Property
  | .single .property name child span =>
      if name = "view" then some ⟨name, child, span⟩ else none
  | _ => none

def isWidget : Node → Bool
  | .single .element .. | .many .element .. => true
  | .leaf .identifier name _ => Lexeme.isWidgetName name
  | _ => false

/-- Nothing but line breaks may stand before the end of the file. -/
def expectEnd (tokens : List Token) : Except Problem Unit :=
  (expect [.endOfFile] (skipNewLines tokens)).map fun _ => ()

/-- The kind of the root widget, its view model and its view, with a comma between the two. -/
def document (options : Options) (tokens : List Token) : Except Problem Document := do
  let root ← expect [.identifier] (skipNewLines tokens)
  let some kind := WidgetKind.ofName? root.value.value
    | .error ⟨.invalidRootKind root.value.value, root.value.span⟩
  let first ← property options 0 (skipNewLines root.rest)
  let some viewModel := viewModel? first.value
    | .error ⟨.missingViewModel, first.value.span⟩
  let comma ← expect [.comma] first.rest
  let second ← property options 0 (skipNewLines comma.rest)
  let some view := view? second.value
    | .error ⟨.missingView, second.value.span⟩
  if isWidget view.child then
    expectEnd second.rest
    return ⟨kind, viewModel, view⟩
  else .error ⟨.viewNotWidget, view.child.span⟩

def fragment (options : Options) (tokens : List Token) : Except Problem Node := do
  let read ← node options 0 (skipNewLines tokens)
  expectEnd (skipComma read.rest)
  return read.value

def parseDocument (options : Options) (tokens : List Token) : Except Problem Document :=
  document options (significant tokens)

def parseFragment (options : Options) (tokens : List Token) : Except Problem Node :=
  fragment options (significant tokens)

def reports {α : Type} (text : String) : Except Problem α → Log
  | .ok _ => []
  | .error problem => [problem.report text]

end WidgetTree.Grammar
