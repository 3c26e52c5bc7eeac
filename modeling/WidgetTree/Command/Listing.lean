import WidgetTree.Json
import WidgetTree.Lexeme.Token
import WidgetTree.Report
import WidgetTree.Tree.Document

namespace WidgetTree.Command

open Lexeme (Token)
open Text (Location Span)
open WidgetTree.Tree (Document Leaf Node Property)

def locationListing (place : Location) : Json :=
  .object [("index", .number place.index), ("line", .number place.line),
    ("column", .number place.column)]

def spanListing (span : Span) : Json :=
  .object [("start", locationListing span.start), ("end", locationListing span.stop)]

def tokenListing (token : Token) : Json :=
  .object [("kind", .text token.kind.name), ("category", .text token.category.name),
    ("value", .text token.value), ("span", spanListing token.span)]

def reportListing (report : Report) : Json :=
  .object [("message", .text report.message), ("severity", .text report.severity.label),
    ("span", spanListing report.span), ("source_lines", .array (report.lines.map .text))]

def lexemesListing (tokens : List Token) (log : Log) : Json :=
  .object [("tokens", .array (tokens.map tokenListing)),
    ("diagnostics", .array (log.map reportListing))]

def leafFields : Leaf → List (String × Json)
  | .constant kind => [("constant_kind", .text kind.label)]
  | _ => []

mutual

def nodeListing : Node → Json
  | .leaf leaf value _ =>
      .object ([("kind", .text leaf.label), ("value", .text value)] ++ leafFields leaf)
  | .single role name child _ =>
      .object [("kind", .text (role.label ++ "Single")), ("value", .text name),
        ("child", nodeListing child)]
  | .many role name children _ =>
      .object [("kind", .text role.label), ("value", .text name),
        ("children", .array (nodesListing children))]

def nodesListing : List Node → List Json
  | [] => []
  | node :: rest => nodeListing node :: nodesListing rest

end

def propertyListing (property : Property) : Json :=
  .object [("value", .text property.name), ("child", nodeListing property.child)]

def documentListing (document : Document) : Json :=
  .object [("kind", .text document.kind.name),
    ("view_model", propertyListing document.viewModel), ("view", propertyListing document.view)]

end WidgetTree.Command
