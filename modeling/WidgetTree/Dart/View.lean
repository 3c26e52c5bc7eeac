import WidgetTree.Dart.FileName
import WidgetTree.Dart.Indent
import WidgetTree.Tree.Document

/-!
The view: a class whose build method returns the widget tree as an expression. A single value
stands between its parent's brackets; all other children stand on lines of their own.
-/

namespace WidgetTree.Dart

open WidgetTree.Tree (ConstantKind Document Leaf Node)

def leafExpression : Leaf → String → String
  | .identifier, value => value
  | .call, value => value ++ "()"
  | .callback, value => "() => " ++ value ++ "()"
  | .constant .null, _ => "null"
  | .constant .string, value => "'" ++ value ++ "'"
  | .constant _, value => value

def itemLine (indent : Indent) (level : Nat) (item : String) : String :=
  "\n" ++ indent.margin level ++ item ++ ","

def closingLine (indent : Indent) (level : Nat) : String := "\n" ++ indent.margin level

mutual

/-- The expression of a node whose first line is indented to `level`. -/
def expression (indent : Indent) (level : Nat) : Node → String
  | .leaf leaf value _ => leafExpression leaf value
  | .single .property name child _ => name ++ ": " ++ expression indent level child
  | .single .element name child _ =>
      if child.isValue then name ++ "(" ++ expression indent level child ++ ")"
      else
        name ++ "(" ++ itemLine indent (level + 1) (expression indent (level + 1) child) ++
          closingLine indent level ++ ")"
  | .many .property name children _ =>
      name ++ ": [" ++ itemLines indent (level + 1) children ++ closingLine indent level ++ "]"
  | .many .element name children _ =>
      name ++ "(" ++ itemLines indent (level + 1) children ++ closingLine indent level ++ ")"

def itemLines (indent : Indent) (level : Nat) : List Node → String
  | [] => ""
  | child :: rest =>
      itemLine indent level (expression indent level child) ++ itemLines indent level rest

end

/-- The tree that the build method returns: a bare name is a widget without arguments. -/
def rootExpression (indent : Indent) : Node → String
  | .leaf .identifier name _ => name ++ "()"
  | root => expression indent 2 root

def materialImport : String := "import 'package:flutter/material.dart';\n\n"

def view (indent : Indent) (document : Document) : String :=
  "// DO NOT WRITE CODE IN THIS FILE\n" ++
  "// IT WILL GET OVERWRITTEN WHEN THE UI CODE IS REBUILT\n\n" ++
  materialImport ++
  "import './" ++ fileName document.viewModelClass ++ "';\n\n" ++
  "class " ++ document.viewClass ++ " extends " ++ document.viewModelClass ++ " \x7b\n" ++
  indent.margin 1 ++ "@override\n" ++
  indent.margin 1 ++ "Widget build(BuildContext context) \x7b\n" ++
  indent.margin 2 ++ "return " ++ rootExpression indent document.root ++ ";\n" ++
  indent.margin 1 ++ "\x7d\n\x7d\n"

end WidgetTree.Dart
