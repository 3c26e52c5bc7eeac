import WidgetTree.Proofs.Dart.Declared

namespace WidgetTree.Dart

open Grammar (leafPieces nodePieces isWidget)
open Lexeme (Lacks dropWhile_of_lacks takeWhile_of_lacks)
open Outline (AllWritable Printable)
open WidgetTree.Tree (Document Leaf Node Regular Role)

structure Line where
  depth : Nat
  text : List Char
  deriving DecidableEq, Repr

def Line.drawn (indent : Indent) (line : Line) : List Char := margin indent line.depth ++ line.text

def drawnBelow (indent : Indent) (lines : List Line) : List Char :=
  lines.flatMap fun line => '\n' :: line.drawn indent

def Indent.reindentedLine (indent : Indent) (line : List Char) : List Char :=
  (line.takeWhile (· = '\t')).flatMap (fun _ => List.replicate indent.width indent.char) ++
    line.dropWhile (· = '\t')

/-- The text with each tab that a line begins with replaced. -/
def Indent.reindented (indent : Indent) (text : String) : String :=
  String.ofList (['\n'].intercalate ((text.toList.splitOn '\n').map indent.reindentedLine))

def Plain (text : List Char) : Prop := '\n' ∉ text ∧ text.head? ≠ some '\t'

instance (text : List Char) : Decidable (Plain text) := inferInstanceAs (Decidable (_ ∧ _))

/-- The text consists of the lines, whatever they are indented by. -/
structure Drawn (text : Indent → String) (lines : List Line) : Prop where
  some : lines ≠ []
  plain : ∀ line ∈ lines, Plain line.text
  whole : ∀ indent, '\n' :: (text indent).toList = drawnBelow indent lines

section Lines

variable {indent : Indent} {line : Line} {lines : List Line} {text : Indent → String}
  {front rest : List Char}

theorem Plain.append (plain : Plain front) (plain' : Plain rest) : Plain (front ++ rest) := by
  refine ⟨fun member => (List.mem_append.mp member).elim plain.1 plain'.1, ?_⟩
  cases front with
  | nil => exact plain'.2
  | cons c front => exact plain.2

theorem plain_of_isWord {word : List Char} (isWord : IsWord word) : Plain word :=
  ⟨unbroken_word isWord, fun first =>
    not_mem_of_spelled isWord.2 (by decide) (List.mem_of_head? first)⟩

theorem drawnBelow_nil (indent : Indent) : drawnBelow indent [] = [] := rfl

theorem drawnBelow_cons (indent : Indent) (line : Line) (lines : List Line) :
    drawnBelow indent (line :: lines) = '\n' :: (line.drawn indent ++ drawnBelow indent lines) :=
  rfl

theorem drawnBelow_append (indent : Indent) (lines more : List Line) :
    drawnBelow indent (lines ++ more) = drawnBelow indent lines ++ drawnBelow indent more :=
  List.flatMap_append

theorem drawnBelow_eq (some : lines ≠ []) :
    drawnBelow indent lines = '\n' :: ['\n'].intercalate (lines.map (Line.drawn indent)) := by
  induction lines with
  | nil => exact absurd rfl some
  | cons line more ih =>
      cases more with
      | nil =>
          rw [List.map_singleton, List.intercalate_singleton, drawnBelow, List.flatMap_singleton]
      | cons second more =>
          have behind := ih (List.cons_ne_nil second more)
          rw [List.map_cons] at behind
          rw [List.map_cons, List.map_cons, List.intercalate_cons_cons, drawnBelow_cons, behind,
            List.append_assoc, List.singleton_append]

theorem margin_tabs (depth : Nat) : margin .tabs depth = List.replicate depth '\t' := by
  rw [margin, Indent.tabs, Nat.mul_one]

theorem eq_tab_of_mem_margin (depth : Nat) :
    ∀ c ∈ margin .tabs depth, decide (c = '\t') = true := by
  intro c member
  rw [margin_tabs] at member
  exact decide_eq_true (List.eq_of_mem_replicate member)

theorem flatMap_replicate (indent : Indent) (depth : Nat) (c : Char) :
    (List.replicate depth c).flatMap (fun _ => List.replicate indent.width indent.char) =
      margin indent depth := by
  rw [List.flatMap_replicate, List.flatten_replicate_replicate, margin]

section Plain

variable (plain : Plain line.text)
include plain

theorem lacks_tab : Lacks (· = '\t') line.text := by
  obtain ⟨-, first⟩ := plain
  rw [Lacks]
  cases text : line.text with
  | nil => rfl
  | cons c rest => simpa [text] using first

theorem takeWhile_drawn :
    (line.drawn .tabs).takeWhile (· = '\t') = List.replicate line.depth '\t' := by
  rw [Line.drawn, List.takeWhile_append_of_pos (eq_tab_of_mem_margin line.depth),
    takeWhile_of_lacks (lacks_tab plain), List.append_nil, margin_tabs]

theorem dropWhile_drawn : (line.drawn .tabs).dropWhile (· = '\t') = line.text := by
  rw [Line.drawn, List.dropWhile_append_of_pos (eq_tab_of_mem_margin line.depth),
    dropWhile_of_lacks (lacks_tab plain)]

theorem unbroken_drawn : '\n' ∉ line.drawn .tabs := by
  intro member
  rcases List.mem_append.mp member with tab | inside
  · exact absurd (eq_tab_of_mem_margin line.depth _ tab) (by decide)
  · exact plain.1 inside

theorem reindentedLine_drawn (indent : Indent) :
    indent.reindentedLine (line.drawn .tabs) = line.drawn indent := by
  rw [Indent.reindentedLine, takeWhile_drawn plain, dropWhile_drawn plain, flatMap_replicate,
    Line.drawn]

end Plain

namespace Drawn

variable (drawn : Drawn text lines)
include drawn

theorem toList_eq (indent : Indent) :
    (text indent).toList = ['\n'].intercalate (lines.map (Line.drawn indent)) := by
  have whole := drawn.whole indent
  rw [drawnBelow_eq drawn.some] at whole
  exact (List.cons.inj whole).2

theorem splitOn_eq : (text .tabs).toList.splitOn '\n' = lines.map (Line.drawn .tabs) := by
  rw [drawn.toList_eq .tabs]
  refine List.splitOn_intercalate '\n' ?_ (by simpa using drawn.some)
  rw [List.forall_mem_map]
  exact fun line member => unbroken_drawn (drawn.plain line member)

theorem reindented (indent : Indent) : text indent = indent.reindented (text .tabs) := by
  have each : (lines.map (Line.drawn .tabs)).map indent.reindentedLine =
      lines.map (Line.drawn indent) := by
    rw [List.map_map]
    exact List.map_congr_left fun line member =>
      reindentedLine_drawn (drawn.plain line member) indent
  calc
    text indent = String.ofList (['\n'].intercalate (lines.map (Line.drawn indent))) := by
      rw [← drawn.toList_eq, String.ofList_toList]
    _ = indent.reindented (text .tabs) := by
      rw [← each, ← drawn.splitOn_eq]
      rfl

end Drawn

end Lines

section Layout

/-- Lines between two brackets, with the line that ends with the first one and the line that the
second one begins. -/
def bracketed (role : Role) (depth : Nat) (front back : List Char) (inner : List Line) :
    List Line :=
  ⟨depth, front ++ listOpening role⟩ :: (inner ++ [⟨depth, listClosing role :: back⟩])

mutual

/-- The lines of an expression, with what stands in front of it on the first line and behind it on
the last. -/
def layout (depth : Nat) (front back : List Char) : Node → List Line
  | .leaf leaf value _ => [⟨depth, front ++ (leafText leaf value ++ back)⟩]
  | .single role name child _ =>
      if role = .property || child.isValue then
        layout depth (front ++ (name.toList ++ opening role)) (closing role ++ back) child
      else
        bracketed role depth (front ++ (name.toList ++ opening role)) back
          (layout (depth + 1) [] [','] child)
  | .many role name children _ =>
      bracketed role depth (front ++ (name.toList ++ opening role)) back
        (layoutAll (depth + 1) children)

def layoutAll (depth : Nat) : List Node → List Line
  | [] => []
  | node :: more => layout depth [] [','] node ++ layoutAll depth more

end

variable {indent : Indent} {depth : Nat} {front back : List Char} {role : Role} {name : String}
  {span : Text.Span} {node : Node} {children : List Node}

theorem inline_of_beside? {child : Node} (found : beside? role children = some child) :
    children = [child] ∧ (decide (role = .property) || child.isValue) = true := by
  obtain ⟨rfl, inline⟩ := beside?_eq_some found
  refine ⟨rfl, ?_⟩
  cases role with
  | property => rfl
  | element => simpa using inline rfl

theorem not_inline_of_beside? (none : beside? role [node] = none) :
    ¬(decide (role = .property) || node.isValue) = true := by
  intro inline
  rw [beside?, if_pos inline] at none
  cases none

theorem layout_beside {child : Node} (found : beside? role children = some child) :
    layout depth front back (.parent role name span children) =
      layout depth (front ++ (name.toList ++ opening role)) (closing role ++ back) child := by
  obtain ⟨rfl, inline⟩ := inline_of_beside? found
  exact if_pos inline

theorem layout_below (none : beside? role children = none) :
    layout depth front back (.parent role name span children) =
      bracketed role depth (front ++ (name.toList ++ opening role)) back
        (layoutAll (depth + 1) children) := by
  match children with
  | [] | _ :: _ :: _ => rfl
  | [only] =>
      rw [Node.parent, layout, if_neg (not_inline_of_beside? none), layoutAll, layoutAll,
        List.append_nil]

theorem drawnBelow_bracketed (indent : Indent) (role : Role) (depth : Nat) (front back : List Char)
    (inner : List Line) :
    drawnBelow indent (bracketed role depth front back inner) =
      '\n' :: (margin indent depth ++ (front ++ (listOpening role ++ (drawnBelow indent inner ++
        '\n' :: (margin indent depth ++ listClosing role :: back))))) := by
  simp only [bracketed, drawnBelow_cons, drawnBelow_append, drawnBelow_nil, Line.drawn,
    List.append_assoc, List.append_nil]

theorem drawnBelow_layoutAll (depth : Nat) {nodes : List Node}
    (each : ∀ node ∈ nodes, ∀ front back, drawnBelow indent (layout depth front back node) =
      '\n' :: (margin indent depth ++ (front ++ (shown indent depth node ++ back))))
    (last : List Char) :
    drawnBelow indent (layoutAll depth nodes) ++ '\n' :: last =
      '\n' :: listed indent depth last nodes := by
  induction nodes with
  | nil => rfl
  | cons node more ih =>
      rw [List.forall_mem_cons] at each
      rw [layoutAll, drawnBelow_append, each.1, List.append_assoc, ih each.2, listed]
      simp only [List.cons_append, List.append_assoc, List.nil_append]

theorem drawnBelow_layout (regular : Regular node) (indent : Indent) (depth : Nat)
    (front back : List Char) :
    drawnBelow indent (layout depth front back node) =
      '\n' :: (margin indent depth ++ (front ++ (shown indent depth node ++ back))) := by
  induction regular generalizing depth front back with
  | leaf leaf value span =>
      rw [layout, drawnBelow_cons, drawnBelow_nil, List.append_nil, Line.drawn]
      rfl
  | @parent role name span children some all ih =>
      -- An only child may stand on the line of its header; all others have lines of their own.
      cases found : beside? role children with
      | some child =>
          have member := mem_of_beside? found
          rw [layout_beside found, ih child member, shown_beside found]
          simp only [List.append_assoc]
      | none =>
          have items := drawnBelow_layoutAll (depth + 1)
            (fun child member front back => ih child member (depth + 1) front back)
            (margin indent depth ++ listClosing role :: back)
          rw [layout_below found, drawnBelow_bracketed, items, shown_below found some]
          simp only [List.append_assoc]

theorem plain_closing (role : Role) : Plain (closing role) := by
  cases role <;> decide

theorem plain_header (isWord : IsWord name.toList) (plain : Plain front) :
    Plain (front ++ (name.toList ++ opening role)) := by
  have opens : Plain (opening role) := by cases role <;> decide
  exact plain.append ((plain_of_isWord isWord).append opens)

theorem plain_bracketed (role : Role) (depth : Nat) {inner : List Line} (plain : Plain front)
    (plain' : Plain back) (inside : ∀ line ∈ inner, Plain line.text) :
    ∀ line ∈ bracketed role depth front back inner, Plain line.text := by
  have opens : Plain (listOpening role) := by cases role <;> decide
  have closes : Plain [listClosing role] := by cases role <;> decide
  rw [bracketed, List.forall_mem_cons, List.forall_mem_append, List.forall_mem_singleton]
  exact ⟨plain.append opens, inside, closes.append plain'⟩

theorem plain_leafText {leaf : Leaf} {value : String}
    (writable : AllWritable (leafPieces value leaf)) : Plain (leafText leaf value) := by
  refine ⟨unbroken_leafText writable, fun first => ?_⟩
  have opens := opening_leafText writable
  generalize leafText leaf value = text at opens first
  cases opens with
  | word isWord => exact (plain_of_isWord isWord).2 first
  | applied isWord =>
      obtain ⟨c, rest, rfl, -⟩ := exists_cons_of_isWord isWord
      exact (plain_of_isWord isWord).2 first
  | marked mark rest => rcases mark with rfl | rfl <;> cases first

theorem plain_layoutAll {nodes : List Node}
    (each : ∀ node ∈ nodes, ∀ line ∈ layout depth [] [','] node, Plain line.text) :
    ∀ line ∈ layoutAll depth nodes, Plain line.text := by
  induction nodes with
  | nil => exact List.forall_mem_nil _
  | cons node more ih =>
      rw [List.forall_mem_cons] at each
      rw [layoutAll, List.forall_mem_append]
      exact ⟨each.1, ih each.2⟩

theorem plain_layout (legible : Legible node) (depth : Nat) (plain : Plain front)
    (plain' : Plain back) : ∀ line ∈ layout depth front back node, Plain line.text := by
  obtain ⟨regular, writable⟩ := legible
  induction regular generalizing depth front back with
  | leaf leaf value span =>
      rw [layout, List.forall_mem_singleton]
      exact plain.append ((plain_leafText writable).append plain')
  | @parent role name span children some all ih =>
      obtain ⟨isWord, legible⟩ := Legible.parent ⟨.parent role name span some all, writable⟩
      have header : Plain (front ++ (name.toList ++ opening role)) := plain_header isWord plain
      cases found : beside? role children with
      | some child =>
          have member := mem_of_beside? found
          rw [layout_beside found]
          exact ih child member depth header ((plain_closing role).append plain')
            (legible child member).writable
      | none =>
          rw [layout_below found]
          refine plain_bracketed role depth header plain' (plain_layoutAll fun child member => ?_)
          exact ih child member (depth + 1) (by decide) (by decide) (legible child member).writable

end Layout

section Files

def viewHeader (document : Document) : List Line :=
  [⟨0, "// DO NOT WRITE CODE IN THIS FILE".toList⟩,
    ⟨0, "// IT WILL GET OVERWRITTEN WHEN THE UI CODE IS REBUILT".toList⟩,
    ⟨0, []⟩,
    ⟨0, "import 'package:flutter/material.dart';".toList⟩,
    ⟨0, []⟩,
    ⟨0, ("import './" ++ fileName document.viewModelClass ++ "';").toList⟩,
    ⟨0, []⟩,
    ⟨0, ("class " ++ document.viewClass ++ " extends " ++ document.viewModelClass ++
      " \x7b").toList⟩,
    ⟨1, "@override".toList⟩,
    ⟨1, "Widget build(BuildContext context) \x7b".toList⟩]

def rootLines : Node → List Line
  | .leaf .identifier name _ => [⟨2, ("return " ++ name ++ "();").toList⟩]
  | root => layout 2 "return ".toList [';'] root

def viewFooter : List Line := [⟨1, ['\x7d']⟩, ⟨0, ['\x7d']⟩, ⟨0, []⟩]

def memberLines (member : Member) : List Line :=
  match member.form with
  | .field =>
      [⟨1, ("var " ++ member.name ++ " = null; // TODO: Populate field " ++ member.name).toList⟩]
  | .method =>
      [⟨1, (member.name ++ "() \x7b").toList⟩,
        ⟨2, ("// TODO: Populate function " ++ member.name).toList⟩, ⟨1, ['\x7d']⟩]

def bodyLines : List Member → List Line
  | [] => [⟨0, []⟩]
  | [member] => memberLines member
  | member :: next :: others => memberLines member ++ ⟨0, []⟩ :: bodyLines (next :: others)

def viewModelLines (document : Document) : List Line :=
  [⟨0, "import 'package:flutter/material.dart';".toList⟩,
    ⟨0, []⟩,
    ⟨0, ("class " ++ document.viewModelClass ++ " extends StatelessWidget \x7b").toList⟩] ++
    (bodyLines (members document.root) ++ [⟨0, ['\x7d']⟩, ⟨0, []⟩])

variable {document : Document} {root : Node} {member : Member}

theorem margin_zero (indent : Indent) : margin indent 0 = [] := by
  rw [margin, Nat.zero_mul, List.replicate_zero]

theorem rootLines_parent {role : Role} {name : String} {span : Text.Span} {children : List Node} :
    rootLines (.parent role name span children) =
      layout 2 "return ".toList [';'] (.parent role name span children) := by
  match children with
  | [] | [_] | _ :: _ :: _ => rfl

theorem drawnBelow_rootLines (legible : Legible root) (shows : isWidget root = true)
    (indent : Indent) :
    drawnBelow indent (rootLines root) = '\n' :: (margin indent 2 ++ ("return ".toList ++
      ((rootExpression indent root).toList ++ [';']))) := by
  have whole := drawnBelow_layout legible.regular indent 2 "return ".toList [';']
  obtain ⟨regular, -⟩ := legible
  cases regular with
  | leaf leaf value span =>
      cases leaf with
      | identifier =>
          rw [rootLines, drawnBelow_cons, drawnBelow_nil, List.append_nil, Line.drawn,
            rootExpression]
          simp only [String.toList_append, List.append_assoc]
          rfl
      | call | callback | constant => cases shows
  | parent role name span some all =>
      rw [rootExpression_parent, rootLines_parent, whole]
      rfl

theorem intercalate_rootLines (legible : Legible root) (shows : isWidget root = true)
    (indent : Indent) :
    ['\n'].intercalate ((rootLines root).map (Line.drawn indent)) =
      margin indent 2 ++ ("return ".toList ++ ((rootExpression indent root).toList ++ [';'])) := by
  have whole := drawnBelow_rootLines legible shows indent
  have some : rootLines root ≠ [] := by
    intro none
    rw [none, drawnBelow_nil] at whole
    cases whole
  rw [drawnBelow_eq some] at whole
  exact (List.cons.inj whole).2

theorem drawnBelow_viewLines (legible : Legible document.root)
    (shows : isWidget document.root = true) (indent : Indent) :
    '\n' :: (view indent document).toList =
      drawnBelow indent (viewHeader document ++ (rootLines document.root ++ viewFooter)) := by
  have warning : "// DO NOT WRITE CODE IN THIS FILE\n" =
      "// DO NOT WRITE CODE IN THIS FILE" ++ "\n" := by decide
  have rebuilt : "// IT WILL GET OVERWRITTEN WHEN THE UI CODE IS REBUILT\n\n" =
      "// IT WILL GET OVERWRITTEN WHEN THE UI CODE IS REBUILT" ++ "\n" ++ "\n" := by decide
  have material : materialImport = "import 'package:flutter/material.dart';" ++ "\n" ++ "\n" := by
    decide
  have imported : "';\n\n" = "';" ++ "\n" ++ "\n" := by decide
  have opened : " \x7b\n" = " \x7b" ++ "\n" := by decide
  have override : "@override\n" = "@override" ++ "\n" := by decide
  have method : "Widget build(BuildContext context) \x7b\n" =
      "Widget build(BuildContext context) \x7b" ++ "\n" := by decide
  have closed : ";\n" = ";" ++ "\n" := by decide
  have ends : "\x7d\n\x7d\n" = "\x7d" ++ "\n" ++ "\x7d" ++ "\n" := by decide
  have feed : "\n".toList = ['\n'] := rfl
  have semicolon : ";".toList = [';'] := rfl
  have brace : "\x7d".toList = ['\x7d'] := rfl
  unfold view viewHeader viewFooter
  simp only [warning, rebuilt, material, imported, opened, override, method, closed, ends, feed,
    semicolon, brace, drawnBelow_append, drawnBelow_cons, drawnBelow_nil,
    drawnBelow_rootLines legible shows, Line.drawn, margin_zero, toList_margin,
    String.toList_append, List.append_assoc, List.cons_append, List.nil_append, List.append_nil,
    -String.reduceAppend]

theorem drawnBelow_memberLines (indent : Indent) (member : Member) :
    drawnBelow indent (memberLines member) = '\n' :: (memberText indent member).toList := by
  obtain ⟨form, name⟩ := member
  cases form with
  | field =>
      simp only [memberLines, memberText, drawnBelow_cons, drawnBelow_nil, Line.drawn,
        String.toList_append, toList_margin, List.append_assoc, List.append_nil]
  | method =>
      have opened : "() \x7b\n" = "() \x7b" ++ "\n" := by decide
      have feed : "\n".toList = ['\n'] := rfl
      have brace : "\x7d".toList = ['\x7d'] := rfl
      simp only [memberLines, memberText, opened, feed, brace, drawnBelow_cons, drawnBelow_nil,
        Line.drawn, String.toList_append, toList_margin, List.append_assoc, List.cons_append,
        List.nil_append, List.append_nil, -String.reduceAppend]

theorem drawnBelow_bodyLines (indent : Indent) (members : List Member) :
    drawnBelow indent (bodyLines members ++ [⟨0, ['\x7d']⟩, ⟨0, []⟩]) =
      '\n' :: bodyText indent members := by
  have last : drawnBelow indent [⟨0, ['\x7d']⟩, ⟨0, []⟩] = "\n\x7d\n".toList := by
    simp only [drawnBelow_cons, drawnBelow_nil, Line.drawn, margin_zero]
    rfl
  induction members with
  | nil =>
      rw [bodyLines, drawnBelow_append, last, drawnBelow_cons, drawnBelow_nil, Line.drawn,
        margin_zero]
      rfl
  | cons member more ih =>
      cases more with
      | nil =>
          rw [bodyLines, drawnBelow_append, last, drawnBelow_memberLines, bodyText_singleton]
          rfl
      | cons next others =>
          rw [bodyLines, List.append_assoc, List.cons_append, drawnBelow_append, drawnBelow_cons,
            ih, drawnBelow_memberLines, bodyText_cons_cons, Line.drawn, margin_zero]
          rfl

theorem drawnBelow_viewModelLines (indent : Indent) (document : Document) :
    '\n' :: (viewModel indent document).toList = drawnBelow indent (viewModelLines document) := by
  have material : materialImport = "import 'package:flutter/material.dart';" ++ "\n" ++ "\n" := by
    decide
  have opened : " extends StatelessWidget \x7b\n" =
      " extends StatelessWidget \x7b" ++ "\n" := by decide
  have feed : "\n".toList = ['\n'] := rfl
  unfold viewModel viewModelLines
  simp only [material, opened, feed, drawnBelow_cons, drawnBelow_bodyLines, bodyText, Line.drawn,
    margin_zero, String.toList_append, List.append_assoc, List.cons_append, List.nil_append,
    -String.reduceAppend]

theorem plain_rootLines (legible : Legible root) (shows : isWidget root = true) :
    ∀ line ∈ rootLines root, Plain line.text := by
  have whole : ∀ line ∈ layout 2 "return ".toList [';'] root, Plain line.text :=
    plain_layout legible 2 (by decide) (by decide)
  obtain ⟨regular, writable⟩ := legible
  cases regular with
  | leaf leaf value span =>
      obtain ⟨rfl, isWord⟩ := isWord_of_bare ⟨.leaf leaf value span, writable⟩ shows
      rw [rootLines, List.forall_mem_singleton, String.toList_append, String.toList_append]
      exact (Plain.append (by decide) (plain_of_isWord isWord)).append (by decide)
  | parent role name span some all =>
      rw [rootLines_parent]
      exact whole

theorem plain_fileStem {className : String} (isWord : IsWord className.toList) :
    Plain (fileStem className).toList := by
  refine ⟨unbroken_fileStem isWord, fun first => ?_⟩
  have low : Text.isLow '\t' = true := by decide
  exact not_mem_of_spelled isWord.2 (by decide) (mem_fileStem (List.mem_of_head? first) low)

theorem plain_viewHeader (printable : Printable document) :
    ∀ line ∈ viewHeader document, Plain line.text := by
  have viewModel := plain_of_isWord (isWord_viewModelClass printable)
  have view := plain_of_isWord (isWord_viewClass printable)
  have file := plain_fileStem (isWord_viewModelClass printable)
  have imports : Plain ("import './" ++ fileName document.viewModelClass ++ "';").toList := by
    simp only [fileName, String.toList_append]
    exact (Plain.append (by decide) (file.append (by decide))).append (by decide)
  have opens : Plain ("class " ++ document.viewClass ++ " extends " ++ document.viewModelClass ++
      " \x7b").toList := by
    simp only [String.toList_append]
    exact (((Plain.append (by decide) view).append (by decide)).append viewModel).append
      (by decide)
  simp only [viewHeader, List.forall_mem_cons]
  exact ⟨by decide, by decide, by decide, by decide, by decide, imports, by decide, opens,
    by decide, by decide, List.forall_mem_nil _⟩

theorem plain_memberLines (isWord : IsWord member.name.toList) :
    ∀ line ∈ memberLines member, Plain line.text := by
  have name := plain_of_isWord isWord
  rw [memberLines]
  split
  · rw [List.forall_mem_singleton]
    simp only [String.toList_append]
    exact ((Plain.append (by decide) name).append (by decide)).append name
  · simp only [List.forall_mem_cons, String.toList_append]
    exact ⟨name.append (by decide), Plain.append (by decide) name, by decide,
      List.forall_mem_nil _⟩

theorem plain_bodyLines {members : List Member}
    (words : ∀ member ∈ members, IsWord member.name.toList) :
    ∀ line ∈ bodyLines members, Plain line.text := by
  induction members with
  | nil => exact List.forall_mem_singleton.mpr (by decide)
  | cons member more ih =>
      rw [List.forall_mem_cons] at words
      cases more with
      | nil => exact plain_memberLines words.1
      | cons next others =>
          rw [bodyLines, List.forall_mem_append, List.forall_mem_cons]
          exact ⟨plain_memberLines words.1, by decide, ih words.2⟩

theorem drawn_view (printable : Printable document) :
    Drawn (view · document) (viewHeader document ++ (rootLines document.root ++ viewFooter)) where
  some := List.cons_ne_nil _ _
  plain := by
    rw [List.forall_mem_append, List.forall_mem_append]
    exact ⟨plain_viewHeader printable, plain_rootLines (legible_root printable) printable.shows,
      by decide⟩
  whole := drawnBelow_viewLines (legible_root printable) printable.shows

theorem drawn_viewModel (printable : Printable document) :
    Drawn (viewModel · document) (viewModelLines document) where
  some := List.cons_ne_nil _ _
  plain := by
    have words := isWord_of_mem_members (legible_root printable).writable
    have name := plain_of_isWord (isWord_viewModelClass printable)
    simp only [viewModelLines, List.forall_mem_append, List.forall_mem_cons, String.toList_append]
    exact ⟨⟨by decide, by decide, (Plain.append (by decide) name).append (by decide),
      List.forall_mem_nil _⟩, plain_bodyLines words, by decide, by decide, List.forall_mem_nil _⟩
  whole indent := drawnBelow_viewModelLines indent document

end Files

end WidgetTree.Dart
