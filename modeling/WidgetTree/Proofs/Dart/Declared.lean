import WidgetTree.Proofs.Dart.Literals
import WidgetTree.Proofs.Dart.Members

/-!
What a view model declares for the names in a view. Main definition: `declared?`, the members as
they are read from the text of the class. Main statements: `declared?_viewModel`, they are the
members that it was written for, and `declared_of_used`, a name below the root is declared once, in
the form in which it is used first.
-/

namespace WidgetTree.Dart

open Grammar (Options leafPieces nodePieces nodesPieces nodesPieces_append)
open Lexeme (Lacks isSpelling)
open Outline (AllWritable printable_of_parse)
open Text (Span)
open WidgetTree.Tree (Context Document Leaf Node mem_subtrees_iff subtreesOf)

section Reading

def announced (text : List Char) : Member :=
  match text.dropPrefix? "var ".toList with
  | some rest => ⟨.field, firstWord rest⟩
  | none => ⟨.method, firstWord text⟩

def declaration? (indent : Indent) (text : List Char) : Option (Member × List Char) :=
  let member := announced (text.drop (margin indent 1).length)
  (text.dropPrefix? (memberText indent member).toList).map (member, ·)

theorem append_of_declaration? {indent : Indent} {text rest : List Char} {member : Member}
    (read : declaration? indent text = some (member, rest)) :
    text = (memberText indent member).toList ++ rest := by
  obtain ⟨left, dropped, same⟩ := Option.map_eq_some_iff.mp read
  obtain ⟨found, rfl⟩ := Prod.mk.inj same
  obtain ⟨front, whole, equal⟩ := List.dropPrefix?_eq_some_iff.mp dropped
  rw [← found, ← eq_of_beq equal]
  exact whole

def declarations? (indent : Indent) (text : List Char) : Option (List Member) :=
  match _read : declaration? indent text with
  | some (member, '\n' :: '\n' :: more) => (declarations? indent more).map (member :: ·)
  | some (member, rest) => if rest = "\n\x7d\n".toList then some [member] else none
  | none => none
termination_by text.length
decreasing_by
  have whole := congrArg List.length (append_of_declaration? _read)
  simp only [List.length_append, List.length_cons] at whole
  omega

/-- The members that a class declares, read from its text. -/
def declared? (indent : Indent) (text : String) : Option (List Member) :=
  let body := (text.toList.dropWhile (· != '\x7b')).drop 2
  if body = "\n\x7d\n".toList then some [] else declarations? indent body

variable {indent : Indent} {member : Member} {text rest : List Char}

theorem announced_field {name : String} (word : IsWord name.toList)
    (lacks : Lacks isSpelling rest) :
    announced ("var ".toList ++ (name.toList ++ rest)) = ⟨.field, name⟩ := by
  have first : firstWord (name.toList ++ rest) = name :=
    firstWord_append [] word (List.forall_mem_nil _) lacks
  rw [announced, List.dropPrefix?_append_of_beq _ (BEq.rfl)]
  exact congrArg (Member.mk .field) first

theorem announced_method {name : String} (word : IsWord name.toList) :
    announced (name.toList ++ '(' :: rest) = ⟨.method, name⟩ := by
  have first : firstWord (name.toList ++ '(' :: rest) = name :=
    firstWord_append [] word (List.forall_mem_nil _) rfl
  have other : (name.toList ++ '(' :: rest).dropPrefix? "var ".toList = none := by
    rw [Option.eq_none_iff_forall_ne_some]
    intro left dropped
    obtain ⟨front, whole, equal⟩ := List.dropPrefix?_eq_some_iff.mp dropped
    have same : name.toList ++ '(' :: rest = "var".toList ++ ' ' :: left := by
      rw [whole, eq_of_beq equal]
      rfl
    have spelled : Lexeme.Spelled "var".toList := by decide
    have stops : Lacks isSpelling ('(' :: rest) := rfl
    have stops' : Lacks isSpelling (' ' :: left) := rfl
    obtain ⟨-, behind⟩ := split_run word.2 spelled stops stops' same
    exact absurd (List.cons.inj behind).1 (by decide)
  rw [announced, other, first]

theorem memberText_eq_margin (indent : Indent) (word : IsWord member.name.toList) :
    ∃ inner, (memberText indent member).toList = margin indent 1 ++ inner ∧
      ∀ rest, announced (inner ++ rest) = member := by
  obtain ⟨form, name⟩ := member
  cases form with
  | field =>
      refine ⟨"var ".toList ++
        (name.toList ++ (" = null; // TODO: Populate field ".toList ++ name.toList)), ?_, ?_⟩
      · simp only [memberText, String.toList_append, toList_margin, List.append_assoc]
      · intro rest
        simp only [List.append_assoc]
        exact announced_field word rfl
  | method =>
      refine ⟨name.toList ++ '(' :: (") \x7b\n".toList ++ (margin indent 2 ++
        ("// TODO: Populate function ".toList ++ (name.toList ++ ('\n' ::
          (margin indent 1 ++ "\x7d".toList)))))), ?_, ?_⟩
      · simp only [memberText, String.toList_append, toList_margin, List.append_assoc]
        rfl
      · intro rest
        rw [List.append_assoc]
        exact announced_method word

theorem declaration?_append (indent : Indent) (word : IsWord member.name.toList)
    (rest : List Char) :
    declaration? indent ((memberText indent member).toList ++ rest) = some (member, rest) := by
  obtain ⟨inner, split, announces⟩ := memberText_eq_margin indent word
  have behind : ((memberText indent member).toList ++ rest).drop (margin indent 1).length =
      inner ++ rest := by
    rw [split, List.append_assoc]
    exact List.drop_left
  rw [declaration?, behind, announces, List.dropPrefix?_append_of_beq _ (BEq.rfl)]
  rfl

theorem declarations?_last (word : IsWord member.name.toList) :
    declarations? indent ((memberText indent member).toList ++ "\n\x7d\n".toList) =
      some [member] := by
  have read := declaration?_append indent word "\n\x7d\n".toList
  rw [declarations?.eq_def]
  split
  · next found => cases found.symm.trans read
  · next found =>
      cases found.symm.trans read
      rfl
  · next none => cases none.symm.trans read

theorem declarations?_more (word : IsWord member.name.toList) (more : List Char) :
    declarations? indent ((memberText indent member).toList ++ '\n' :: '\n' :: more) =
      (declarations? indent more).map (member :: ·) := by
  have read := declaration?_append indent word ('\n' :: '\n' :: more)
  rw [declarations?.eq_def]
  split
  · next found =>
      cases found.symm.trans read
      rfl
  · next other found =>
      cases found.symm.trans read
      exact absurd rfl (other more)
  · next none => cases none.symm.trans read

def bodyText (indent : Indent) (members : List Member) : List Char :=
  ("\n\n".intercalate (members.map (memberText indent)) ++ "\n\x7d\n").toList

theorem bodyText_singleton (indent : Indent) (member : Member) :
    bodyText indent [member] = (memberText indent member).toList ++ "\n\x7d\n".toList := by
  rw [bodyText, List.map_singleton, String.intercalate_singleton, String.toList_append]

theorem bodyText_cons_cons (indent : Indent) (member next : Member) (others : List Member) :
    bodyText indent (member :: next :: others) =
      (memberText indent member).toList ++
        '\n' :: '\n' :: bodyText indent (next :: others) := by
  simp only [bodyText, List.map_cons, String.intercalate_cons_cons, String.toList_append,
    List.append_assoc]
  rfl

theorem declarations?_bodyText {members : List Member} (some : members ≠ [])
    (words : ∀ member ∈ members, IsWord member.name.toList) :
    declarations? indent (bodyText indent members) = .some members := by
  induction members with
  | nil => exact absurd rfl some
  | cons member more ih =>
      rw [List.forall_mem_cons] at words
      cases more with
      | nil =>
          rw [bodyText_singleton]
          exact declarations?_last words.1
      | cons next others =>
          rw [bodyText_cons_cons, declarations?_more words.1,
            ih (List.cons_ne_nil next others) words.2]
          rfl

theorem three_lt_length_memberText (indent : Indent) (member : Member) :
    3 < (memberText indent member).toList.length := by
  obtain ⟨form, name⟩ := member
  cases form with
  | field =>
      have opens : "var ".toList.length = 4 := rfl
      simp only [memberText, String.toList_append, List.length_append, opens]
      omega
  | method =>
      have opens : "() \x7b\n".toList.length = 5 := rfl
      simp only [memberText, String.toList_append, List.length_append, opens]
      omega

theorem bodyText_ne_end (member : Member) (more : List Member) :
    bodyText indent (member :: more) ≠ "\n\x7d\n".toList := by
  have begins : ∃ rest, bodyText indent (member :: more) =
      (memberText indent member).toList ++ rest := by
    cases more with
    | nil => exact ⟨_, bodyText_singleton indent member⟩
    | cons next others => exact ⟨_, bodyText_cons_cons indent member next others⟩
  obtain ⟨rest, split⟩ := begins
  intro same
  have long := three_lt_length_memberText indent member
  have whole : (memberText indent member).toList.length + rest.length = 3 := by
    rw [← List.length_append, ← split, same]
    rfl
  omega

theorem declared?_viewModel {document : Document} (isWord : IsWord document.viewModelClass.toList)
    (words : ∀ member ∈ members document.root, IsWord member.name.toList) :
    declared? indent (viewModel indent document) = some (members document.root) := by
  have class_unbracketed : ∀ c ∈ document.viewModelClass.toList, (c != '\x7b') = true := by
    intro c inside
    apply bne_iff_ne.mpr
    rintro rfl
    exact not_mem_of_spelled isWord.2 (by decide) inside
  have header : ∀ c ∈ (materialImport ++ "class " ++ document.viewModelClass ++
      " extends StatelessWidget ").toList, (c != '\x7b') = true := by
    have others : materialImport.toList.all (· != '\x7b') = true ∧
        "class ".toList.all (· != '\x7b') = true ∧
        " extends StatelessWidget ".toList.all (· != '\x7b') = true := by decide
    rw [String.toList_append, String.toList_append, String.toList_append, List.forall_mem_append,
      List.forall_mem_append, List.forall_mem_append]
    exact ⟨⟨⟨List.all_eq_true.mp others.1, List.all_eq_true.mp others.2.1⟩, class_unbracketed⟩,
      List.all_eq_true.mp others.2.2⟩
  have split : (viewModel indent document).toList =
      (materialImport ++ "class " ++ document.viewModelClass ++
        " extends StatelessWidget ").toList ++
        '\x7b' :: '\n' :: bodyText indent (members document.root) := by
    have opens : " extends StatelessWidget \x7b\n" = " extends StatelessWidget " ++ "\x7b\n" := by
      decide
    have bracket (rest : List Char) : "\x7b\n".toList ++ rest = '\x7b' :: '\n' :: rest := rfl
    simp only [viewModel, bodyText, opens, String.toList_append, List.append_assoc, bracket,
      List.cons_append, -String.reduceAppend]
  have body : ((viewModel indent document).toList.dropWhile (· != '\x7b')).drop 2 =
      bodyText indent (members document.root) := by
    rw [split, List.dropWhile_append_of_pos header]
    rfl
  rw [declared?, body]
  generalize members document.root = declared at words ⊢
  cases declared with
  | nil => exact if_pos rfl
  | cons member more =>
      rw [if_neg (bodyText_ne_end member more),
        declarations?_bodyText (List.cons_ne_nil member more) words]

end Reading

section Names

variable {root : Node} {context : Context} {leaf : Leaf} {name : String}

theorem writable_of_plug {node : Node} (context : Context)
    (writable : AllWritable (nodePieces (context.plug node))) : AllWritable (nodePieces node) := by
  induction context with
  | here => exact writable
  | single role name inside span ih =>
      rw [Context.plug, nodePieces] at writable
      exact ih writable.append.2
  | many role name before inside after span ih =>
      rw [Context.plug, nodePieces, nodesPieces_append, nodesPieces] at writable
      exact ih writable.append.2.append.2.append.1

theorem isWord_of_naming (writable : AllWritable (nodePieces root))
    (used : (leaf, name) ∈ namings root) : IsWord name.toList := by
  obtain ⟨node, inside, names⟩ := List.mem_filterMap.mp used
  obtain ⟨context, rfl⟩ := mem_subtrees_iff.mp inside
  have fits := writable_of_plug context writable
  cases node with
  | single | many => cases names
  | leaf kind value span =>
      cases kind with
      | constant => cases names
      | identifier =>
          cases names
          exact isWord_of_header (fits _ List.mem_cons_self)
      | call | callback =>
          cases names
          exact isWord_of_reads rfl (fits (.name name) (by simp [nodePieces, leafPieces]))

theorem provided_subset (root : Node) : provided root ⊆ namings root := by
  cases root with
  | leaf leaf value span =>
      cases leaf with
      | identifier => exact List.nil_subset _
      | call | callback | constant => exact List.Subset.refl _
  | single | many => exact List.Subset.refl _

theorem isWord_of_mem_members (writable : AllWritable (nodePieces root)) :
    ∀ member ∈ members root, IsWord member.name.toList := by
  intro member inside
  rw [members_eq] at inside
  obtain ⟨leaf, found, -⟩ := (firstUses_asked (provided root)).forms member inside
  exact isWord_of_naming writable (provided_subset root (List.mem_of_find?_eq_some found))

theorem provided_plug {node : Node} (below : context ≠ .here) :
    provided (context.plug node) = namings (context.plug node) := by
  cases context with
  | here => exact absurd rfl below
  | single | many => rfl

theorem mem_namings_plug {span : Span} (named : ∀ kind, leaf ≠ .constant kind) :
    (leaf, name) ∈ namings (context.plug (.leaf leaf name span)) := by
  refine List.mem_filterMap.mpr ⟨_, context.mem_subtrees_plug _, ?_⟩
  cases leaf with
  | constant kind => exact absurd rfl (named kind)
  | identifier | call | callback => rfl

theorem exists_first_use (used : (leaf, name) ∈ namings root) :
    ∃ first, (namings root).find? (·.2 = name) = some (first, name) := by
  cases found : (namings root).find? (·.2 = name) with
  | none =>
      have other := List.find?_eq_none.mp found (leaf, name) used
      exact absurd (decide_eq_true rfl) other
  | some naming =>
      have same : naming.2 = name := by simpa using List.find?_some found
      exact ⟨naming.1, congrArg some (Prod.ext rfl same)⟩

theorem filter_members {first : Leaf × String}
    (found : (provided root).find? (·.2 = name) = some first) :
    (members root).filter (·.name = name) = [asked first] := by
  have same : ((provided root).map asked).find? (·.name = name) = some (asked first) := by
    rw [List.find?_map]
    exact congrArg (Option.map asked) found
  rw [members_eq, filter_firstUses, same]
  rfl

/-- In a document that was read, wherever below the root a name is used, the view has the expression
of that use in that place, and the view model declares the name. It does so once, in the form of the
first use that is made of the name. -/
theorem declared_of_used (indent : Indent) {options : Options} {text : String}
    {document : Document} {span : Span} (read : (compile options text).outcome = .ok document)
    (holds : document.root = context.plug (.leaf leaf name span)) (below : context ≠ .here)
    (named : ∀ kind, leaf ≠ .constant kind) :
    (Framed fun leaf name span =>
        view indent (document.withRoot (context.plug (.leaf leaf name span)))) ∧
      ∃ first declared, (namings document.root).find? (·.2 = name) = some (first, name) ∧
        declared? indent (viewModel indent document) = some declared ∧
        declared.filter (·.name = name) = [⟨formOf first, name⟩] := by
  have printable := printable_of_parse read
  have words := isWord_of_mem_members (legible_root printable).writable
  have used : (leaf, name) ∈ namings document.root := holds ▸ mem_namings_plug named
  obtain ⟨first, found⟩ := exists_first_use used
  have asks : (provided document.root).find? (·.2 = name) = some (first, name) := by
    rw [holds, provided_plug below, ← holds]
    exact found
  exact ⟨framed_view indent document below, first, members document.root, found,
    declared?_viewModel (isWord_viewModelClass printable) words, filter_members asks⟩

/-- A callback of a name that stands bare further up: the view calls the name, and what is declared
is a field. -/
theorem declared_of_used_callback :
    ∃ document, ∃ context : Context, ∃ span,
      (compile {} "Stateful .viewModel: Vm, .view: Row:\n\tText x\n\t.a: @x").outcome =
          .ok document ∧
        document.root = context.plug (.leaf .callback "x" span) ∧ context ≠ .here ∧
        (∀ kind, Leaf.callback ≠ .constant kind) ∧
        ∃ declared, declared? .tabs (viewModel .tabs document) = some declared ∧
          declared.filter (·.name = "x") = [⟨.field, "x"⟩] := by
  let text := "Stateful .viewModel: Vm, .view: Row:\n\tText x\n\t.a: @x"
  let bare : Node :=
    .single .element "Text" (.leaf .identifier "x" ⟨⟨43, 2, 6⟩, ⟨44, 2, 7⟩⟩)
      ⟨⟨38, 2, 1⟩, ⟨44, 2, 7⟩⟩
  let context : Context :=
    .many .element "Row" [bare] (.single .property "a" .here ⟨⟨46, 3, 1⟩, ⟨52, 3, 7⟩⟩) []
      ⟨⟨32, 1, 32⟩, ⟨52, 3, 7⟩⟩
  let span : Span := ⟨⟨50, 3, 5⟩, ⟨52, 3, 7⟩⟩
  have tree : (compile {} text).outcome.toOption.map (·.root) =
      some (context.plug (.leaf .callback "x" span)) := by
    decide +kernel
  have below : context ≠ .here := nofun
  have named : ∀ kind, Leaf.callback ≠ .constant kind := nofun
  cases read : (compile {} text).outcome with
  | error problem =>
      rw [read] at tree
      cases tree
  | ok document =>
      rw [read] at tree
      have holds : document.root = context.plug (.leaf .callback "x" span) := Option.some.inj tree
      obtain ⟨-, first, declared, found, shown, once⟩ :=
        declared_of_used .tabs read holds below named
      have bareFirst : (namings (context.plug (.leaf .callback "x" span))).find? (·.2 = "x") =
          some (.identifier, "x") := by
        decide +kernel
      rw [holds, bareFirst] at found
      cases found
      exact ⟨document, context, span, rfl, holds, below, named, declared, shown, once⟩

/-- A name that is used in both forms is not declared in the second one. -/
theorem not_declared_as_used :
    ∃ document span declared,
      (compile {} "Stateless .viewModel: Vm, .view: Row x, $x").outcome = .ok document ∧
        .leaf .call "x" span ∈ subtreesOf document.root.children ∧
        declared? .tabs (viewModel .tabs document) = some declared ∧
        ⟨.field, "x"⟩ ∈ declared ∧ ⟨.method, "x"⟩ ∉ declared := by
  let span : Span := ⟨⟨40, 1, 40⟩, ⟨42, 1, 42⟩⟩
  have run : (compile {} "Stateless .viewModel: Vm, .view: Row x, $x").outcome.toOption.map
      (fun document => (decide (.leaf .call "x" span ∈ subtreesOf document.root.children),
        declared? .tabs (viewModel .tabs document))) = some (true, some [⟨.field, "x"⟩]) := by
    decide +kernel
  cases read : (compile {} "Stateless .viewModel: Vm, .view: Row x, $x").outcome with
  | error problem =>
      rw [read] at run
      cases run
  | ok document =>
      rw [read] at run
      obtain ⟨calls, declares⟩ := Prod.mk.inj (Option.some.inj run)
      exact ⟨document, span, _, rfl, of_decide_eq_true calls, declares, List.mem_singleton_self _,
        by decide⟩

end Names

end WidgetTree.Dart
