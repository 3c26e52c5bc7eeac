import WidgetTree.Dart.ViewModel
import WidgetTree.Proofs.Grammar.Subtrees

/-!
The members of a view model. Main definition: `FirstUses`, members that are the first uses of the
names in a tree. Main statement: `viewModel_members`, a view model has these members and no others,
whatever tree its document holds.
-/

namespace WidgetTree.Dart

open WidgetTree.Tree (Document Leaf Node subtreesOf)

def naming? : Node → Option (Leaf × String)
  | .leaf (.constant _) _ _ => none
  | .leaf leaf name _ => some (leaf, name)
  | .single .. | .many .. => none

def namings (root : Node) : List (Leaf × String) := root.subtrees.filterMap naming?

/-- The uses of names that a view model has to provide for; a bare name at the root is that of a
widget. -/
def provided : Node → List (Leaf × String)
  | .leaf .identifier _ _ => []
  | root => namings root

def formOf : Leaf → MemberForm
  | .identifier => .field
  | .call | .callback | .constant _ => .method

theorem formOf_eq_field_iff {leaf : Leaf} : formOf leaf = .field ↔ leaf = .identifier := by
  cases leaf <;> simp [formOf]

/-- The members are the names in the order of their first uses, each of them once, as a field if the
first use is a bare name and as a method otherwise. -/
structure FirstUses (namings : List (Leaf × String)) (members : List Member) : Prop where
  names : members.map (·.name) = (namings.map (·.2)).eraseDups
  forms : ∀ member ∈ members, ∃ leaf,
    namings.find? (·.2 = member.name) = some (leaf, member.name) ∧
      (member.form = .field ↔ leaf = .identifier)

section Collector

def asked (naming : Leaf × String) : Member := ⟨formOf naming.1, naming.2⟩

variable (found : Collection)

theorem collect_leaf (leaf : Leaf) (value : String) (span : Text.Span) :
    collect found (.leaf leaf value span) =
      ((namings (.leaf leaf value span)).map asked).foldl Collection.add found := by
  cases leaf <;> rfl

mutual

theorem collect_eq (found : Collection) (root : Node) :
    collect found root = ((namings root).map asked).foldl Collection.add found := by
  cases root with
  | leaf leaf value span => exact collect_leaf found leaf value span
  | single role name child span =>
      rw [collect, collect_eq found child]
      rfl
  | many role name children span =>
      rw [collect, collectAll_eq found children]
      rfl

theorem collectAll_eq (found : Collection) (nodes : List Node) :
    collectAll found nodes =
      (((subtreesOf nodes).filterMap naming?).map asked).foldl Collection.add found := by
  cases nodes with
  | nil => rfl
  | cons node more =>
      rw [collectAll, collect_eq found node, collectAll_eq, ← List.foldl_append, subtreesOf,
        List.filterMap_append, List.map_append, namings]

end

end Collector

section Firsts

variable {wanted : List Member} {member : Member}

def firstUses : List Member → List Member
  | [] => []
  | member :: rest => member :: (firstUses rest).filter (·.name ≠ member.name)

theorem firstUses_concat (wanted : List Member) (member : Member) :
    firstUses (wanted ++ [member]) =
      firstUses wanted ++ if member.name ∈ wanted.map (·.name) then [] else [member] := by
  induction wanted with
  | nil => rfl
  | cons first rest ih =>
      rw [List.cons_append, firstUses, firstUses, ih, List.filter_append, List.cons_append]
      congr 2
      by_cases same : member.name = first.name
      · by_cases later : member.name ∈ rest.map (·.name) <;> simp [same]
      · have elsewhere : member.name ∈ (first :: rest).map (·.name) ↔
            member.name ∈ rest.map (·.name) := by
          simp [same]
        by_cases later : member.name ∈ rest.map (·.name)
        · rw [if_pos later, if_pos (elsewhere.mpr later)]
          rfl
        · rw [if_neg later, if_neg (mt elsewhere.mp later)]
          simp [same]

/-- A collection has come to the first uses among the members that were added to it, and each of
their names is taken. -/
structure Collection.CameTo (found : Collection) (wanted : List Member) : Prop where
  members : found.members = firstUses wanted
  taken : ∀ name, name ∈ found.taken ↔ name ∈ wanted.map (·.name)

variable {found : Collection}

theorem Collection.CameTo.add (before : found.CameTo wanted) (member : Member) :
    (found.add member).CameTo (wanted ++ [member]) := by
  by_cases taken : member.name ∈ found.taken
  · have known := (before.taken member.name).mp taken
    rw [Collection.add, if_pos taken]
    constructor
    · rw [firstUses_concat, if_pos known, List.append_nil, before.members]
    · intro name
      rw [before.taken, List.map_append, List.mem_append, List.map_singleton, List.mem_singleton]
      exact ⟨.inl, fun either => either.elim id fun same => same ▸ known⟩
  · have unknown := mt (before.taken member.name).mpr taken
    rw [Collection.add, if_neg taken]
    constructor
    · rw [firstUses_concat, if_neg unknown, before.members]
    · intro name
      rw [List.mem_cons, before.taken, List.map_append, List.mem_append, List.map_singleton,
        List.mem_singleton, or_comm]

theorem Collection.CameTo.foldl (before : found.CameTo wanted) (more : List Member) :
    (more.foldl Collection.add found).CameTo (wanted ++ more) := by
  -- The induction is on the members to come; the invariant carries both accumulators.
  induction more generalizing found wanted with
  | nil => simpa using before
  | cons member rest ih => simpa using ih (before.add member)

theorem members_collect (root : Node) :
    (collect {} root).members = firstUses ((namings root).map asked) := by
  have empty : ({} : Collection).CameTo [] := ⟨rfl, fun _ => Iff.rfl⟩
  rw [collect_eq]
  exact (empty.foldl _).members

theorem eraseDups_filter (keeps : String → Bool) (names : List String) :
    (names.filter keeps).eraseDups = names.eraseDups.filter keeps := by
  match names with
  | [] => rfl
  | name :: more =>
      have others := eraseDups_filter keeps (more.filter (!· == name))
      rw [List.filter_filter] at others
      rw [List.eraseDups_cons]
      cases kept : keeps name with
      | true =>
          rw [List.filter_cons_of_pos kept, List.filter_cons_of_pos kept, List.eraseDups_cons,
            List.filter_filter, ← others]
          simp only [Bool.and_comm]
      | false =>
          -- All that is left differs from the name.
          have same : more.filter (fun other => keeps other && !other == name) =
              more.filter keeps := by
            apply List.filter_congr
            intro other _
            by_cases equal : other = name
            · simp [equal, kept]
            · simp [equal]
          rw [List.filter_cons_of_neg (by simp [kept]), List.filter_cons_of_neg (by simp [kept]),
            ← others, same]
termination_by names.length
decreasing_by
  have := List.length_filter_le (!· == name) more
  simp only [List.length_cons]
  omega

theorem map_firstUses (wanted : List Member) :
    (firstUses wanted).map (·.name) = (wanted.map (·.name)).eraseDups := by
  induction wanted with
  | nil => rfl
  | cons member rest ih =>
      have others : ((firstUses rest).filter (·.name ≠ member.name)).map (·.name) =
          ((firstUses rest).map (·.name)).filter (!· == member.name) := by
        rw [List.filter_map]
        congr 1
        apply List.filter_congr
        intro other _
        simp only [ne_eq, decide_not, Function.comp_apply]
        rfl
      rw [firstUses, List.map_cons, List.map_cons, List.eraseDups_cons, eraseDups_filter, ← ih,
        others]

theorem filter_firstUses (wanted : List Member) (name : String) :
    (firstUses wanted).filter (·.name = name) = (wanted.find? (·.name = name)).toList := by
  induction wanted with
  | nil => rfl
  | cons first rest ih =>
      rw [firstUses]
      by_cases same : first.name = name
      · have others : ((firstUses rest).filter (·.name ≠ first.name)).filter (·.name = name) =
            [] := by
          simp [List.filter_filter, same]
        rw [List.filter_cons_of_pos (by simpa using same), others,
          List.find?_cons_of_pos (by simpa using same)]
        rfl
      · have others : ((firstUses rest).filter (·.name ≠ first.name)).filter (·.name = name) =
            (firstUses rest).filter (·.name = name) := by
          rw [List.filter_filter]
          apply List.filter_congr
          intro other _
          by_cases equal : other.name = name
          · simp [equal, Ne.symm same]
          · simp [equal]
        rw [List.filter_cons_of_neg (by simpa using same), others, ih,
          List.find?_cons_of_neg (by simpa using same)]

theorem find?_of_mem_firstUses (kept : member ∈ firstUses wanted) :
    wanted.find? (·.name = member.name) = some member := by
  have alike : member ∈ (firstUses wanted).filter (·.name = member.name) :=
    List.mem_filter.mpr ⟨kept, by simp⟩
  rw [filter_firstUses] at alike
  exact Option.mem_toList.mp alike

theorem firstUses_asked (namings : List (Leaf × String)) :
    FirstUses namings (firstUses (namings.map asked)) where
  names := by
    rw [map_firstUses, List.map_map]
    rfl
  forms member kept := by
    have first := find?_of_mem_firstUses kept
    rw [List.find?_map, Option.map_eq_some_iff] at first
    obtain ⟨⟨leaf, name⟩, found, rfl⟩ := first
    exact ⟨leaf, found, formOf_eq_field_iff⟩

theorem members_eq (root : Node) : members root = firstUses ((provided root).map asked) := by
  have whole := members_collect root
  cases root with
  | leaf leaf value span =>
      cases leaf with
      | identifier => rfl
      | call | callback | constant => exact whole
  | single | many => exact whole

end Firsts

section Text

def levelText (indent : Indent) : String := String.ofList (List.replicate indent.width indent.char)

theorem margin_one (indent : Indent) : indent.margin 1 = levelText indent := by
  rw [Indent.margin, Nat.one_mul, levelText]

theorem margin_two (indent : Indent) : indent.margin 2 = levelText indent ++ levelText indent := by
  rw [Indent.margin, levelText, ← String.ofList_append, List.replicate_append_replicate,
    Nat.two_mul]

theorem memberText_field (indent : Indent) (name : String) :
    memberText indent ⟨.field, name⟩ =
      levelText indent ++ "var " ++ name ++ " = null; // TODO: Populate field " ++ name := by
  rw [memberText, margin_one]

theorem memberText_method (indent : Indent) (name : String) :
    memberText indent ⟨.method, name⟩ =
      levelText indent ++ name ++ "() \x7b\n" ++
      levelText indent ++ levelText indent ++ "// TODO: Populate function " ++ name ++ "\n" ++
      levelText indent ++ "\x7d" := by
  rw [memberText, margin_one, margin_two]
  simp only [String.append_assoc]

end Text

/-- Behind its header a view model has the first uses of the names in the tree as its members, with
a blank line between, and the closing bracket. A field is a variable without a value, a method has
an empty body. -/
theorem viewModel_members (indent : Indent) (document : Document) :
    let unit := String.ofList (List.replicate indent.width indent.char)
    FirstUses (provided document.root) (members document.root) ∧
      viewModel indent document =
        "import 'package:flutter/material.dart';\n\n" ++
        "class " ++ document.viewModelClass ++ " extends StatelessWidget \x7b\n" ++
        "\n\n".intercalate ((members document.root).map fun
          | ⟨.field, name⟩ => unit ++ "var " ++ name ++ " = null; // TODO: Populate field " ++ name
          | ⟨.method, name⟩ =>
              unit ++ name ++ "() \x7b\n" ++
              unit ++ unit ++ "// TODO: Populate function " ++ name ++ "\n" ++
              unit ++ "\x7d") ++
        "\n\x7d\n" := by
  intro unit
  constructor
  · rw [members_eq]
    exact firstUses_asked (provided document.root)
  · rw [viewModel, materialImport]
    congr 4
    funext ⟨form, name⟩
    cases form with
    | field => exact memberText_field indent name
    | method => exact memberText_method indent name

end WidgetTree.Dart
