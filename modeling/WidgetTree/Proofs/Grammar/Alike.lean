import Mathlib.Data.List.Forall2
import WidgetTree.Proofs.Grammar.Places

namespace WidgetTree.Grammar

open Lexeme (Kind Token)
open Text (Location Span)
open WidgetTree.Tree (Leaf Node Role)

structure Spanned (place : Location → Location → Prop) (span other : Span) : Prop where
  start : place span.start other.start
  stop : place span.stop other.stop

/-- The same tree with other places. -/
inductive Alike (place : Location → Location → Prop) : Node → Node → Prop
  | leaf (leaf : Leaf) (value : String) {span other : Span} (spanned : Spanned place span other) :
      Alike place (.leaf leaf value span) (.leaf leaf value other)
  | single (role : Role) (name : String) {child child' : Node} {span other : Span}
      (below : Alike place child child') (spanned : Spanned place span other) :
      Alike place (.single role name child span) (.single role name child' other)
  | many (role : Role) (name : String) {children children' : List Node} {span other : Span}
      (below : List.Forall₂ (Alike place) children children')
      (spanned : Spanned place span other) :
      Alike place (.many role name children span) (.many role name children' other)

theorem skipNewLines_related {relation : Token → Token → Prop}
    (kinds : ∀ a b, relation a b → a.kind = b.kind) {tokens others : List Token}
    (related : List.Forall₂ relation tokens others) :
    List.Forall₂ relation (skipNewLines tokens) (skipNewLines others) := by
  induction related with
  | nil => exact .nil
  | @cons token other tokens others same rest ih =>
      have kind := kinds token other same
      by_cases newLine : token.kind = .newLine
      · rw [skipNewLines_cons_of_eq newLine, skipNewLines_cons_of_eq (kind ▸ newLine)]
        exact ih
      · rw [skipNewLines_cons_of_ne newLine, skipNewLines_cons_of_ne (kind ▸ newLine)]
        exact .cons same rest

/-- How rows may differ: the later of two places stands for the later, and what is deeper is
deeper. -/
structure Likeness where
  place : Location → Location → Prop
  level : Nat → Nat → Prop
  later : ∀ {a b c d : Location}, place a b → place c d →
    place (if a.index < c.index then c else a) (if b.index < d.index then d else b)
  deeper : ∀ {a b c d : Nat}, level a b → level c d → (a < c ↔ b < d)

theorem later_of_behind {place : Location → Location → Prop} {a b c d : Location}
    (behind : a.index < c.index ↔ b.index < d.index) (first : place a b) (second : place c d) :
    place (if a.index < c.index then c else a) (if b.index < d.index then d else b) := by
  simp only [behind]
  split
  · exact second
  · exact first

theorem later_of_eq {a b c d : Location} (same : a = b) (same' : c = d) :
    (if a.index < c.index then c else a) = (if b.index < d.index then d else b) := by
  rw [same, same']

theorem deeper_of_eq {a b c d : Nat} (same : a = b) (same' : c = d) : a < c ↔ b < d := by
  rw [same, same']

structure Likeness.Token (like : Likeness) (token other : Lexeme.Token) : Prop where
  kind : token.kind = other.kind
  value : token.value = other.value
  spanned : token.kind ≠ .indentation → Spanned like.place token.span other.span
  level : token.kind = .indentation → like.level token.span.length other.span.length

section Trees

variable {place : Location → Location → Prop} {node other : Node} {nodes others : List Node}

theorem Alike.spanned (alike : Alike place node other) :
    Spanned place node.span other.span := by
  cases alike with
  | leaf _ _ spanned | single _ _ _ spanned | many _ _ _ spanned => exact spanned

theorem Alike.isValue (alike : Alike place node other) : node.isValue = other.isValue := by
  cases alike <;> rfl

theorem Spanned.imp {place' : Location → Location → Prop}
    (weaker : ∀ a b, place a b → place' a b) {span other : Span}
    (spanned : Spanned place span other) : Spanned place' span other :=
  ⟨weaker _ _ spanned.start, weaker _ _ spanned.stop⟩

mutual

theorem Alike.imp {place' : Location → Location → Prop} (weaker : ∀ a b, place a b → place' a b)
    (node : Node) {other : Node} (alike : Alike place node other) : Alike place' node other := by
  cases alike with
  | leaf leaf value spanned => exact .leaf leaf value (spanned.imp weaker)
  | @single role name child child' _ _ below spanned =>
      exact .single role name (Alike.imp weaker child below) (spanned.imp weaker)
  | @many role name children children' _ _ below spanned =>
      exact .many role name (alikeAll_imp weaker children below) (spanned.imp weaker)

theorem alikeAll_imp {place' : Location → Location → Prop}
    (weaker : ∀ a b, place a b → place' a b) (nodes : List Node) {others : List Node}
    (alike : List.Forall₂ (Alike place) nodes others) :
    List.Forall₂ (Alike place') nodes others := by
  cases alike with
  | nil => exact .nil
  | @cons node other nodes others first rest =>
      exact .cons (Alike.imp weaker node first) (alikeAll_imp weaker nodes rest)

end

theorem getLast?_alike {α β : Type} {relation : α → β → Prop} {xs : List α} {ys : List β}
    (related : List.Forall₂ relation xs ys) : Option.Rel relation xs.getLast? ys.getLast? := by
  induction related with
  | nil => exact .none
  | @cons x y xs ys first rest ih =>
      cases rest with
      | nil => exact .some first
      | cons second rest =>
          rw [List.getLast?_cons_cons, List.getLast?_cons_cons]
          exact ih

theorem element_alike (name : String) {span span' : Span} (spanned : Spanned place span span')
    (alike : List.Forall₂ (Alike place) nodes others) :
    Alike place (Node.element name span nodes) (Node.element name span' others) := by
  cases alike with
  | nil => exact .leaf _ _ spanned
  | cons first rest =>
      cases rest with
      | nil => exact .single _ _ first spanned
      | cons second rest => exact .many _ _ (.cons first (.cons second rest)) spanned

theorem property?_alike {name : String} {span span' : Span} (spanned : Spanned place span span')
    (alike : List.Forall₂ (Alike place) nodes others)
    (built : Node.property? name span nodes = some node) :
    ∃ other, Node.property? name span' others = some other ∧ Alike place node other := by
  cases alike with
  | nil => cases built
  | cons first rest =>
      cases rest with
      | nil =>
          cases built
          exact ⟨_, rfl, .single _ _ first spanned⟩
      | cons second rest =>
          cases built
          exact ⟨_, rfl, .many _ _ (.cons first (.cons second rest)) spanned⟩

end Trees

namespace Likeness

variable {like : Likeness} {token token' name name' : Lexeme.Token}
  {inline inline' below below' : List Node} {colon colon' : Option Lexeme.Token}

abbrev Row (like : Likeness) : List Lexeme.Token → List Lexeme.Token → Prop :=
  List.Forall₂ like.Token

abbrev Trees (like : Likeness) : List Node → List Node → Prop := List.Forall₂ (Alike like.place)

theorem Token.solid (same : like.Token token token') (solid : Solid token.kind) :
    Spanned like.place token.span token'.span :=
  same.spanned (solid.ne (.inl rfl))

theorem constant?_eq (same : like.Token token token') : constant? token = constant? token' := by
  rw [constant?, constant?, same.kind, same.value]

theorem headerStop_place (same : like.Token name name') (header : IsHeader name)
    (trees : like.Trees inline inline') (colons : Option.Rel like.Token colon colon')
    (kind : ∀ token ∈ colon, token.kind = .colon) :
    like.place (headerStop name inline colon) (headerStop name' inline' colon') := by
  cases colons with
  | @some token token' same =>
      have solid : Solid token.kind := kind token rfl ▸ .inr (.inr rfl)
      exact (same.solid solid).stop
  | none =>
      have last := getLast?_alike trees
      unfold headerStop
      generalize inline.getLast? = node?, inline'.getLast? = node?' at last ⊢
      cases last with
      | none => exact (same.solid (solid_of_header header)).stop
      | some alike => exact alike.spanned.stop

theorem elementNode_alike (same : like.Token name name') (header : IsHeader name)
    (beside : like.Trees inline inline') (colons : Option.Rel like.Token colon colon')
    (kind : ∀ token ∈ colon, token.kind = .colon) (under : like.Trees below below') :
    Alike like.place (elementNode name inline colon below)
      (elementNode name' inline' colon' below') := by
  have all : like.Trees (inline ++ below) (inline' ++ below') := List.rel_append beside under
  have stop := headerStop_place same header beside colons kind
  rw [elementNode, elementNode, same.value]
  refine element_alike name'.value ⟨(same.solid (solid_of_header header)).start, ?_⟩ all
  have last := getLast?_alike all
  generalize (inline ++ below).getLast? = node?, (inline' ++ below').getLast? = node?' at last ⊢
  cases last with
  | none => exact stop
  | @some node node' alike => exact like.later stop alike.spanned.stop

theorem propertyNode_alike {dot dot' : Lexeme.Token} {nodes nodes' : List Node} {node : Node}
    (mark : like.Token dot dot') (marked : dot.kind = .dot) (same : like.Token name name')
    (trees : like.Trees nodes nodes') (colon colon' : Option Lexeme.Token)
    (built : propertyNode dot name colon nodes = .ok node) :
    ∃ node', propertyNode dot' name' colon' nodes' = .ok node' ∧ Alike like.place node node' := by
  have start := (mark.solid (solid_of_dot marked)).start
  have last := getLast?_alike trees
  have some : nodes.getLast? ≠ none := by
    intro none
    rw [List.getLast?_eq_none_iff.mp none] at built
    cases built
  rw [propertyNode, same.value] at built
  rw [propertyNode]
  generalize nodes.getLast? = node?, nodes'.getLast? = node?' at last built some ⊢
  cases last with
  | none => exact absurd rfl some
  | @some last last' alike =>
      have spanned : Spanned like.place ⟨dot.span.start, last.span.stop⟩
          ⟨dot'.span.start, last'.span.stop⟩ := ⟨start, alike.spanned.stop⟩
      split at built
      · next found =>
          cases built
          obtain ⟨node', found', alike⟩ := property?_alike spanned trees found
          exact ⟨node', by simp only [found'], alike⟩
      · cases built

end Likeness

end WidgetTree.Grammar
