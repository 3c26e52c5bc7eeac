import WidgetTree.Proofs.Grammar.Places

namespace WidgetTree.Grammar

open Lexeme (Kind Token)
open Text (Location)
open WidgetTree.Tree (Node)

def Reaches (a b : Location) : Prop := a.index ≤ b.index ∧ a.line ≤ b.line

theorem Reaches.refl (a : Location) : Reaches a a := ⟨Nat.le_refl _, Nat.le_refl _⟩

theorem Reaches.trans {a b c : Location} (first : Reaches a b) (second : Reaches b c) :
    Reaches a c :=
  ⟨Nat.le_trans first.1 second.1, Nat.le_trans first.2 second.2⟩

/-- Tokens stand in the order of the text, and all but the end of the file take up room. -/
structure Ordered (row : List Token) : Prop where
  follow : row.Pairwise fun a b => Reaches a.span.stop b.span.start
  forward : ∀ token ∈ row, Reaches token.span.start token.span.stop
  filled : ∀ token ∈ row, token.kind ≠ .endOfFile →
    token.span.start.index < token.span.stop.index

theorem Ordered.sublist {row more : List Token} (ordered : Ordered row) (less : more.Sublist row) :
    Ordered more where
  follow := ordered.follow.sublist less
  forward token member := ordered.forward token (less.subset member)
  filled token member := ordered.filled token (less.subset member)

theorem Ordered.right {front tokens : List Token} (ordered : Ordered (front ++ tokens)) :
    Ordered tokens :=
  ordered.sublist (List.sublist_append_right front tokens)

theorem Ordered.stop_lt {front tokens : List Token} {first last : Token}
    (ordered : Ordered (front ++ tokens)) (before : first ∈ front) (behind : last ∈ tokens)
    (goes : last.kind ≠ .endOfFile) : first.span.stop.index < last.span.stop.index := by
  have reaches := (List.pairwise_append.mp ordered.follow).2.2 first before last behind
  have filled := ordered.filled last (List.mem_append_right front behind) goes
  exact Nat.lt_of_le_of_lt reaches.1 filled

structure Spans (tokens : List Token) (node : Node) : Prop where
  first : ∃ first ∈ tokens.head?, Solid first.kind ∧ node.span.start = first.span.start
  last : ∃ last ∈ tokens.getLast?, Solid last.kind ∧ node.span.stop = last.span.stop

inductive Lays (stands : List Token → Node → Prop) : List Token → List Node → Prop
  | nil : Lays stands [] []
  | cons {own more : List Token} {node : Node} {nodes : List Node} (gap : List Token)
      (first : stands own node) (others : Lays stands more nodes) :
      Lays stands (gap ++ (own ++ more)) (node :: nodes)

/-- The node spans the tokens, with its children one behind the other behind its first token. -/
structure Covers (tokens : List Token) (node : Node) : Prop extends Spans tokens node where
  children : ∃ head inner tail, tokens = head ++ (inner ++ tail) ∧ head ≠ [] ∧
    Lays Spans inner node.children

section Lays

variable {stands other : List Token → Node → Prop} {tokens more : List Token}
  {nodes below : List Node}

theorem Lays.imp (weaker : ∀ tokens node, stands tokens node → other tokens node)
    (lays : Lays stands tokens nodes) : Lays other tokens nodes := by
  induction lays with
  | nil => exact .nil
  | cons gap first others ih => exact .cons gap (weaker _ _ first) ih

theorem Lays.single {node : Node} (stands' : stands tokens node) (gap : List Token) :
    Lays stands (gap ++ tokens) [node] := by
  have lays : Lays stands (gap ++ (tokens ++ [])) [node] := .cons gap stands' .nil
  rwa [List.append_nil] at lays

theorem Lays.eq_nil (lays : Lays stands tokens []) : tokens = [] := by
  cases lays
  rfl

theorem Lays.lead (lays : Lays stands tokens nodes) (some : nodes ≠ []) (gap : List Token) :
    Lays stands (gap ++ tokens) nodes := by
  cases lays with
  | nil => exact absurd rfl some
  | cons inner first others =>
      rw [← List.append_assoc]
      exact .cons (gap ++ inner) first others

theorem Lays.append (first : Lays stands tokens nodes) (second : Lays stands more below)
    (some : below ≠ []) (gap : List Token) :
    Lays stands (tokens ++ (gap ++ more)) (nodes ++ below) := by
  induction first with
  | nil => exact second.lead some gap
  | cons inner first others ih =>
      rw [List.append_assoc, List.append_assoc]
      exact .cons inner first ih

theorem Lays.last (lays : Lays stands tokens nodes)
    (spans : ∀ tokens node, stands tokens node → Spans tokens node) {node : Node}
    (last : node ∈ nodes.getLast?) :
    ∃ token ∈ tokens.getLast?, Solid token.kind ∧ node.span.stop = token.span.stop := by
  induction lays with
  | nil => cases last
  | @cons own more first nodes gap stands' others ih =>
      cases others with
      | nil =>
          cases last
          obtain ⟨token, atEnd, solid, stop⟩ := (spans _ _ stands').last
          have some : own ≠ [] := by
            rintro rfl
            cases atEnd
          rw [List.append_nil, List.getLast?_append_of_ne_nil gap some]
          exact ⟨token, atEnd, solid, stop⟩
      | @cons own' more' second nodes' gap' stands'' others' =>
          rw [List.getLast?_cons_cons] at last
          obtain ⟨token, atEnd, solid, stop⟩ := ih last
          have some : gap' ++ (own' ++ more') ≠ [] := by
            intro none
            rw [none] at atEnd
            cases atEnd
          refine ⟨token, ?_, solid, stop⟩
          rw [← List.append_assoc, List.getLast?_append_of_ne_nil _ some]
          exact atEnd

theorem Lays.exists_solid (lays : Lays Covers tokens nodes) (some : nodes ≠ []) :
    ∃ token ∈ tokens, Solid token.kind := by
  have last : nodes.getLast some ∈ nodes.getLast? := List.getLast?_eq_some_getLast some
  obtain ⟨token, atEnd, solid, -⟩ := lays.last (fun _ _ covers => covers.toSpans) last
  exact ⟨token, List.mem_of_getLast? atEnd, solid⟩

theorem Covers.exists_solid {node : Node} (covers : Covers tokens node) :
    ∃ token ∈ tokens, Solid token.kind := by
  obtain ⟨token, atEnd, solid, -⟩ := covers.last
  exact ⟨token, List.mem_of_getLast? atEnd, solid⟩

end Lays

section Elements

variable {name : Token} {nodes inline below : List Node} {colon : Option Token}
  {core gap under colons : List Token}

theorem start_elementNode (name : Token) (inline : List Node) (colon : Option Token)
    (below : List Node) : (elementNode name inline colon below).span.start = name.span.start := by
  rw [elementNode, start_element]

theorem stop_elementNode (name : Token) (inline : List Node) (colon : Option Token)
    (below : List Node) :
    (elementNode name inline colon below).span.stop =
      match (inline ++ below).getLast? with
      | some last =>
          if (headerStop name inline colon).index < last.span.stop.index then last.span.stop
          else headerStop name inline colon
      | none => headerStop name inline colon :=
  congrArg Text.Span.stop (start_element name.value _ (inline ++ below))

theorem stop_propertyNode {dot name : Token} {children : List Node} {node last : Node}
    (built : propertyNode dot name colon children = .ok node)
    (atEnd : children.getLast? = some last) : node.span.stop = last.span.stop := by
  rw [propertyNode, atEnd] at built
  split at built
  · next found =>
      cases built
      rw [(of_property? found).1]
  · cases built

theorem exists_headerStop (name : Token) (beside : Lays Covers core inline)
    (same : colons = colon.toList) (gap : List Token) :
    ∃ token ∈ name :: (core ++ (gap ++ colons)),
      headerStop name inline colon = token.span.stop := by
  cases colon with
  | some token => exact ⟨token, by simp [same], rfl⟩
  | none =>
      cases atEnd : inline.getLast? with
      | none => exact ⟨name, List.mem_cons_self, by simp only [headerStop, atEnd]⟩
      | some last =>
          obtain ⟨token, ends, -, stop⟩ := beside.last (fun _ _ covers => covers.toSpans) atEnd
          refine ⟨token, ?_, by simp only [headerStop, atEnd, stop]⟩
          exact List.mem_cons_of_mem _ (List.mem_append_left _ (List.mem_of_getLast? ends))

theorem lays_children (beside : Lays Covers core inline) (lines : Lays Covers under below)
    (gap : List Token) :
    ∃ inner tail, core ++ (gap ++ under) = inner ++ tail ∧
      Lays Spans inner (inline ++ below) := by
  have spans : ∀ tokens node, Covers tokens node → Spans tokens node := fun _ _ covers =>
    covers.toSpans
  cases none : below.isEmpty with
  | true =>
      rw [List.isEmpty_iff.mp none, List.append_nil]
      exact ⟨core, gap ++ under, rfl, beside.imp spans⟩
  | false =>
      have some : below ≠ [] := List.isEmpty_eq_false_iff.mp none
      exact ⟨core ++ (gap ++ under), [], (List.append_nil _).symm,
        (beside.append lines some gap).imp spans⟩

theorem covers_elementNode {tokens : List Token} (header : IsHeader name)
    (beside : Lays Covers core inline) (lines : Lays Covers under below)
    (split : tokens = core ++ (gap ++ under))
    (last : ∃ last ∈ (name :: tokens).getLast?, Solid last.kind ∧
      (elementNode name inline colon below).span.stop = last.span.stop) :
    Covers (name :: tokens) (elementNode name inline colon below) := by
  obtain ⟨inner, tail, inside, lays⟩ := lays_children beside lines gap
  refine ⟨⟨⟨name, rfl, solid_of_header header, start_elementNode ..⟩, last⟩, ?_⟩
  refine ⟨[name], inner, tail, ?_, List.cons_ne_nil name [], ?_⟩
  · rw [split, inside]
    rfl
  · rwa [elementNode, Tree.Node.children_element]

theorem last_of_below (beside : Lays Covers core inline) (lines : Lays Covers under below)
    (some : below ≠ []) (same : colons = colon.toList)
    (ordered : Ordered (name :: (core ++ ((gap ++ colons) ++ under)))) :
    ∃ last ∈ (name :: (core ++ ((gap ++ colons) ++ under))).getLast?, Solid last.kind ∧
      (elementNode name inline colon below).span.stop = last.span.stop := by
  have child : below.getLast some ∈ below.getLast? := List.getLast?_eq_some_getLast some
  obtain ⟨token, atEnd, solid, stop⟩ := lines.last (fun _ _ covers => covers.toSpans) child
  have filled : under ≠ [] := by
    rintro rfl
    cases atEnd
  obtain ⟨header, member, headerEnds⟩ := exists_headerStop name beside same gap
  have whole : name :: (core ++ ((gap ++ colons) ++ under)) =
      (name :: (core ++ (gap ++ colons))) ++ under := by
    simp only [List.cons_append, List.append_assoc]
  rw [whole] at ordered ⊢
  have before := ordered.stop_lt member (List.mem_of_getLast? atEnd) (solid.ne (.inr rfl))
  refine ⟨token, ?_, solid, ?_⟩
  · rw [List.getLast?_append_of_ne_nil _ filled]
    exact atEnd
  · rw [stop_elementNode, List.getLast?_append_of_ne_nil _ some,
      List.getLast?_eq_some_getLast some]
    simp only [headerEnds, stop, if_pos before]

theorem last_of_colon {token : Token} (kind : token.kind = .colon)
    (beside : Lays Covers core inline) (ordered : Ordered (name :: (core ++ (gap ++ [token])))) :
    ∃ last ∈ (name :: (core ++ (gap ++ [token]))).getLast?, Solid last.kind ∧
      (elementNode name inline (some token) []).span.stop = last.span.stop := by
  have whole : name :: (core ++ (gap ++ [token])) = (name :: (core ++ gap)) ++ [token] := by
    simp only [List.cons_append, List.append_assoc]
  have goes : token.kind ≠ .endOfFile := by
    rw [kind]
    decide
  rw [whole] at ordered ⊢
  refine ⟨token, List.getLast?_concat, kind ▸ .inr (.inr rfl), ?_⟩
  rw [stop_elementNode, List.append_nil]
  cases atEnd : inline.getLast? with
  | none => rfl
  | some last =>
      obtain ⟨other, ends, -, stop⟩ := beside.last (fun _ _ covers => covers.toSpans) atEnd
      have member : other ∈ name :: (core ++ gap) :=
        List.mem_cons_of_mem _ (List.mem_append_left _ (List.mem_of_getLast? ends))
      have before := ordered.stop_lt member (List.mem_singleton_self token) goes
      have after : ¬ token.span.stop.index < last.span.stop.index := by
        rw [stop]
        exact Nat.lt_asymm before
      exact if_neg after

theorem last_of_header (header : IsHeader name) (beside : Lays Covers core inline) :
    ∃ last ∈ (name :: core).getLast?, Solid last.kind ∧
      (elementNode name inline none []).span.stop = last.span.stop := by
  rw [stop_elementNode, List.append_nil]
  cases atEnd : inline.getLast? with
  | none =>
      have none : inline = [] := List.getLast?_eq_none_iff.mp atEnd
      subst none
      rw [beside.eq_nil]
      exact ⟨name, rfl, solid_of_header header, rfl⟩
  | some last =>
      obtain ⟨token, ends, solid, stop⟩ := beside.last (fun _ _ covers => covers.toSpans) atEnd
      have filled : core ≠ [] := by
        rintro rfl
        cases ends
      refine ⟨token, ?_, solid, ?_⟩
      · rw [← List.singleton_append, List.getLast?_append_of_ne_nil _ filled]
        exact ends
      · simp only [headerStop, atEnd, Nat.lt_irrefl, if_false, stop]

theorem covers_propertyNode {dot name : Token} {node : Node} (marked : dot.kind = .dot)
    (built : propertyNode dot name colon nodes = .ok node) (held : Lays Covers core nodes)
    (some : nodes ≠ []) (colons : List Token) :
    Covers (dot :: name :: (colons ++ core)) node := by
  have last : nodes.getLast some ∈ nodes.getLast? := List.getLast?_eq_some_getLast some
  obtain ⟨token, atEnd, solid, stop⟩ := held.last (fun _ _ covers => covers.toSpans) last
  have filled : core ≠ [] := by
    rintro rfl
    cases atEnd
  have whole : dot :: name :: (colons ++ core) = (dot :: name :: colons) ++ core := rfl
  obtain ⟨start, children⟩ := of_propertyNode built
  refine ⟨⟨⟨dot, rfl, solid_of_dot marked, start⟩, token, ?_, solid, ?_⟩, ?_⟩
  · rwa [whole, List.getLast?_append_of_ne_nil _ filled]
  · rw [stop_propertyNode built last, stop]
  · refine ⟨dot :: name :: colons, core, [], by rw [whole, List.append_nil], ?_, ?_⟩
    · exact List.cons_ne_nil dot _
    · rw [children]
      exact held.imp fun _ _ covers => covers.toSpans

end Elements

end WidgetTree.Grammar
