import WidgetTree.Proofs.Grammar.Alike
import WidgetTree.Proofs.Grammar.Whole

/-!
Two readings side by side. Main definitions: `Pairing`, rows over which the rules go the same way,
and `Agrees`, what comes of two readings that do. Main statements: `node_agrees`,
`document_agrees` and `fragment_agrees`, the rules keep step over paired rows until both have read
them or both stop at the same problem, but for a colon that only the second reading asks for, and
`Derives.alike`, from rows that are alike the rules read trees that are alike.
-/

namespace WidgetTree.Grammar

open Lexeme (Kind)
open Text (Location Span)
open WidgetTree.Tree (Document Leaf Node Property)

def Problem.WantsColon (problem : Problem) : Prop :=
  ∃ found, problem.cause = .unexpectedToken found "Colon"

structure Likeness.Front (like : Likeness) (token other : Lexeme.Token) : Prop where
  kind : token.kind = other.kind
  solid : Solid token.kind → like.Token token other
  level : token.kind = .indentation → like.level token.span.length other.span.length

/-- Both rows have run out, or they begin alike and are paired behind what a rule takes. -/
inductive Likeness.Steps (like : Likeness)
    (row : List Lexeme.Token → List Lexeme.Token → Prop) :
    List Lexeme.Token → List Lexeme.Token → Prop
  | done : Steps like row [] []
  | token {token other : Lexeme.Token} {rest others : List Lexeme.Token}
      (front : like.Front token other)
      (behind : Solid token.kind ∨ token.kind = .indentation → row rest others) :
      Steps like row (token :: rest) (other :: others)

/-- Rows that no rule tells apart, and how the problems that are found in them may differ. -/
structure Pairing extends Likeness where
  row : List Lexeme.Token → List Lexeme.Token → Prop
  problem : Problem → Problem → Prop
  step : ∀ {tokens others : List Lexeme.Token}, row tokens others →
    toLikeness.Steps row tokens others
  lines : ∀ {tokens others : List Lexeme.Token}, row tokens others →
    row (skipNewLines tokens) (skipNewLines others)
  missed : ∀ {tokens others : List Lexeme.Token} (expected : String), row tokens others →
    problem (unexpected expected tokens) (unexpected expected others)
  caused : ∀ {span other : Span} (cause : Cause),
    (∀ found expected, cause ≠ .unexpectedToken found expected) → Spanned place span other →
      problem ⟨cause, span⟩ ⟨cause, other⟩

def Pairing.ofTokens (like : Likeness) {related : Lexeme.Token → Lexeme.Token → Prop}
    (front : ∀ token other, related token other → like.Front token other)
    (problem : Problem → Problem → Prop)
    (missed : ∀ {tokens others : List Lexeme.Token} (expected : String),
      List.Forall₂ related tokens others →
        problem (unexpected expected tokens) (unexpected expected others))
    (caused : ∀ {span other : Span} (cause : Cause),
      (∀ found expected, cause ≠ .unexpectedToken found expected) →
        Spanned like.place span other → problem ⟨cause, span⟩ ⟨cause, other⟩) : Pairing where
  toLikeness := like
  row := List.Forall₂ related
  problem := problem
  step := by
    intro tokens others row
    cases row with
    | nil => exact .done
    | cons same rest => exact .token (front _ _ same) fun _ => rest
  lines row := skipNewLines_related (fun _ _ same => (front _ _ same).kind) row
  missed := missed
  caused := caused

def Likeness.pairing (like : Likeness) : Pairing :=
  .ofTokens like (fun _ _ (same : like.Token _ _) => ⟨same.kind, fun _ => same, same.level⟩)
    (fun _ _ => True) (fun _ _ => trivial) fun _ _ _ => trivial

/-- Two readings come to values that are related or to problems that are, or the second misses a
colon that only its options ask for. The first misses none that its options do not ask for. -/
inductive Agrees (pairing : Pairing) (options options' : Options) {α β : Type}
    (related : α → β → Prop) : Except Problem α → Except Problem β → Prop
  | read {value : α} {other : β} (same : related value other) :
      Agrees pairing options options' related (.ok value) (.ok other)
  | stopped {problem other : Problem} (same : pairing.problem problem other)
      (asked : problem.WantsColon → options.enforceColons = true) :
      Agrees pairing options options' related (.error problem) (.error other)
  | refused {outcome : Except Problem α} {problem : Problem}
      (lax : options.enforceColons = false) (strict : options'.enforceColons = true)
      (wants : problem.WantsColon) :
      Agrees pairing options options' related outcome (.error problem)

def Options.Loosens (options options' : Options) : Prop :=
  options.enforceColons = true → options'.enforceColons = true

structure Pairing.Leaves (pairing : Pairing) {α β : Type} {m n : Nat} (related : α → β → Prop)
    (read : Reading α m) (other : Reading β n) : Prop where
  value : related read.value other.value
  rest : pairing.row read.rest other.rest

section Outcomes

variable {pairing : Pairing} {options options' : Options} {α β γ δ : Type}
  {related : α → β → Prop} {related' : γ → δ → Prop}

theorem Agrees.andThen {first : Except Problem α} {second : Except Problem β}
    {outcome : Except Problem γ} {outcome' : Except Problem δ}
    (agrees : Agrees pairing options options' related first second)
    (goes : ∀ value other, first = .ok value → second = .ok other → related value other →
      Agrees pairing options options' related' outcome outcome')
    (failed : ∀ problem, first = .error problem → outcome = .error problem := by
      intro _ ran
      rw [ran])
    (failed' : ∀ problem, second = .error problem → outcome' = .error problem := by
      intro _ ran
      rw [ran]) :
    Agrees pairing options options' related' outcome outcome' := by
  cases agrees with
  | read same => exact goes _ _ rfl rfl same
  | stopped same asked =>
      rw [failed _ rfl, failed' _ rfl]
      exact .stopped same asked
  | refused lax strict wants =>
      rw [failed' _ rfl]
      exact .refused lax strict wants

theorem Agrees.bind {first : Except Problem α} {second : Except Problem β}
    {next : α → Except Problem γ} {next' : β → Except Problem δ}
    (agrees : Agrees pairing options options' related first second)
    (goes : ∀ value other, related value other →
      Agrees pairing options options' related' (next value) (next' other)) :
    Agrees pairing options options' related' (first >>= next) (second >>= next') := by
  cases agrees with
  | read same => exact goes _ _ same
  | stopped same asked => exact .stopped same asked
  | refused lax strict wants => exact .refused lax strict wants

theorem wantsColon_unexpected_iff {expected : String} {tokens : List Lexeme.Token} :
    (unexpected expected tokens).WantsColon ↔ expected = "Colon" := by
  simp [Problem.WantsColon, unexpected]

theorem agrees_caused {cause : Cause} {span other : Span}
    (apart : ∀ found expected, cause ≠ .unexpectedToken found expected)
    (spanned : Spanned pairing.place span other) :
    Agrees pairing options options' related (.error ⟨cause, span⟩) (.error ⟨cause, other⟩) := by
  refine .stopped (pairing.caused cause apart spanned) ?_
  rintro ⟨found, same⟩
  exact absurd same (apart found _)

end Outcomes

namespace Pairing

variable {pairing : Pairing} {options options' : Options} {indent indent' : Nat}
  {tokens tokens' : List Lexeme.Token} {inline inline' : List Node}

section Looking

theorem current_kind (row : pairing.row tokens tokens') :
    (current tokens).kind = (current tokens').kind := by
  cases pairing.step row with
  | done => rfl
  | token front behind => exact front.kind

theorem current_level (row : pairing.row tokens tokens')
    (indentation : (current tokens).kind = .indentation) :
    pairing.level (current tokens).span.length (current tokens').span.length := by
  cases pairing.step row with
  | done => cases indentation
  | token front behind => exact front.level indentation

theorem opensDeeper_eq (row : pairing.row tokens tokens') (level : pairing.level indent indent') :
    opensDeeper indent tokens = opensDeeper indent' tokens' := by
  rw [opensDeeper, opensDeeper, ← current_kind row]
  by_cases indentation : (current tokens).kind = .indentation
  · rw [decide_eq_decide.mpr (pairing.deeper level (current_level row indentation))]
  · simp [indentation]

theorem standsAlone_eq (row : pairing.row tokens tokens') (level : pairing.level indent indent') :
    standsAlone indent tokens = standsAlone indent' tokens' := by
  rw [standsAlone, standsAlone, ← current_kind row, opensDeeper_eq (pairing.lines row) level]

theorem skipComma_row (row : pairing.row tokens tokens') :
    pairing.row (skipComma tokens) (skipComma tokens') := by
  cases pairing.step row with
  | done => exact row
  | @token token other rest others front behind =>
      rw [skipComma, skipComma, ← front.kind]
      split
      · next comma =>
          apply behind
          rw [comma]
          exact .inl (.inr (.inr rfl))
      · exact row

theorem skipIndentation_row (row : pairing.row tokens tokens') :
    pairing.row (skipIndentation tokens) (skipIndentation tokens') := by
  rw [skipIndentation, skipIndentation, ← current_kind row]
  split
  · next indentation =>
      cases pairing.step row with
      | done => exact row
      | token front behind => exact behind (.inr indentation)
  · exact row

theorem lineIndent_level (row : pairing.row tokens tokens')
    (level : pairing.level indent indent') :
    pairing.level (lineIndent indent tokens) (lineIndent indent' tokens') := by
  rw [lineIndent, lineIndent, ← current_kind row]
  split
  · next indentation => exact current_level row indentation
  · exact level

theorem constant?_eq {token other : Lexeme.Token} (front : pairing.Front token other) :
    constant? token = constant? other := by
  by_cases solid : Solid token.kind
  · exact Likeness.constant?_eq (front.solid solid)
  · have none : ∀ {token : Lexeme.Token}, ¬ Solid token.kind → constant? token = none := by
      intro token hollow
      cases found : constant? token with
      | none => rfl
      | some kind => exact absurd (solid_of_constant found) hollow
    rw [none solid, none (front.kind ▸ solid)]

theorem isValue_getLast? (trees : pairing.Trees inline inline') :
    inline.getLast?.any Node.isValue = inline'.getLast?.any Node.isValue := by
  have last := getLast?_alike trees
  generalize inline.getLast? = node?, inline'.getLast? = node?' at last ⊢
  cases last with
  | none => rfl
  | some alike => exact alike.isValue

end Looking

section Taking

theorem expect_agrees {kinds : List Kind} (solid : ∀ kind ∈ kinds, Solid kind)
    (other : namesOf kinds ≠ "Colon") (row : pairing.row tokens tokens') :
    Agrees pairing options options'
      (pairing.Leaves fun token other => pairing.Token token other ∧ token.kind ∈ kinds)
      (expect kinds tokens) (expect kinds tokens') := by
  have failed := pairing.missed (namesOf kinds) row
  have asked : (unexpected (namesOf kinds) tokens).WantsColon → options.enforceColons = true :=
    fun wants => absurd (wantsColon_unexpected_iff.mp wants) other
  cases pairing.step row with
  | done => exact .stopped failed asked
  | @token token other rest others front behind =>
      rw [expect, expect, ← front.kind]
      split
      · next listed =>
          have member : token.kind ∈ kinds := by simpa using listed
          have takes : Solid token.kind := solid token.kind member
          exact .read ⟨⟨front.solid takes, member⟩, behind (.inl takes)⟩
      · exact .stopped failed asked

theorem expect_one_agrees {kind : Kind} (solid : Solid kind) (other : kind.name ≠ "Colon")
    (row : pairing.row tokens tokens') :
    Agrees pairing options options'
      (pairing.Leaves fun token other => pairing.Token token other ∧ token.kind = kind)
      (expect [kind] tokens) (expect [kind] tokens') := by
  have agrees : Agrees pairing options options' _ (expect [kind] tokens) (expect [kind] tokens') :=
    expect_agrees (List.forall_mem_singleton.mpr solid) other row
  simpa only [List.mem_singleton] using agrees

def ColonPair (pairing : Pairing) (colon other : Option Lexeme.Token) : Prop :=
  Option.Rel pairing.Token colon other ∧ ∀ token ∈ colon, token.kind = .colon

theorem colon?_agrees (loosens : options.Loosens options') (row : pairing.row tokens tokens') :
    Agrees pairing options options' (pairing.Leaves pairing.ColonPair)
      (colon? options tokens) (colon? options' tokens') := by
  have kind := current_kind row
  by_cases present : (current tokens).kind = .colon
  · cases pairing.step row with
    | done => cases present
    | @token token other rest others front behind =>
        have colon : token.kind = .colon := present
        have solid : Solid token.kind := colon ▸ .inr (.inr rfl)
        rw [colon?_present colon, colon?_present (front.kind ▸ colon)]
        exact .read ⟨⟨.some (front.solid solid), by rintro _ ⟨⟩; exact colon⟩, behind (.inl solid)⟩
  · rw [colon?_absent present, colon?_absent (kind ▸ present)]
    cases asks : options.enforceColons with
    | true =>
        rw [if_pos rfl, if_pos (loosens asks)]
        exact .stopped (pairing.missed _ row) fun _ => asks
    | false =>
        rw [if_neg Bool.false_ne_true]
        cases asks' : options'.enforceColons with
        | true =>
            rw [if_pos rfl]
            exact .refused asks asks' (wantsColon_unexpected_iff.mpr rfl)
        | false =>
            rw [if_neg Bool.false_ne_true]
            exact .read ⟨⟨.none, by rintro _ ⟨⟩⟩, row⟩

theorem headerColon?_agrees (loosens : options.Loosens options')
    (row : pairing.row tokens tokens') (trees : pairing.Trees inline inline') :
    Agrees pairing options options' (pairing.Leaves pairing.ColonPair)
      (headerColon? options inline tokens) (headerColon? options' inline' tokens') := by
  rw [headerColon?, headerColon?, ← current_kind row, ← isValue_getLast? trees]
  split
  · exact .read ⟨⟨.none, by rintro _ ⟨⟩⟩, row⟩
  · exact colon?_agrees loosens row

theorem propertyNode_agrees {dot dot' name name' : Lexeme.Token}
    {colon colon' : Option Lexeme.Token} {nodes nodes' : List Node}
    (mark : pairing.Token dot dot') (marked : dot.kind = .dot) (same : pairing.Token name name')
    (named : name.kind = .identifier) (colons : pairing.ColonPair colon colon')
    (trees : pairing.Trees nodes nodes') :
    Agrees pairing options options' (Alike pairing.place)
      (propertyNode dot name colon nodes) (propertyNode dot' name' colon' nodes') := by
  cases trees with
  | nil =>
      have start := (mark.solid (solid_of_dot marked)).start
      have stop : pairing.place (colon.getD name).span.stop (colon'.getD name').span.stop := by
        rcases colons with ⟨colons, kind⟩
        cases colons with
        | none => exact (same.solid (solid_of_name named)).stop
        | some same => exact (same.solid (kind _ rfl ▸ .inr (.inr rfl))).stop
      have none : ∀ {span : Span}, Node.property? name'.value span [] = none := rfl
      rw [propertyNode, propertyNode, same.value, none, none]
      exact agrees_caused (by simp) ⟨start, stop⟩
  | @cons child child' more more' first others =>
      obtain ⟨node, built⟩ : ∃ node, propertyNode dot name colon (child :: more) = .ok node := by
        rw [propertyNode]
        split
        · exact ⟨_, rfl⟩
        · next none => cases (Node.property?_eq_none_iff _ _ _).mp none
      obtain ⟨node', built', alike⟩ :=
        Likeness.propertyNode_alike mark marked same (.cons first others) colon colon' built
      rw [built, built']
      exact .read alike

theorem reference_agrees {leaf : Leaf} {mark mark' : Lexeme.Token}
    (start : pairing.place mark.span.start mark'.span.start) (row : pairing.row tokens tokens') :
    Agrees pairing options options' (pairing.Leaves (Alike pairing.place))
      (reference leaf mark tokens) (reference leaf mark' tokens') := by
  have word : Solid Kind.identifier := .inr (.inl rfl)
  rw [reference, reference]
  refine (expect_one_agrees word (by decide) row).andThen fun name name' ran ran' same => ?_
  simp only [ran, ran']
  have stop := (same.value.1.solid (solid_of_name same.value.2)).stop
  rw [same.value.1.value]
  exact .read ⟨.leaf _ _ ⟨start, stop⟩, same.rest⟩

end Taking

mutual

theorem node_agrees (loosens : options.Loosens options') (tokens tokens' : List Lexeme.Token)
    {indent indent' : Nat} (level : pairing.level indent indent')
    (row : pairing.row tokens tokens') :
    Agrees pairing options options' (pairing.Leaves (Alike pairing.place))
      (node options indent tokens) (node options' indent' tokens') := by
  have := skipIndentation_length_le tokens
  have content := content_agrees loosens _ _ (lineIndent_level row level) (skipIndentation_row row)
  rw [node, node]
  refine content.andThen fun read other ran ran' same => ?_
  simp only [ran, ran']
  exact .read ⟨same.value, same.rest⟩
termination_by 5 * tokens.length + 2

theorem content_agrees (loosens : options.Loosens options') (tokens tokens' : List Lexeme.Token)
    {indent indent' : Nat} (level : pairing.level indent indent')
    (row : pairing.row tokens tokens') :
    Agrees pairing options options' (pairing.Leaves (Alike pairing.place))
      (content options indent tokens) (content options' indent' tokens') := by
  cases pairing.step row with
  | done =>
      rw [content, content]
      exact element_agrees loosens [] [] level (by decide) row
  | @token token other rest others front behind =>
      have referred : ∀ {leaf : Leaf}, Solid token.kind → Agrees pairing options options'
          (pairing.Leaves (Alike pairing.place)) (reference leaf token rest)
            (reference leaf other others) :=
        fun solid => reference_agrees ((front.solid solid).solid solid).start (behind (.inl solid))
      rw [content, content, ← constant?_eq front, ← front.kind]
      split
      · next kind literal =>
          have solid := solid_of_constant literal
          rw [(front.solid solid).value]
          exact .read ⟨.leaf _ _ ((front.solid solid).solid solid), behind (.inl solid)⟩
      · next notLiteral =>
        split
        · next dot => exact property_agrees loosens (token :: rest) (other :: others) level row
        · next dollar =>
            refine (referred (dollar ▸ .inr (.inr rfl))).andThen fun read other ran ran' same => ?_
            simp only [ran, ran']
            exact .read ⟨same.value, same.rest⟩
        · next ampersand =>
            refine (referred (ampersand ▸ .inr (.inr rfl))).andThen
              fun read other ran ran' same => ?_
            simp only [ran, ran']
            exact .read ⟨same.value, same.rest⟩
        · exact element_agrees loosens (token :: rest) (other :: others) level notLiteral row
termination_by 5 * tokens.length + 1

theorem element_agrees (loosens : options.Loosens options') (tokens tokens' : List Lexeme.Token)
    {indent indent' : Nat} (level : pairing.level indent indent')
    (notLiteral : constant? (current tokens) = none) (row : pairing.row tokens tokens') :
    Agrees pairing options options' (pairing.Leaves (Alike pairing.place))
      (element options indent tokens) (element options' indent' tokens') := by
  have solid : ∀ kind ∈ [Kind.identifier, Kind.widget], Solid kind := by
    simp [Solid, Kind.category]
  rw [element, element]
  refine (expect_agrees solid (by decide) row).andThen fun name name' ran ran' same => ?_
  simp only [ran, ran']
  have := name.shorter
  obtain ⟨front, kinds⟩ := expect_yields_iff.mp (.of_eq ran)
  have header : IsHeader name.value :=
    ⟨by simpa using kinds, by rw [front] at notLiteral; exact notLiteral⟩
  rw [← standsAlone_eq same.rest level]
  split
  · rw [same.value.1.value]
    exact .read ⟨.leaf _ _ (same.value.1.solid (solid_of_header header)), same.rest⟩
  · have inline := arguments_agrees loosens name.rest name'.rest level same.rest
    refine inline.andThen fun inline inline' ran ran' beside => ?_
    simp only [ran, ran']
    have := inline.shorter
    have colon := headerColon?_agrees loosens beside.rest beside.value
    refine colon.andThen fun colon colon' ran ran' ended => ?_
    simp only [ran, ran']
    have := colon.shorter
    have below := block_agrees loosens colon.rest colon'.rest level ended.rest
    refine below.andThen fun below below' ran ran' under => ?_
    simp only [ran, ran']
    exact .read ⟨Likeness.elementNode_alike same.value.1 header beside.value ended.value.1
      ended.value.2 under.value, under.rest⟩
termination_by 5 * tokens.length + 0

theorem property_agrees (loosens : options.Loosens options') (tokens tokens' : List Lexeme.Token)
    {indent indent' : Nat} (level : pairing.level indent indent')
    (row : pairing.row tokens tokens') :
    Agrees pairing options options' (pairing.Leaves (Alike pairing.place))
      (property options indent tokens) (property options' indent' tokens') := by
  have point : Solid Kind.dot := .inr (.inr rfl)
  have word : Solid Kind.identifier := .inr (.inl rfl)
  rw [property, property]
  refine (expect_one_agrees point (by decide) row).andThen fun dot dot' ran ran' mark => ?_
  simp only [ran, ran']
  have := dot.shorter
  refine (expect_one_agrees word (by decide) mark.rest).andThen fun name name' ran ran' same => ?_
  simp only [ran, ran']
  have := name.shorter
  refine (colon?_agrees loosens same.rest).andThen fun colon colon' ran ran' ended => ?_
  simp only [ran, ran']
  have := colon.shorter
  have held := values_agrees loosens colon.rest colon'.rest level ended.rest
  refine held.andThen fun children children' ran ran' held => ?_
  simp only [ran, ran']
  refine (propertyNode_agrees mark.value.1 mark.value.2 same.value.1 same.value.2 ended.value
    held.value).andThen fun node node' ran ran' alike => ?_
  simp only [ran, ran']
  exact .read ⟨alike, held.rest⟩
termination_by 5 * tokens.length + 0

theorem values_agrees (loosens : options.Loosens options') (tokens tokens' : List Lexeme.Token)
    {indent indent' : Nat} (level : pairing.level indent indent')
    (row : pairing.row tokens tokens') :
    Agrees pairing options options' (pairing.Leaves pairing.Trees)
      (values options indent tokens) (values options' indent' tokens') := by
  rw [values, values, ← current_kind row]
  split
  · exact block_agrees loosens tokens tokens' level row
  · have child := node_agrees loosens tokens tokens' level row
    refine child.andThen fun child child' ran ran' same => ?_
    simp only [ran, ran']
    exact .read ⟨.cons same.value .nil, same.rest⟩
termination_by 5 * tokens.length + 4

theorem arguments_agrees (loosens : options.Loosens options')
    (tokens tokens' : List Lexeme.Token) {indent indent' : Nat}
    (level : pairing.level indent indent') (row : pairing.row tokens tokens') :
    Agrees pairing options options' (pairing.Leaves pairing.Trees)
      (arguments options indent tokens) (arguments options' indent' tokens') := by
  rw [arguments, arguments, ← current_kind row]
  split
  · exact .read ⟨.nil, row⟩
  · have child := node_agrees loosens tokens tokens' level row
    refine child.andThen fun child child' ran ran' same => ?_
    simp only [ran, ran']
    have := child.shorter
    have := skipComma_length_le child.rest
    have more := arguments_agrees loosens _ _ level (skipComma_row same.rest)
    refine more.andThen fun more more' ran ran' others => ?_
    simp only [ran, ran']
    exact .read ⟨.cons same.value others.value, others.rest⟩
termination_by 5 * tokens.length + 3

theorem block_agrees (loosens : options.Loosens options') (tokens tokens' : List Lexeme.Token)
    {indent indent' : Nat} (level : pairing.level indent indent')
    (row : pairing.row tokens tokens') :
    Agrees pairing options options' (pairing.Leaves pairing.Trees)
      (block options indent tokens) (block options' indent' tokens') := by
  have := skipNewLines_length_le tokens
  have lines := pairing.lines row
  rw [block, block, ← opensDeeper_eq lines level]
  split
  · refine (node_agrees loosens _ _ level lines).andThen fun child child' ran ran' same => ?_
    simp only [ran, ran']
    have := child.shorter
    have more := block_agrees loosens child.rest child'.rest level same.rest
    refine more.andThen fun more more' ran ran' others => ?_
    simp only [ran, ran']
    exact .read ⟨.cons same.value others.value, others.rest⟩
  · exact .read ⟨.nil, lines⟩
termination_by 5 * tokens.length + 3

end

end Pairing

abbrev AlikeProperties (place : Location → Location → Prop) (property other : Property) : Prop :=
  Alike place property.toNode other.toNode

structure AlikeDocuments (place : Location → Location → Prop) (document other : Document) :
    Prop where
  kind : document.kind = other.kind
  viewModel : AlikeProperties place document.viewModel other.viewModel
  view : AlikeProperties place document.view other.view

section Wholes

variable {pairing : Pairing} {options options' : Options} {tokens tokens' : List Lexeme.Token}
  {place : Location → Location → Prop} {node other : Node}

theorem AlikeProperties.child {property other : Property}
    (alike : AlikeProperties place property other) : Alike place property.child other.child := by
  rcases property with ⟨name, child, span⟩
  rcases other with ⟨name', child', span'⟩
  cases alike with
  | single _ _ below _ => exact below

theorem AlikeDocuments.imp {place' : Location → Location → Prop} {document other : Document}
    (weaker : ∀ a b, place a b → place' a b) (alike : AlikeDocuments place document other) :
    AlikeDocuments place' document other :=
  ⟨alike.kind, alike.viewModel.imp weaker _, alike.view.imp weaker _⟩

theorem viewModel?_alike (alike : Alike place node other) :
    Option.Rel (AlikeProperties place) (viewModel? node) (viewModel? other) := by
  cases alike with
  | leaf _ _ _ => exact .none
  | many _ _ _ _ => exact .none
  | single role name below spanned =>
      cases role with
      | element => exact .none
      | property =>
          cases below with
          | single _ _ _ _ | many _ _ _ _ => exact .none
          | leaf leaf value inner =>
              cases leaf with
              | call | callback | constant _ => exact .none
              | identifier =>
                  rw [viewModel?, viewModel?]
                  split
                  · exact .some (.single _ _ (.leaf _ _ inner) spanned)
                  · exact .none

theorem view?_alike (alike : Alike place node other) :
    Option.Rel (AlikeProperties place) (view? node) (view? other) := by
  cases alike with
  | leaf _ _ _ => exact .none
  | many _ _ _ _ => exact .none
  | single role name below spanned =>
      cases role with
      | element => exact .none
      | property =>
          rw [view?, view?]
          split
          · exact .some (.single _ _ below spanned)
          · exact .none

theorem isWidget_alike (alike : Alike place node other) : isWidget node = isWidget other := by
  cases alike with
  | leaf leaf _ _ => cases leaf <;> rfl
  | single role _ _ _ => cases role <;> rfl
  | many role _ _ _ => cases role <;> rfl

theorem expectEnd_agrees (row : pairing.row tokens tokens') :
    Agrees pairing options options' (fun _ _ => True) (expectEnd tokens) (expectEnd tokens') := by
  have lines := pairing.lines row
  have failed := pairing.missed "EndOfFile" lines
  have asked : (unexpected "EndOfFile" (skipNewLines tokens)).WantsColon →
      options.enforceColons = true :=
    fun wants => absurd (wantsColon_unexpected_iff.mp wants) (by decide)
  rw [expectEnd, expectEnd]
  generalize skipNewLines tokens = left, skipNewLines tokens' = left' at lines failed asked ⊢
  cases pairing.step lines with
  | done => exact .stopped failed asked
  | token front behind =>
      rw [expect, expect, ← front.kind]
      split
      · exact .read trivial
      · exact .stopped failed asked

theorem fragment_agrees (loosens : options.Loosens options') (flat : pairing.level 0 0)
    (row : pairing.row tokens tokens') :
    Agrees pairing options options' (Alike pairing.place)
      (fragment options tokens) (fragment options' tokens') := by
  rw [fragment, fragment]
  apply (Pairing.node_agrees loosens _ _ flat (pairing.lines row)).bind
  intro read read' same
  apply (expectEnd_agrees (Pairing.skipComma_row same.rest)).bind
  intro _ _ _
  exact .read same.value

theorem document_agrees (loosens : options.Loosens options') (flat : pairing.level 0 0)
    (row : pairing.row tokens tokens') :
    Agrees pairing options options' (AlikeDocuments pairing.place)
      (document options tokens) (document options' tokens') := by
  have word : Solid Kind.identifier := .inr (.inl rfl)
  have comma : Solid Kind.comma := .inr (.inr rfl)
  rw [document, document]
  apply (Pairing.expect_one_agrees word (by decide) (pairing.lines row)).bind
  intro root root' same
  rw [← same.value.1.value]
  split
  · next kind _ =>
      apply (Pairing.property_agrees loosens _ _ flat (pairing.lines same.rest)).bind
      intro first first' one
      have held := viewModel?_alike one.value
      generalize viewModel? first.value = found, viewModel? first'.value = found' at held ⊢
      cases held with
      | none => exact agrees_caused (by simp) one.value.spanned
      | some viewModels =>
          apply (Pairing.expect_one_agrees comma (by decide) one.rest).bind
          intro divider divider' divided
          apply (Pairing.property_agrees loosens _ _ flat (pairing.lines divided.rest)).bind
          intro second second' two
          have shown := view?_alike two.value
          generalize view? second.value = found, view? second'.value = found' at shown ⊢
          cases shown with
          | none => exact agrees_caused (by simp) two.value.spanned
          | some views =>
              simp only [← isWidget_alike views.child]
              split
              · apply (expectEnd_agrees two.rest).bind
                intro _ _ _
                exact .read ⟨rfl, viewModels, views⟩
              · exact agrees_caused (by simp) views.child.spanned
  · exact agrees_caused (by simp) (same.value.1.solid (solid_of_name same.value.2))

end Wholes

section Alikeness

variable {pairing : Pairing} {options : Options} {α β : Type}

theorem Agrees.exists_ok {related : α → β → Prop} {value : α} {outcome : Except Problem β}
    (agrees : Agrees pairing options options related (.ok value) outcome) :
    ∃ other, outcome = .ok other ∧ related value other := by
  cases agrees with
  | read same => exact ⟨_, rfl, same⟩
  | refused lax strict _ => exact absurd (lax.symm.trans strict) Bool.false_ne_true

theorem Agrees.mapError_eq {γ : Type} {options' : Options} {related : α → α → Prop}
    {outcome outcome' : Except Problem α} (tell : Problem → γ)
    (problems : ∀ problem other, pairing.problem problem other → tell problem = tell other)
    (values : ∀ value other, related value other → value = other)
    (asked : options.enforceColons = options'.enforceColons)
    (agrees : Agrees pairing options options' related outcome outcome') :
    outcome.mapError tell = outcome'.mapError tell := by
  cases agrees with
  | read same => rw [values _ _ same]
  | stopped same _ => exact congrArg Except.error (problems _ _ same)
  | refused lax strict _ => exact absurd (lax.symm.trans (asked.trans strict)) Bool.false_ne_true

theorem Agrees.eq {options' : Options} {related : α → α → Prop}
    {outcome outcome' : Except Problem α}
    (problems : ∀ problem other, pairing.problem problem other → problem = other)
    (values : ∀ value other, related value other → value = other)
    (asked : options.enforceColons = options'.enforceColons)
    (agrees : Agrees pairing options options' related outcome outcome') : outcome = outcome' := by
  have untold : ∀ outcome : Except Problem α, outcome.mapError id = outcome := by
    intro outcome
    cases outcome with
    | ok | error => rfl
  have same := agrees.mapError_eq id problems values asked
  rwa [untold, untold] at same

/-- From rows that are alike the rules read trees that are alike. -/
theorem Derives.alike {part : Part} {indent : Nat} {tokens rest : List Lexeme.Token}
    {nodes : List Node} (like : Likeness)
    (derives : Derives options part indent tokens nodes rest) :
    ∀ indent' tokens', like.level indent indent' → like.Row tokens tokens' →
      ∃ nodes' rest', Derives options part indent' tokens' nodes' rest' ∧
        like.Trees nodes nodes' ∧ like.Row rest rest' := by
  intro indent' tokens' level row
  have row : like.pairing.row tokens tokens' := row
  have level : like.pairing.level indent indent' := level
  have same : options.Loosens options := id
  cases part with
  | node =>
      obtain ⟨child, rfl, shorter, ran⟩ := derives.reads
      have agrees := Pairing.node_agrees same tokens tokens' level row
      rw [ran] at agrees
      obtain ⟨read, found, leaves⟩ := agrees.exists_ok
      exact ⟨[read.value], read.rest, derives_of_node options indent' tokens' found,
        .cons leaves.value .nil, leaves.rest⟩
  | content =>
      obtain ⟨child, rfl, shorter, ran⟩ := derives.reads
      have agrees := Pairing.content_agrees same tokens tokens' level row
      rw [ran] at agrees
      obtain ⟨read, found, leaves⟩ := agrees.exists_ok
      exact ⟨[read.value], read.rest, derives_of_content options indent' tokens' found,
        .cons leaves.value .nil, leaves.rest⟩
  | arguments =>
      obtain ⟨shorter, ran⟩ := derives.reads
      have agrees := Pairing.arguments_agrees same tokens tokens' level row
      rw [ran] at agrees
      obtain ⟨read, found, leaves⟩ := agrees.exists_ok
      exact ⟨read.value, read.rest, derives_of_arguments options indent' tokens' found,
        leaves.value, leaves.rest⟩
  | block =>
      obtain ⟨shorter, ran⟩ := derives.reads
      have agrees := Pairing.block_agrees same tokens tokens' level row
      rw [ran] at agrees
      obtain ⟨read, found, leaves⟩ := agrees.exists_ok
      exact ⟨read.value, read.rest, derives_of_block options indent' tokens' found,
        leaves.value, leaves.rest⟩

end Alikeness

end WidgetTree.Grammar
