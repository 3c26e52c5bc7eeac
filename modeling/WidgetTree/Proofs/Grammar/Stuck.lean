import WidgetTree.Proofs.Grammar.Conservation
import WidgetTree.Proofs.Grammar.WellFormed

namespace WidgetTree.Grammar

open Lexeme (Kind Token)
open WidgetTree.Tree (Document Leaf Node Property WidgetKind)

def Ended (tokens : List Token) : Prop := ∃ token ∈ tokens, token.kind = .endOfFile

def Leaves (tokens rest : List Token) : Prop :=
  ∃ taken, tokens = taken ++ rest ∧ ∀ token ∈ taken, token.kind ≠ .endOfFile

/-- Where the reading of a row can stop: in front of a token, or with something that was read and
that stands from one token to another. -/
inductive Stuck (row : List Token) (problem : Problem) : Prop
  | unexpected {token : Token} {rest : List Token} (expected : String)
      (behind : token :: rest <:+ row)
      (same : problem = Grammar.unexpected expected (token :: rest)) : Stuck row problem
  | read {core : List Token} {first last : Token} (less : core.Sublist row)
      (head : first ∈ core.head?) (atEnd : last ∈ core.getLast?)
      (start : problem.span.start = first.span.start)
      (stop : problem.span.stop = last.span.stop) : Stuck row problem

variable {options : Options} {indent : Nat} {tokens rest left : List Token} {problem : Problem}

section Rows

theorem Leaves.trans (first : Leaves tokens rest) (second : Leaves rest left) :
    Leaves tokens left := by
  obtain ⟨taken, rfl, goes⟩ := first
  obtain ⟨more, rfl, others⟩ := second
  exact ⟨taken ++ more, (List.append_assoc ..).symm, List.forall_mem_append.mpr ⟨goes, others⟩⟩

theorem Leaves.ended (leaves : Leaves tokens rest) (ended : Ended tokens) : Ended rest := by
  obtain ⟨taken, rfl, goes⟩ := leaves
  obtain ⟨token, member, kind⟩ := ended
  rcases List.mem_append.mp member with inside | behind
  · exact absurd kind (goes token inside)
  · exact ⟨token, behind, kind⟩

theorem Leaves.suffix (leaves : Leaves tokens rest) : rest <:+ tokens := by
  obtain ⟨taken, rfl, -⟩ := leaves
  exact List.suffix_append taken rest

theorem Leaves.stuck (leaves : Leaves tokens rest) (ended : Ended tokens)
    (inner : Ended rest → Stuck rest problem) : Stuck tokens problem := by
  cases inner (leaves.ended ended) with
  | unexpected expected behind same => exact .unexpected expected (behind.trans leaves.suffix) same
  | read less head atEnd start stop =>
      exact .read (less.trans leaves.suffix.sublist) head atEnd start stop

theorem Takes.leaves {kind : Kind} (takes : Takes kind tokens rest) (goes : kind ≠ .endOfFile) :
    Leaves tokens rest := by
  obtain ⟨taken, rfl, same⟩ := takes
  refine ⟨taken, rfl, fun token member => ?_⟩
  rw [same token member]
  exact goes

theorem leaves_of_expect {kinds : List Kind} {token : Token}
    (read : Yields (expect kinds tokens) token rest) (goes : .endOfFile ∉ kinds) :
    Leaves tokens rest := by
  obtain ⟨rfl, listed⟩ := expect_yields_iff.mp read
  refine ⟨[token], rfl, List.forall_mem_singleton.mpr fun kind => ?_⟩
  rw [kind] at listed
  exact goes listed

theorem Derives.leaves {part : Part} {nodes : List Node}
    (derives : Derives options part indent tokens nodes rest) : Leaves tokens rest := by
  obtain ⟨taken, split, goes, -⟩ := derives.spends
  exact ⟨taken, split, fun token member => (goes token member).2⟩

end Rows

section Steps

theorem stuck_of_expect {kinds : List Kind} (ended : Ended tokens)
    (ran : expect kinds tokens = .error problem) : Stuck tokens problem := by
  cases tokens with
  | nil =>
      obtain ⟨token, member, -⟩ := ended
      cases member
  | cons token rest =>
      rw [expect] at ran
      split at ran
      · cases ran
      · cases ran
        exact .unexpected _ List.suffix_rfl rfl

theorem stuck_of_colon? (ended : Ended tokens) (ran : colon? options tokens = .error problem) :
    Stuck tokens problem := by
  rw [colon?] at ran
  split at ran
  · split at ran
    · next failed =>
        cases ran
        exact stuck_of_expect ended failed
    · cases ran
  · cases ran

theorem stuck_of_headerColon? {inline : List Node} (ended : Ended tokens)
    (ran : headerColon? options inline tokens = .error problem) : Stuck tokens problem := by
  rw [headerColon?] at ran
  split at ran
  · cases ran
  · exact stuck_of_colon? ended ran

theorem stuck_of_reference {leaf : Leaf} {mark : Token} (ended : Ended tokens)
    (ran : reference leaf mark tokens = .error problem) : Stuck tokens problem := by
  rw [reference] at ran
  split at ran
  · next failed =>
      cases ran
      exact stuck_of_expect ended failed
  · cases ran

theorem stuck_of_propertyNode {dot name : Token} {colon : Option Token} {children : List Node}
    {next : List Token} (ended : Yields (colon? options rest) colon next)
    (ran : propertyNode dot name colon children = .error problem) :
    Stuck (dot :: name :: rest) problem := by
  rw [propertyNode] at ran
  split at ran
  · cases ran
  · next none =>
      cases ran
      rw [(Node.property?_eq_none_iff _ _ _).mp none]
      rcases colon?_cases ended with ⟨token, rfl, -, rfl⟩ | ⟨rfl, -, -⟩
      · have less : [dot, name, token].Sublist (dot :: name :: token :: next) :=
          (List.sublist_append_left [dot, name, token] next)
        exact .read less rfl rfl rfl rfl
      · have less : [dot, name].Sublist (dot :: name :: rest) :=
          (List.sublist_append_left [dot, name] rest)
        exact .read less rfl rfl rfl rfl

end Steps

mutual

theorem node_stuck (options : Options) (indent : Nat) (tokens : List Token) (ended : Ended tokens)
    (ran : node options indent tokens = .error problem) : Stuck tokens problem := by
  have := skipIndentation_length_le tokens
  have leaves := (takes_indentation tokens).leaves (by decide)
  rw [node] at ran
  split at ran
  · next failed =>
      cases ran
      exact leaves.stuck ended fun ended => content_stuck options _ _ ended failed
  · cases ran
termination_by 5 * tokens.length + 2

theorem content_stuck (options : Options) (indent : Nat) (tokens : List Token)
    (ended : Ended tokens) (ran : content options indent tokens = .error problem) :
    Stuck tokens problem := by
  match tokens with
  | [] =>
      rw [content] at ran
      exact element_stuck options indent [] ended ran
  | token :: rest =>
      rw [content] at ran
      split at ran
      · cases ran
      · split at ran
        · exact property_stuck options indent (token :: rest) ended ran
        · next dollar =>
            have leaves := (Takes.one dollar rest).leaves (by decide)
            split at ran
            · next failed =>
                cases ran
                exact leaves.stuck ended fun ended => stuck_of_reference ended failed
            · cases ran
        · next ampersand =>
            have leaves := (Takes.one ampersand rest).leaves (by decide)
            split at ran
            · next failed =>
                cases ran
                exact leaves.stuck ended fun ended => stuck_of_reference ended failed
            · cases ran
        · exact element_stuck options indent (token :: rest) ended ran
termination_by 5 * tokens.length + 1

theorem element_stuck (options : Options) (indent : Nat) (tokens : List Token)
    (ended : Ended tokens) (ran : element options indent tokens = .error problem) :
    Stuck tokens problem := by
  rw [element] at ran
  split at ran
  · next failed =>
      cases ran
      exact stuck_of_expect ended failed
  · next name nameRan =>
      have := name.shorter
      have behindName := leaves_of_expect (.of_eq nameRan) (by decide)
      split at ran
      · cases ran
      · split at ran
        · next failed =>
            cases ran
            exact behindName.stuck ended fun ended => arguments_stuck options indent _ ended failed
        · next inline besideRan =>
            have := inline.shorter
            have beside := derives_of_arguments options indent name.rest besideRan
            have behindInline := behindName.trans beside.leaves
            split at ran
            · next failed =>
                cases ran
                exact behindInline.stuck ended fun ended => stuck_of_headerColon? ended failed
            · next colon colonRan =>
                have := colon.shorter
                have behindColon := behindInline.trans
                  ((takes_headerColon (.of_eq colonRan)).leaves (by decide))
                split at ran
                · next failed =>
                    cases ran
                    exact behindColon.stuck ended fun ended =>
                      block_stuck options indent _ ended failed
                · cases ran
termination_by 5 * tokens.length + 0

theorem property_stuck (options : Options) (indent : Nat) (tokens : List Token)
    (ended : Ended tokens) (ran : property options indent tokens = .error problem) :
    Stuck tokens problem := by
  rw [property] at ran
  split at ran
  · next failed =>
      cases ran
      exact stuck_of_expect ended failed
  · next dot dotRan =>
      have := dot.shorter
      have behindDot := leaves_of_expect (.of_eq dotRan) (by decide)
      obtain ⟨front, -⟩ := expect_yields_iff.mp (.of_eq dotRan)
      split at ran
      · next failed =>
          cases ran
          exact behindDot.stuck ended fun ended => stuck_of_expect ended failed
      · next name nameRan =>
          have := name.shorter
          have behindName := behindDot.trans (leaves_of_expect (.of_eq nameRan) (by decide))
          obtain ⟨second, -⟩ := expect_yields_iff.mp (.of_eq nameRan)
          split at ran
          · next failed =>
              cases ran
              exact behindName.stuck ended fun ended => stuck_of_colon? ended failed
          · next colon colonRan =>
              have := colon.shorter
              have behindColon := behindName.trans
                ((takes_colon (.of_eq colonRan)).leaves (by decide))
              split at ran
              · next failed =>
                  cases ran
                  exact behindColon.stuck ended fun ended =>
                    values_stuck options indent _ ended failed
              · split at ran
                · next failed =>
                    cases ran
                    rw [front, second]
                    exact stuck_of_propertyNode (.of_eq colonRan) failed
                · cases ran
termination_by 5 * tokens.length + 0

theorem values_stuck (options : Options) (indent : Nat) (tokens : List Token)
    (ended : Ended tokens) (ran : values options indent tokens = .error problem) :
    Stuck tokens problem := by
  rw [values] at ran
  split at ran
  · exact block_stuck options indent tokens ended ran
  · split at ran
    · next failed =>
        cases ran
        exact node_stuck options indent tokens ended failed
    · cases ran
termination_by 5 * tokens.length + 4

theorem arguments_stuck (options : Options) (indent : Nat) (tokens : List Token)
    (ended : Ended tokens) (ran : arguments options indent tokens = .error problem) :
    Stuck tokens problem := by
  rw [arguments] at ran
  split at ran
  · cases ran
  · split at ran
    · next failed =>
        cases ran
        exact node_stuck options indent tokens ended failed
    · next child childRan =>
        have := child.shorter
        have := skipComma_length_le child.rest
        have first := derives_of_node options indent tokens childRan
        have leaves := first.leaves.trans ((takes_comma _).leaves (by decide))
        split at ran
        · next failed =>
            cases ran
            exact leaves.stuck ended fun ended => arguments_stuck options indent _ ended failed
        · cases ran
termination_by 5 * tokens.length + 3

theorem block_stuck (options : Options) (indent : Nat) (tokens : List Token)
    (ended : Ended tokens) (ran : block options indent tokens = .error problem) :
    Stuck tokens problem := by
  have := skipNewLines_length_le tokens
  have leaves := (takes_newLines tokens).leaves (by decide)
  rw [block] at ran
  split at ran
  · split at ran
    · next failed =>
        cases ran
        exact leaves.stuck ended fun ended => node_stuck options indent _ ended failed
    · next child childRan =>
        have := child.shorter
        have first := derives_of_node options indent _ childRan
        have behind := leaves.trans first.leaves
        split at ran
        · next failed =>
            cases ran
            exact behind.stuck ended fun ended => block_stuck options indent _ ended failed
        · cases ran
  · cases ran
termination_by 5 * tokens.length + 3

end

section Documents

variable {row : List Token} {node : Node}

theorem Spans.stuck {core : List Token} (spans : Spans core node) (less : core.Sublist row)
    (same : problem.span = node.span) : Stuck row problem := by
  obtain ⟨first, head, -, start⟩ := spans.first
  obtain ⟨last, atEnd, -, stop⟩ := spans.last
  exact .read less head atEnd (by rw [same, start]) (by rw [same, stop])

theorem Covers.exists_spans {core : List Token} (covers : Covers core node) {child : Node}
    (member : child ∈ node.children) : ∃ own, own.Sublist core ∧ Spans own child := by
  obtain ⟨head, inner, tail, rfl, -, lays⟩ := covers.children
  obtain ⟨own, within, spans⟩ := lays.exists_spans child member
  refine ⟨own, within.trans ?_, spans⟩
  exact .trans (List.sublist_append_left inner tail) (List.sublist_append_right head _)

theorem bind_eq_error {α β : Type} {step : Except Problem α} {next : α → Except Problem β}
    (ran : (step >>= next) = .error problem) :
    step = .error problem ∨ ∃ value, step = .ok value ∧ next value = .error problem := by
  cases step with
  | error other =>
      cases ran
      exact .inl rfl
  | ok value => exact .inr ⟨value, rfl, ran⟩

theorem stuck_of_expectEnd (ended : Ended tokens) (ran : expectEnd tokens = .error problem) :
    Stuck tokens problem := by
  have leaves := (takes_newLines tokens).leaves (by decide)
  rw [expectEnd] at ran
  cases found : expect [.endOfFile] (skipNewLines tokens) with
  | error other =>
      rw [found] at ran
      cases ran
      exact leaves.stuck ended fun ended => stuck_of_expect ended found
  | ok last =>
      rw [found] at ran
      cases ran

theorem covers_of_property (ordered : Ordered tokens) {read : Reading Node tokens.length}
    (ran : property options indent tokens = .ok read) :
    ∃ core, core.Sublist tokens ∧ Covers core read.value ∧ Leaves tokens read.rest := by
  have derives := derives_of_property options indent tokens ran
  obtain ⟨core, gap, split, extent⟩ := derives.extent ordered
  obtain ⟨_, ⟨⟩, covers⟩ := extent.arranged
  refine ⟨core, ?_, covers, derives.leaves⟩
  rw [split]
  exact List.sublist_append_left core _

theorem document_stuck (ordered : Ordered tokens) (ended : Ended tokens)
    (ran : document options tokens = .error problem) : Stuck tokens problem := by
  have lines (tokens : List Token) : Leaves tokens (skipNewLines tokens) :=
    (takes_newLines tokens).leaves (by decide)
  rw [document] at ran
  rcases bind_eq_error ran with failed | ⟨root, rootRan, ran⟩
  · exact (lines tokens).stuck ended fun ended => stuck_of_expect ended failed
  have toRoot := (lines tokens).trans (leaves_of_expect (.of_eq rootRan) (by decide))
  have toFirst := toRoot.trans (lines root.rest)
  split at ran
  case h_2 =>
    cases ran
    obtain ⟨front, -⟩ := expect_yields_iff.mp (.of_eq rootRan)
    have member : root.value ∈ skipNewLines tokens := List.mem_of_head? (congrArg List.head? front)
    exact (lines tokens).stuck ended fun _ =>
      .read (List.singleton_sublist.mpr member) rfl rfl rfl rfl
  rcases bind_eq_error ran with failed | ⟨first, firstRan, ran⟩
  · exact toFirst.stuck ended fun ended => property_stuck options 0 _ ended failed
  obtain ⟨core, less, covers, firstLeaves⟩ :=
    covers_of_property (ordered.sublist toFirst.suffix.sublist) firstRan
  split at ran
  case h_2 =>
    cases ran
    exact toFirst.stuck ended fun _ => covers.toSpans.stuck less rfl
  rcases bind_eq_error ran with failed | ⟨comma, commaRan, ran⟩
  · exact (toFirst.trans firstLeaves).stuck ended fun ended => stuck_of_expect ended failed
  have toComma := (toFirst.trans firstLeaves).trans
    (leaves_of_expect (.of_eq commaRan) (by decide))
  have toSecond := toComma.trans (lines comma.rest)
  rcases bind_eq_error ran with failed | ⟨second, secondRan, ran⟩
  · exact toSecond.stuck ended fun ended => property_stuck options 0 _ ended failed
  obtain ⟨core', less', covers', secondLeaves⟩ :=
    covers_of_property (ordered.sublist toSecond.suffix.sublist) secondRan
  split at ran
  case h_2 =>
    cases ran
    exact toSecond.stuck ended fun _ => covers'.toSpans.stuck less' rfl
  next view isView =>
    split at ran
    · rcases bind_eq_error ran with failed | ⟨_, -, ran⟩
      · exact (toSecond.trans secondLeaves).stuck ended fun ended =>
          stuck_of_expectEnd ended failed
      · cases ran
    · cases ran
      obtain ⟨same, -⟩ := view?_eq_some_iff.mp isView
      have held : view.child ∈ second.value.children := by
        rw [← same]
        exact List.mem_singleton_self view.child
      obtain ⟨own, within, spans⟩ := covers'.exists_spans held
      exact toSecond.stuck ended fun _ => spans.stuck (within.trans less') rfl

end Documents

end WidgetTree.Grammar
