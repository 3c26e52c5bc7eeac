import WidgetTree.Proofs.Grammar.Whole

namespace WidgetTree.Grammar

open Lexeme (Kind Token)
open WidgetTree.Tree (Document Node Property WidgetKind)

variable {options : Options} {indent : Nat} {tokens rest next left : List Token} {problem : Problem}

def Part.Stops (options : Options) (indent : Nat) (tokens : List Token) (problem : Problem) :
    Part → Prop
  | .node => Grammar.node options indent tokens = .error problem
  | .content => Grammar.content options indent tokens = .error problem
  | .arguments => Grammar.arguments options indent tokens = .error problem
  | .block => Grammar.block options indent tokens = .error problem

theorem node_stops
    (stops : content options (lineIndent indent tokens) (skipIndentation tokens) = .error problem) :
    node options indent tokens = .error problem := by
  rw [node, stops]

section Elements

variable {name : Token} {after : List Token} {inline : List Node} {colon : Option Token}

theorem content_stops_beside (header : IsHeader name) (parent : standsAlone indent rest = false)
    (stops : arguments options indent rest = .error problem) :
    content options indent (name :: rest) = .error problem := by
  obtain ⟨nameShorter, nameRan⟩ := header.expected rest
  rw [content_of_header header, element, nameRan]
  simp only [parent, Bool.false_eq_true, if_false, stops]

theorem content_stops_colon (header : IsHeader name) (parent : standsAlone indent rest = false)
    (beside : Yields (arguments options indent rest) inline next)
    (stops : headerColon? options inline next = .error problem) :
    content options indent (name :: rest) = .error problem := by
  obtain ⟨nameShorter, nameRan⟩ := header.expected rest
  rcases beside with ⟨besideShorter, besideRan⟩
  rw [content_of_header header, element, nameRan]
  simp only [parent, Bool.false_eq_true, if_false, besideRan, stops]

theorem content_stops_under (header : IsHeader name) (parent : standsAlone indent rest = false)
    (beside : Yields (arguments options indent rest) inline next)
    (ended : Yields (headerColon? options inline next) colon after)
    (stops : block options indent after = .error problem) :
    content options indent (name :: rest) = .error problem := by
  obtain ⟨nameShorter, nameRan⟩ := header.expected rest
  rcases beside with ⟨besideShorter, besideRan⟩
  rcases ended with ⟨endedShorter, endedRan⟩
  rw [content_of_header header, element, nameRan]
  simp only [parent, Bool.false_eq_true, if_false, besideRan, endedRan, stops]

end Elements

section Properties

variable {dot name : Token} {colon : Option Token}

theorem values_stops (stops : (valuesPart tokens).Stops options indent tokens problem) :
    values options indent tokens = .error problem := by
  by_cases newLine : (current tokens).kind = .newLine
  · rw [valuesPart, if_pos newLine] at stops
    rwa [values, if_pos newLine]
  · rw [valuesPart, if_neg newLine] at stops
    rw [values, if_neg newLine, show node options indent tokens = .error problem from stops]

theorem content_stops_values (marked : dot.kind = .dot) (named : name.kind = .identifier)
    (ended : Yields (colon? options rest) colon next)
    (stops : (valuesPart next).Stops options indent next problem) :
    content options indent (dot :: name :: rest) = .error problem := by
  obtain ⟨dotShorter, dotRan⟩ := expect_cons (name :: rest) (List.mem_singleton.mpr marked)
  obtain ⟨nameShorter, nameRan⟩ := expect_cons rest (List.mem_singleton.mpr named)
  rcases ended with ⟨endedShorter, endedRan⟩
  have held := values_stops stops
  rw [content_of_dot marked, property, dotRan]
  simp only [nameRan, endedRan, held]

end Properties

section Rows

variable {child : Node}

theorem arguments_stops_first (goes : endsArguments (current tokens).kind = false)
    (stops : node options indent tokens = .error problem) :
    arguments options indent tokens = .error problem := by
  rw [arguments, if_neg (by simp [goes]), stops]

theorem arguments_stops_later (goes : endsArguments (current tokens).kind = false)
    (first : Yields (node options indent tokens) child rest)
    (stops : arguments options indent (skipComma rest) = .error problem) :
    arguments options indent tokens = .error problem := by
  rcases first with ⟨shorter, ran⟩
  rw [arguments, if_neg (by simp [goes]), ran]
  simp only [stops]

theorem block_stops_first (deeper : opensDeeper indent (skipNewLines tokens) = true)
    (stops : node options indent (skipNewLines tokens) = .error problem) :
    block options indent tokens = .error problem := by
  rw [block, if_pos deeper, stops]

theorem block_stops_later (deeper : opensDeeper indent (skipNewLines tokens) = true)
    (first : Yields (node options indent (skipNewLines tokens)) child rest)
    (stops : block options indent rest = .error problem) :
    block options indent tokens = .error problem := by
  rcases first with ⟨shorter, ran⟩
  rw [block, if_pos deeper, ran]
  simp only [stops]

end Rows

section Documents

variable {root : Token} {afterRoot : List Token} {kind : WidgetKind}

theorem property_stops (dot : (current tokens).kind = .dot)
    (stops : content options indent tokens = .error problem) :
    property options indent tokens = .error problem := by
  cases tokens with
  | nil => cases dot
  | cons token rest => rwa [content_of_dot (show token.kind = .dot from dot)] at stops

theorem document_stops_first (begins : skipNewLines tokens = root :: afterRoot)
    (rootKind : root.kind = .identifier) (named : WidgetKind.ofName? root.value = some kind)
    (stops : property options 0 (skipNewLines afterRoot) = .error problem) :
    document options tokens = .error problem := by
  obtain ⟨_, rootRan⟩ := expect_yields_iff.mpr ⟨begins, List.mem_singleton.mpr rootKind⟩
  rw [document]
  simp only [bind, Except.bind, rootRan, named, stops]

theorem document_stops_second {comma : Token} {afterFirst afterComma : List Token} {first : Node}
    {viewModel : Property} (begins : skipNewLines tokens = root :: afterRoot)
    (rootKind : root.kind = .identifier) (named : WidgetKind.ofName? root.value = some kind)
    (firstRead : Yields (property options 0 (skipNewLines afterRoot)) first afterFirst)
    (isViewModel : viewModel? first = some viewModel)
    (divided : afterFirst = comma :: afterComma) (commaKind : comma.kind = .comma)
    (stops : property options 0 (skipNewLines afterComma) = .error problem) :
    document options tokens = .error problem := by
  obtain ⟨_, rootRan⟩ := expect_yields_iff.mpr ⟨begins, List.mem_singleton.mpr rootKind⟩
  obtain ⟨_, commaRan⟩ := expect_yields_iff.mpr ⟨divided, List.mem_singleton.mpr commaKind⟩
  rcases firstRead with ⟨_, firstRan⟩
  rw [document]
  simp only [bind, Except.bind, rootRan, named, firstRan, isViewModel, commaRan, stops]

end Documents

end WidgetTree.Grammar
