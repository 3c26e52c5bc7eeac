import WidgetTree.Compilation
import WidgetTree.Proofs.Grammar.Stuck
import WidgetTree.Proofs.Lexeme.Physical
import WidgetTree.Proofs.Returns.Text

/-!
What a finding shows of its text. Main statements: `bounded_of_mem`, whatever is found lies between
the places of tokens, and `report_shows`, the lines of a finding are the physical lines from the one
on which it begins to the one on which it stops, none is missing, and what it is about can be read
off them.
-/

namespace WidgetTree.Text

open Returns (Unreturned map_withoutReturn_modifyHead splitOn_cons)

section Lines

variable {line text : List Char}

theorem feedless_behindFeed (chars : List Char) : ∀ c ∈ behindFeed chars, (c == '\n') = false := by
  intro c member
  simpa using List.mem_rtakeWhile_imp member

theorem splitOn_line (feedless : ∀ c ∈ line, (c == '\n') = false) (rest : List Char) :
    (line ++ '\n' :: rest).splitOn '\n' = line :: rest.splitOn '\n' := by
  calc
    (line ++ '\n' :: rest).splitOn '\n' = line.splitOn '\n' ++ rest.splitOn '\n' :=
      List.splitOnP_append_cons line rest (beq_self_eq_true '\n')
    _ = line :: rest.splitOn '\n' := by
      rw [List.splitOn, List.splitOnP_eq_singleton feedless, List.singleton_append]

theorem length_splitOn (text : List Char) :
    (text.splitOn '\n').length = text.count '\n' + 1 := by
  induction text with
  | nil => rfl
  | cons c text ih =>
      rw [splitOn_cons]
      split
      · next feed => rw [feed, List.count_cons_self, List.length_cons, ih]
      · next other => rw [List.length_modifyHead, ih, List.count_cons_of_ne other]

theorem drop_splitOn (front rest : List Char) :
    ((front ++ rest).splitOn '\n').drop (front.count '\n') =
      (behindFeed front ++ rest).splitOn '\n' := by
  induction front using List.reverseRecOn generalizing rest with
  | nil => rfl
  | append_singleton front c ih =>
      rw [List.append_assoc, List.singleton_append, List.count_append, behindFeed_concat]
      split
      · next feed =>
          subst feed
          rw [← List.drop_drop, ih, splitOn_line (feedless_behindFeed front)]
          rfl
      · next other =>
          rw [List.count_singleton, if_neg (by simpa using other), Nat.add_zero, ih,
            List.append_assoc, List.singleton_append]

theorem take_one_splitOn (text : List Char) :
    (text.splitOn '\n').take 1 = [text.takeWhile (· != '\n')] := by
  induction text with
  | nil => rfl
  | cons c text ih =>
      rw [splitOn_cons]
      split
      · next feed => rw [List.takeWhile_cons_of_neg (by simp [feed])]; rfl
      · next other =>
          obtain ⟨line, lines, split⟩ := List.exists_cons_of_ne_nil (List.splitOn_ne_nil '\n' text)
          rw [split] at ih ⊢
          obtain rfl : line = text.takeWhile (· != '\n') := (List.cons.inj ih).1
          rw [List.takeWhile_cons_of_pos (by simpa using other)]
          rfl

theorem intercalate_cons (c : Char) (line : List Char) (lines : List (List Char)) :
    ['\n'].intercalate ((c :: line) :: lines) = c :: ['\n'].intercalate (line :: lines) := by
  cases lines with
  | nil => rw [List.intercalate_singleton, List.intercalate_singleton]
  | cons second lines => rw [List.intercalate_cons_cons, List.intercalate_cons_cons]; rfl

theorem intercalate_take_splitOn (front rest : List Char) :
    ['\n'].intercalate (((front ++ rest).splitOn '\n').take (front.count '\n' + 1)) =
      front ++ rest.takeWhile (· != '\n') := by
  induction front with
  | nil => rw [List.count_nil, List.nil_append, take_one_splitOn, List.intercalate_singleton]; rfl
  | cons c front ih =>
      obtain ⟨line, lines, split⟩ :=
        List.exists_cons_of_ne_nil (List.splitOn_ne_nil '\n' (front ++ rest))
      rw [split, List.take_succ_cons] at ih
      rw [List.cons_append, splitOn_cons, split, List.cons_append, ← ih]
      by_cases feed : c = '\n'
      · subst feed
        rw [if_pos rfl, List.count_cons_self, List.take_succ_cons, List.take_succ_cons,
          List.intercalate_cons_cons]
        rfl
      · rw [if_neg feed, List.count_cons_of_ne feed, List.modifyHead_cons, List.take_succ_cons,
          intercalate_cons]

theorem map_withoutReturn (clean : '\r' ∉ text) :
    (text.splitOn '\n').map withoutReturn = text.splitOn '\n' := by
  induction text with
  | nil => rfl
  | cons c text ih =>
      obtain ⟨other, rest⟩ := not_or.mp (List.mem_cons.not.mp clean)
      rw [splitOn_cons]
      split
      · rw [List.map_cons, ih rest]
        rfl
      · rw [map_withoutReturn_modifyHead (Ne.symm other), ih rest]

end Lines

section Texts

variable {text : String} {first last : Nat}

theorem length_lines (text : String) : (lines text).length = text.toList.count '\n' + 1 := by
  rw [lines, List.length_map, length_splitOn]

theorem linesBetween_eq (least : 1 ≤ first) (order : first ≤ last)
    (most : last ≤ text.toList.count '\n' + 1) :
    (linesBetween text first last).map some =
      (List.range' first (last - first + 1)).map (line? text) := by
  rw [← length_lines] at most
  apply List.ext_getElem?
  intro k
  rw [linesBetween, List.getElem?_map, List.getElem?_drop, List.getElem?_take, List.getElem?_map]
  by_cases inside : k < last - first + 1
  · have found : first - 1 + k < (lines text).length := by omega
    have counted : first + k - 1 = first - 1 + k := by omega
    rw [if_pos (by omega), List.getElem?_range' inside, Option.map_some, Nat.one_mul, line?,
      if_neg (by omega), counted, List.getElem?_eq_getElem found]
    rfl
  · rw [if_neg (by omega), List.getElem?_eq_none (by simpa using inside)]
    rfl

theorem linesBetween_eq_pieces (least : 1 ≤ first) (order : first ≤ last) :
    linesBetween text first last =
      (((text.toList.splitOn '\n').drop (first - 1)).take (last - first + 1)).map
        fun piece => String.ofList (withoutReturn piece) := by
  have width : last - (first - 1) = last - first + 1 := by omega
  rw [linesBetween, lines, List.drop_take, width, List.map_take, List.map_drop]

theorem toList_intercalate_linesBetween (clean : Unreturned text) (first last : Nat) :
    ("\n".intercalate (linesBetween text first last)).toList =
      ['\n'].intercalate (((text.toList.splitOn '\n').take last).drop (first - 1)) := by
  have same : lines text = ((text.toList.splitOn '\n').map withoutReturn).map String.ofList := by
    rw [List.map_map]
    rfl
  have whole : (lines text).map String.toList = text.toList.splitOn '\n' := by
    rw [same, map_withoutReturn clean, List.map_map]
    exact (List.map_congr_left fun line _ => String.toList_ofList).trans (List.map_id _)
  rw [String.toList_intercalate, linesBetween, List.map_drop, List.map_take, whole]
  rfl

theorem toList_shown {front middle rest : List Char} (clean : Unreturned text)
    (split : text.toList = front ++ (middle ++ rest)) :
    ("\n".intercalate (linesBetween text (1 + front.count '\n')
      (1 + (front ++ middle).count '\n'))).toList =
        behindFeed front ++ (middle ++ rest.takeWhile (· != '\n')) := by
  have none : (behindFeed front).count '\n' = 0 := by
    rw [List.count_eq_zero]
    intro member
    cases feedless_behindFeed front _ member
  have width : 1 + (front ++ middle).count '\n' - front.count '\n' =
      (behindFeed front ++ middle).count '\n' + 1 := by
    rw [List.count_append, List.count_append, none]
    omega
  rw [toList_intercalate_linesBetween clean, List.drop_take, Nat.add_sub_cancel_left, width, split,
    drop_splitOn, ← List.append_assoc, intercalate_take_splitOn, List.append_assoc]

end Texts

end WidgetTree.Text

namespace WidgetTree

open Grammar (Options Problem Reaches Stuck document_stuck ordered_significant ordered_tokens
  significant significant_sublist significant_tokens)
open Lexeme (Token cutsFrom exists_front taken_cutsFrom tokens)
open Returns (Unreturned)
open Text (Location Paired Span behindFeed line? lines linesBetween slice)

def Bounded (text : String) (span : Span) : Prop :=
  ∃ first ∈ tokens text, ∃ last ∈ tokens text, span.start = first.span.start ∧
    span.stop = last.span.stop ∧ Reaches span.start span.stop

/-- What a finding says of its place is what stands in its lines: these are the pieces of the text
between line feeds from its first line to its last, without a return at their ends, and where no
line ends in a return, the characters that it is about stand in them behind as many others as its
column says. -/
structure Shows (text : String) (report : Report) : Prop where
  forward : 1 ≤ report.span.start.line ∧ report.span.start.line ≤ report.span.stop.line
  count : report.lines.length = report.span.stop.line - report.span.start.line + 1
  physical : report.lines =
    (((text.toList.splitOn '\n').drop (report.span.start.line - 1)).take report.lines.length).map
      fun piece => String.ofList (if piece.getLast? = some '\r' then piece.dropLast else piece)
  numbered : report.lines.map some =
    (List.range' report.span.start.line report.lines.length).map (line? text)
  holds : Unreturned text →
    String.ofList ((("\n".intercalate report.lines).toList.drop report.span.start.column).take
      report.span.length) = slice text report.span

section Places

variable {text : String} {token : Token} {place : Location} {span : Span}

theorem paired_of_unreturned (clean : Unreturned text) : Paired text.toList :=
  fun _ inside => absurd (inside.subset List.mem_cons_self) clean

theorem exists_before (member : token ∈ tokens text)
    (side : place = token.span.start ∨ place = token.span.stop) :
    ∃ before, before <+: text.toList ∧ place.index = before.length ∧
      place.line = 1 + before.count '\n' ∧
        (Unreturned text → place.column = (behindFeed before).length) := by
  obtain ⟨front, others, cuts, rfl⟩ := exists_front member side
  have whole := taken_cutsFrom true text.toList
  rw [cuts, List.flatMap_append] at whole
  refine ⟨front.flatMap (·.taken), ⟨_, whole⟩, ?_, ?_, fun clean => ?_⟩
  · rw [Lexeme.index_behind, Location.origin, Nat.zero_add]
  · exact Lexeme.line_behind Location.origin front
  · have each := Lexeme.after_of_mem_cutsFrom true (paired_of_unreturned clean)
    rw [cuts, List.forall_mem_append] at each
    rw [Lexeme.behind_eq_through each.1, Text.column_through_origin]

theorem exists_parts (bounded : Bounded text span) :
    ∃ front middle rest, text.toList = front ++ (middle ++ rest) ∧
      span.start.index = front.length ∧ span.stop.index = front.length + middle.length ∧
        span.start.line = 1 + front.count '\n' ∧
          span.stop.line = 1 + (front ++ middle).count '\n' ∧
            (Unreturned text → span.start.column = (behindFeed front).length) := by
  obtain ⟨first, firstIn, last, lastIn, start, stop, reaches⟩ := bounded
  obtain ⟨front, begins, startIndex, startLine, column⟩ := exists_before firstIn (.inl start)
  obtain ⟨before, ends, stopIndex, stopLine, -⟩ := exists_before lastIn (.inr stop)
  have order : front.length ≤ before.length := by
    rw [← startIndex, ← stopIndex]
    exact reaches.1
  obtain ⟨middle, rfl⟩ := List.prefix_of_prefix_length_le begins ends order
  obtain ⟨rest, whole⟩ := ends
  refine ⟨front, middle, rest, ?_, startIndex, ?_, startLine, stopLine, column⟩
  · rw [← whole, List.append_assoc]
  · rw [stopIndex, List.length_append]

theorem shows_of_bounded (bounded : Bounded text span) (severity : Severity) (message : String) :
    Shows text (Report.on text severity message span) := by
  obtain ⟨front, middle, rest, split, start, stop, startLine, stopLine, column⟩ :=
    exists_parts bounded
  have order : span.start.line ≤ span.stop.line := by
    rw [startLine, stopLine, List.count_append]
    omega
  have most : span.stop.line ≤ text.toList.count '\n' + 1 := by
    rw [stopLine, split]
    simp only [List.count_append]
    omega
  have least : 1 ≤ span.start.line := by omega
  have numbered := Text.linesBetween_eq least order most
  have count : (linesBetween text span.start.line span.stop.line).length =
      span.stop.line - span.start.line + 1 := by
    have lengths := congrArg List.length numbered
    rwa [List.length_map, List.length_map, List.length_range'] at lengths
  refine ⟨⟨least, order⟩, count, ?_, ?_, fun clean => ?_⟩
  · rw [Report.on, count]
    exact Text.linesBetween_eq_pieces least order
  · rw [Report.on, count]
    exact numbered
  · have width : span.length = middle.length := by
      rw [Span.length, start, stop]
      omega
    simp only [Report.on]
    rw [← String.toList_inj, String.toList_ofList, Lexeme.slice_eq split start stop, startLine,
      stopLine, Text.toList_shown clean split, column clean, width, List.drop_left,
      List.take_left]

end Places

section Findings

variable {options : Options} {text : String}

theorem bounded_token {token : Token} (member : token ∈ tokens text) : Bounded text token.span :=
  ⟨token, member, token, member, rfl, rfl, (ordered_tokens text).forward token member⟩

theorem reaches_of_ends {core : List Token} {first last : Token} (ordered : Grammar.Ordered core)
    (head : first ∈ core.head?) (atEnd : last ∈ core.getLast?) :
    Reaches first.span.start last.span.stop := by
  obtain ⟨others, rfl⟩ := List.head?_eq_some_iff.mp head
  have forward := ordered.forward first List.mem_cons_self
  rcases List.mem_cons.mp (List.mem_of_getLast? atEnd) with rfl | later
  · exact forward
  · have follow := List.rel_of_pairwise_cons ordered.follow later
    have ends := ordered.forward last (List.mem_cons_of_mem first later)
    exact forward.trans (follow.trans ends)

theorem bounded_of_stuck {problem : Problem} (stuck : Stuck (significant (tokens text)) problem) :
    Bounded text problem.span := by
  have less := significant_sublist text
  cases stuck with
  | @unexpected token rest expected behind same =>
      rw [same]
      exact bounded_token (less.subset (behind.subset List.mem_cons_self))
  | @read core first last within head atEnd start stop =>
      have inside := within.trans less
      refine ⟨first, inside.subset (List.mem_of_head? head), last,
        inside.subset (List.mem_of_getLast? atEnd), start, stop, ?_⟩
      rw [start, stop]
      exact reaches_of_ends ((ordered_tokens text).sublist inside) head atEnd

theorem ended_significant (text : String) : Grammar.Ended (significant (tokens text)) := by
  obtain ⟨kept, last, split, ends, -⟩ := significant_tokens text
  rw [split]
  exact ⟨last, List.mem_append_right kept List.mem_cons_self, ends⟩

theorem bounded_of_mem {report : Report} (member : report ∈ (compile options text).log) :
    ∃ severity message span, Bounded text span ∧
      report = Report.on text severity message span := by
  rcases List.mem_append.mp member with lexical | grammatical
  · obtain ⟨lexeme, inside, found⟩ := List.mem_filterMap.mp lexical
    obtain ⟨fault, -, rfl⟩ := Option.map_eq_some_iff.mp found
    exact ⟨_, _, _, bounded_token (List.mem_map_of_mem inside), rfl⟩
  · cases failed : Grammar.parseDocument options (tokens text) with
    | ok document =>
        rw [show (Lexeme.row text).map (·.token) = tokens text from rfl, failed] at grammatical
        cases grammatical
    | error problem =>
        rw [show (Lexeme.row text).map (·.token) = tokens text from rfl, failed] at grammatical
        obtain rfl := List.mem_singleton.mp grammatical
        have stuck := document_stuck (ordered_significant text) (ended_significant text) failed
        exact ⟨_, _, _, bounded_of_stuck stuck, rfl⟩

/-- Every finding shows the lines on which what it is about stands. -/
theorem report_shows (options : Options) (text : String) :
    ∀ report ∈ (compile options text).log, Shows text report := by
  intro report member
  obtain ⟨severity, message, span, bounded, rfl⟩ := bounded_of_mem member
  exact shows_of_bounded bounded severity message

/-- A view that is no widget, on two lines. -/
theorem report_shows_view :
    ∃ report ∈ (compile {} "Stateless .viewModel: Vm,\n.view: .a:\n\tRow").log,
      report.span = ⟨⟨33, 2, 7⟩, ⟨41, 3, 4⟩⟩ ∧ report.lines.length = 2 ∧
        String.ofList ((("\n".intercalate report.lines).toList.drop 7).take 8) =
          slice "Stateless .viewModel: Vm,\n.view: .a:\n\tRow" report.span := by
  have reported : ∃ report ∈ (compile {} "Stateless .viewModel: Vm,\n.view: .a:\n\tRow").log,
      report.span = ⟨⟨33, 2, 7⟩, ⟨41, 3, 4⟩⟩ := by
    decide +kernel
  obtain ⟨report, member, span⟩ := reported
  have shows := report_shows {} _ report member
  have holds := shows.holds (by decide)
  rw [span] at holds
  refine ⟨report, member, span, ?_, by rw [span]; exact holds⟩
  rw [shows.count, span]
  rfl

end Findings

end WidgetTree
