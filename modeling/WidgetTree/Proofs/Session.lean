import WidgetTree.Proofs.Lexeme.Findings
import WidgetTree.Session

/-!
What a session keeps from one request to the next. Main definition: `LikeNew`, a session answers and
logs as if nothing but the latest reading and the latest parse had been asked of it. Main statement:
`likeNew_after`, this holds after any requests.
-/

namespace WidgetTree.Session

open Grammar (Options parseDocument parseFragment)
open Lexeme (Reader Token)

def start (options : Options) : Session := { options }

def after (session : Session) (requests : List Request) : Session :=
  requests.foldl (fun session request => (session.step request).1) session

namespace Request

def isReading : Request → Bool
  | read .. => true
  | _ => false

def isParse : Request → Bool
  | document | fragment => true
  | _ => false

def findings (options : Options) (text : String) (tokens : List Token) : Request → Log
  | document => Grammar.reports text (parseDocument options tokens)
  | fragment => Grammar.reports text (parseFragment options tokens)
  | _ => []

end Request

def firstOf {α : Type} (count : Option Nat) (items : List α) : List α :=
  match count with
  | some count => items.take count
  | none => items

/-- The session shows no request but the latest ones: a reading hands out what a first one would, a
parse finds what it would on the current tokens alone, and a log holds what the latest reading or
parse has found, unless that was taken out since. -/
structure LikeNew (options : Options) (past : List Request) (session : Session) : Prop where
  reads : ∀ text count, (session.step (.read text count)).2 =
    .tokens (firstOf count (Lexeme.tokenize text []).1)
  parsesDocument : (session.step .document).2 = .document (parseDocument options session.tokens)
  parsesFragment : (session.step .fragment).2 = .fragment (parseFragment options session.tokens)
  handsOut : (session.step .takeLexemeLog).2 = .taken session.lexemeLog ∧
    (session.step .takeGrammarLog).2 = .taken session.grammarLog
  unread : (∀ request ∈ past, request.isReading = false) →
    session.text = "" ∧ session.tokens = [] ∧ session.lexemeLog = []
  read : ∀ before text count later, past = before ++ .read text count :: later →
    (∀ request ∈ later, request.isReading = false) →
      session.text = text ∧ session.tokens = firstOf count (Lexeme.tokenize text []).1 ∧
        session.lexemeLog = if .takeLexemeLog ∈ later then []
          else Lexeme.reports text (firstOf count (Lexeme.row text))
  unparsed : (∀ request ∈ past, request.isParse = false) → session.grammarLog = []
  parsed : ∀ before request later, past = before ++ request :: later → request.isParse = true →
    (∀ other ∈ later, other.isParse = false) →
      session.grammarLog = if .takeGrammarLog ∈ later then []
        else request.findings options ((start options).after before).text
          ((start options).after before).tokens

section Steps

variable (session : Session) (request : Request)

theorem pulled_eq (text : String) (count : Option Nat) :
    (pulled text count).1 = firstOf count (Lexeme.tokenize text []).1 ∧
      (pulled text count).2.log = Lexeme.reports text (firstOf count (Lexeme.row text)) := by
  rw [Lexeme.tokenize_eq]
  cases count with
  | none =>
      obtain ⟨handed, reads⟩ := (Reader.start text []).pullAll_eq
      exact ⟨handed, reads.log⟩
  | some count =>
      obtain ⟨handed, reads⟩ := Reader.pull_eq count (Reader.start text [])
      exact ⟨handed.trans List.map_take, reads.log⟩

theorem step_options : (session.step request).1.options = session.options := by
  cases request <;> rfl

theorem step_current (other : request.isReading = false) :
    ((session.step request).1.text, (session.step request).1.tokens) =
      (session.text, session.tokens) := by
  cases request with
  | read => cases other
  | document | fragment | takeLexemeLog | takeGrammarLog => rfl

theorem step_lexemeLog (other : request.isReading = false) :
    (session.step request).1.lexemeLog =
      if request = .takeLexemeLog then [] else session.lexemeLog := by
  cases request with
  | read => cases other
  | document | fragment | takeLexemeLog | takeGrammarLog => rfl

theorem step_grammarLog (other : request.isParse = false) :
    (session.step request).1.grammarLog =
      if request = .takeGrammarLog then [] else session.grammarLog := by
  cases request with
  | document | fragment => cases other
  | read | takeLexemeLog | takeGrammarLog => rfl

theorem step_parse (parse : request.isParse = true) :
    (session.step request).1.grammarLog =
      request.findings session.options session.text session.tokens := by
  cases request with
  | document | fragment => rfl
  | read | takeLexemeLog | takeGrammarLog => cases parse

end Steps

section Runs

variable {requests : List Request}

theorem after_cons (session : Session) (request : Request) (requests : List Request) :
    session.after (request :: requests) = (session.step request).1.after requests := rfl

theorem after_split (session : Session) (before later : List Request) (request : Request) :
    session.after (before ++ request :: later) =
      ((session.after before).step request).1.after later := by
  rw [after, List.foldl_append]
  rfl

theorem after_options (session : Session) (requests : List Request) :
    (session.after requests).options = session.options := by
  induction requests generalizing session with
  | nil => rfl
  | cons request rest ih => rw [after_cons, ih, step_options]

theorem after_current (none : ∀ request ∈ requests, request.isReading = false)
    (session : Session) :
    ((session.after requests).text, (session.after requests).tokens) =
      (session.text, session.tokens) := by
  induction requests generalizing session with
  | nil => rfl
  | cons request rest ih =>
      have later := ih fun other member => none other (List.mem_cons_of_mem _ member)
      rw [after_cons, later, step_current session request (none request List.mem_cons_self)]

theorem after_log {adds : Request → Bool} {log : Session → Log} {take : Request}
    (kept : ∀ session request, adds request = false →
      log (session.step request).1 = if request = take then [] else log session)
    (none : ∀ request ∈ requests, adds request = false) (session : Session) :
    log (session.after requests) = if take ∈ requests then [] else log session := by
  induction requests generalizing session with
  | nil => rfl
  | cons request rest ih =>
      have taken : take ∈ request :: rest ↔ take ∈ rest ∨ request = take := by
        rw [List.mem_cons, or_comm, eq_comm]
      have later := ih fun other member => none other (List.mem_cons_of_mem _ member)
      rw [after_cons, later, kept session request (none request List.mem_cons_self)]
      simp only [taken, ite_or]

end Runs

section Latest

variable {options : Options}

theorem unread_after {past : List Request} (none : ∀ request ∈ past, request.isReading = false) :
    ((start options).after past).text = "" ∧ ((start options).after past).tokens = [] ∧
      ((start options).after past).lexemeLog = [] := by
  obtain ⟨text, tokens⟩ := Prod.mk.inj (after_current none (start options))
  exact ⟨text, tokens, (after_log step_lexemeLog none (start options)).trans (ite_self _)⟩

theorem read_after (before later : List Request) (text : String) (count : Option Nat)
    (none : ∀ request ∈ later, request.isReading = false) :
    ((start options).after (before ++ .read text count :: later)).text = text ∧
      ((start options).after (before ++ .read text count :: later)).tokens =
        firstOf count (Lexeme.tokenize text []).1 ∧
      ((start options).after (before ++ .read text count :: later)).lexemeLog =
        if .takeLexemeLog ∈ later then []
        else Lexeme.reports text (firstOf count (Lexeme.row text)) := by
  rw [after_split]
  have current := after_current none (((start options).after before).step (.read text count)).1
  have log := after_log step_lexemeLog none
    (((start options).after before).step (.read text count)).1
  obtain ⟨handed, found⟩ := pulled_eq text count
  obtain ⟨same, tokens⟩ := Prod.mk.inj current
  rw [same, tokens, log]
  exact ⟨rfl, handed, congrArg (if .takeLexemeLog ∈ later then [] else ·) found⟩

theorem unparsed_after {past : List Request} (none : ∀ request ∈ past, request.isParse = false) :
    ((start options).after past).grammarLog = [] :=
  (after_log step_grammarLog none (start options)).trans (ite_self _)

theorem parsed_after (before later : List Request) {request : Request}
    (parse : request.isParse = true) (none : ∀ other ∈ later, other.isParse = false) :
    ((start options).after (before ++ request :: later)).grammarLog =
      if .takeGrammarLog ∈ later then []
      else request.findings options ((start options).after before).text
        ((start options).after before).tokens := by
  have log := after_log step_grammarLog none (((start options).after before).step request).1
  rw [after_split, log, step_parse _ _ parse, after_options]
  rfl

end Latest

/-- A session is like new after any requests in any order, whether they were readings that stopped
early, parses that failed or logs that were taken out. -/
theorem likeNew_after (options : Options) (past : List Request) :
    LikeNew options past ((start options).after past) where
  reads text count := congrArg Answer.tokens (pulled_eq text count).1
  parsesDocument := by rw [step, after_options]; rfl
  parsesFragment := by rw [step, after_options]; rfl
  handsOut := ⟨rfl, rfl⟩
  unread := unread_after
  read before text count later split none := by
    rw [split]
    exact read_after before later text count none
  unparsed := unparsed_after
  parsed before request later split parse none := by
    rw [split]
    exact parsed_after before later parse none

/-- A parse that succeeds leaves nothing of the one that failed before it. -/
example : ((start {}).after [.read "#" (some 1), .document, .read "a" none, .fragment]).grammarLog =
    [] := by
  decide +kernel

end WidgetTree.Session
