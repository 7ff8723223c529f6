import Mathlib.Data.List.Induction
import Unbraid.Proofs.Session.Refusal
import Unbraid.Proofs.Session.Signals

/-!
# A consumer that stops taking events

A run with a consumer that takes a number of events and no more, beside the run with one that takes
everything.

* Both are the same up to the call that hands over one event too many, if there is one. That call
  fails, and the consumer was handed the events before that one and nothing else (`Refused`).
* It leaves nothing behind (`Released`), and the consumer hears nothing after it, whatever is called
  (`cutsOff_of_takesOnly`).

What the consumer would say to other deliveries than those it gets is left open
(`Consumer.TakesOnly`).
-/

namespace Unbraid

/-! ## How many events a consumer takes -/

/-- The consumer takes a number of events and refuses every later one. What it answers to the signal
of a failure is left open, and so is what it would answer after deliveries that it cannot have
answered so. -/
def Consumer.TakesOnly (consumer : Consumer) (count : Nat) : Prop :=
  ∀ before event, consumer.Answers before →
    (consumer before (.event event) = none ↔
      (before.filterMap Attempt.takenEvent?).length < count)

theorem Consumer.takesOnly_takesFirst (count : Nat) (refusal : Fault) (takesFailure : Bool) :
    (takesFirst count refusal takesFailure).TakesOnly count := by
  intro before event _
  rw [takesFirst]
  split
  · next few => exact iff_of_true rfl few
  · next many => exact iff_of_false nofun many

theorem Attempt.takenEvents_concat_refused (before : List Attempt) (event : Event)
    (refusal : Fault) :
    (before ++ [Attempt.mk (.event event) (some refusal)]).filterMap takenEvent? =
      before.filterMap takenEvent? := by
  rw [List.filterMap_append]
  exact List.append_nil _

section

variable {consumer : Consumer} {count : Nat} {log before : List Attempt} {attempt : Attempt}

theorem Consumer.TakesOnly.length_le (takes : consumer.TakesOnly count)
    (answers : consumer.Answers log) : (log.filterMap Attempt.takenEvent?).length ≤ count := by
  induction answers with
  | nothing => exact Nat.zero_le _
  | @deliver log earlier delivery ih =>
    cases delivery with
    | failure fault =>
      rw [List.filterMap_append, List.filterMap_cons_none rfl, List.filterMap_nil, List.append_nil]
      exact ih
    | event event =>
      cases answer : consumer log (.event event) with
      | none =>
        rw [List.filterMap_append, List.length_append]
        exact (takes log event earlier).1 answer
      | some refusal =>
        rw [Attempt.takenEvents_concat_refused]
        exact ih

theorem Consumer.Answers.last (answers : consumer.Answers (before ++ [attempt])) :
    consumer.Answers before ∧ consumer before attempt.delivery = attempt.refusal := by
  generalize whole : before ++ [attempt] = log at answers
  cases answers with
  | nothing => exact absurd whole (by simp)
  | deliver earlier delivery =>
    obtain ⟨rfl, last⟩ := List.append_inj' whole rfl
    obtain rfl := List.singleton_inj.1 last
    exact ⟨earlier, rfl⟩

/-- The event that is refused is the first one too many. -/
theorem Consumer.TakesOnly.length_eq (takes : consumer.TakesOnly count) {event : Event}
    {refusal : Fault} (answers : consumer.Answers (before ++ [⟨.event event, some refusal⟩])) :
    (before.filterMap Attempt.takenEvent?).length = count := by
  have most := takes.length_le answers
  rw [Attempt.takenEvents_concat_refused] at most
  obtain ⟨earlier, refused⟩ := answers.last
  have refused : consumer before (.event event) = some refusal := refused
  have least : ¬ (before.filterMap Attempt.takenEvent?).length < count := by
    rw [← takes before event earlier, refused]
    nofun
  omega

end

/-! ## What is left of a session that is over -/

namespace Session

/-- Nothing is kept of the input, of the calls that were announced and, after a failure, of the
text. -/
structure Released (session : Session) : Prop where
  buffer : session.buffer = []
  lexer : session.lexer = .fresh session.lexer.tags
  keys : session.ledger.keys = []
  text : session.phase = .failed → session.transcript.text = ""

theorem released_release (session : Session) (phase : Phase) :
    (session.release phase).Released := by
  refine ⟨rfl, rfl, rfl, fun failed => ?_⟩
  have failed : phase = .failed := failed
  show (if phase = .failed then session.transcript.clear else session.transcript).text = ""
  rw [if_pos failed]
  rfl

variable {session next : Session} {outbox : Outbox}

theorem Effect.released {call : Call} {attempts : List Attempt} {fault : Option Fault}
    (effect : Effect session outbox call attempts fault next)
    (before : session.phase.isClosed = true → session.Released) :
    next.phase.isClosed = true → next.Released := by
  intro closed
  cases effect with
  | idle closed => exact before closed
  | fed _ _ goesOn => rw [goesOn] at closed; cases closed
  | refused last => exact released_release last _
  | overLimit _ last => exact released_release last _
  | unheard last => exact released_release last _
  | finished last => exact released_release last _
  | aborted => exact released_release session _
  | cancelled => exact released_release session _

/-! ## Calls one after the other -/

theorem perform_extends (session : Session) (outbox : Outbox) (call : Call) :
    ∃ attempts, outbox.Extends (session.perform outbox call).outbox attempts := by
  by_cases draining : session.phase = .draining
  · cases call with
    | feed chunk => rw [perform, feed, draining]; exact ⟨_, .refl outbox⟩
    | finish => rw [perform, finish, draining]; exact ⟨_, .refl outbox⟩
    | abort fault => rw [perform, abort, draining]; exact ⟨_, .deliver outbox _⟩
    | cancel => exact ⟨_, .refl outbox⟩
  · obtain ⟨attempts, log, -⟩ := perform_effect draining outbox call
    exact ⟨attempts, log⟩

theorem performAll_extends (session : Session) (outbox : Outbox) (calls more : List Call) :
    ∃ attempts, (session.performAll outbox calls).outbox.Extends
      (session.performAll outbox (calls ++ more)).outbox attempts := by
  rw [performAll_append]
  refine Called.run_induction
    (motive := fun called => ∃ attempts,
      (session.performAll outbox calls).outbox.Extends called.outbox attempts)
    (fun called call ⟨attempts, log⟩ => ?_) ⟨_, .refl _⟩ more
  obtain ⟨further, later⟩ := perform_extends called.session called.outbox call
  exact ⟨_, log.trans later⟩

theorem performAll_consumer (session : Session) (outbox : Outbox) (calls : List Call) :
    (session.performAll outbox calls).outbox.consumer = outbox.consumer := by
  obtain ⟨attempts, log⟩ := performAll_extends session outbox [] calls
  exact log.consumer

theorem performAll_of_closed {calls : List Call}
    (closed : (session.performAll outbox calls).session.phase.isClosed = true) (more : List Call) :
    (session.performAll outbox (calls ++ more)).session =
        (session.performAll outbox calls).session ∧
      (session.performAll outbox (calls ++ more)).outbox =
        (session.performAll outbox calls).outbox := by
  rw [performAll_append]
  refine Called.run_induction
    (motive := fun called =>
      called.session = (session.performAll outbox calls).session ∧
        called.outbox = (session.performAll outbox calls).outbox)
    (fun called call ⟨kept, silent⟩ => ?_) ⟨rfl, rfl⟩ more
  rw [← kept] at closed
  obtain ⟨same, quiet⟩ := perform_of_closed closed called.outbox call
  exact ⟨same.trans kept, quiet.trans silent⟩

theorem fault_of_closed (closed : session.phase.isClosed = true) (outbox : Outbox) {call : Call}
    (input : call = .finish ∨ ∃ chunk, call = .feed chunk) :
    ∃ fault, (session.perform outbox call).fault = some fault ∧ fault.kind = .stream := by
  rw [perform_late closed]
  rcases input with rfl | ⟨chunk, rfl⟩
  · exact ⟨_, rfl, rfl⟩
  · exact ⟨_, rfl, rfl⟩

section

variable {id : String} {settings : DemuxSettings} (started : start id settings = .ok session)
  (consumer : Consumer) (calls : List Call)

include started

theorem signals_of_calls :
    Signals (session.performAll (.fresh consumer) calls).session.phase
      (session.performAll (.fresh consumer) calls).outbox.log := by
  refine signals_performAll ?_ calls
  rw [(Receives.of_start started).2.phase]
  intro attempt none
  cases none

theorem released_of_calls
    (closed : (session.performAll (.fresh consumer) calls).session.phase.isClosed = true) :
    (session.performAll (.fresh consumer) calls).session.Released := by
  induction calls using List.reverseRecOn with
  | nil =>
    have receiving : session.phase = .receiving := (Receives.of_start started).2.phase
    have closed : session.phase.isClosed = true := closed
    rw [receiving] at closed
    cases closed
  | append_singleton calls call ih =>
    rw [performAll_concat] at closed ⊢
    obtain ⟨attempts, -, effect⟩ :=
      perform_effect (signals_of_calls started consumer calls).between _ call
    exact effect.released ih closed

end

/-- A refused event ends the answer as a failure, and it is the only thing that was not taken. -/
theorem Signals.of_refused {phase : Phase} {before : List Attempt} {event : Event} {refusal : Fault}
    (signals : Signals phase (before ++ [⟨.event event, some refusal⟩])) :
    phase = .failed ∧ ∀ attempt ∈ before, attempt.TakesPart := by
  have parts := signals.dropLast
  rw [List.dropLast_concat] at parts
  refine ⟨?_, parts⟩
  cases phase with
  | receiving =>
    obtain ⟨other, -, equal⟩ := signals _ (List.mem_append_right _ List.mem_cons_self)
    cases equal
  | draining => exact signals.elim
  | completed =>
    obtain ⟨_, text, whole, -⟩ := signals
    cases List.singleton_inj.1 (List.append_inj' whole rfl).2
  | failed => rfl

/-! ## Two runs -/

/-- Two runs come to the same call by call, unless the second consumer refuses an event. -/
theorem performAll_agrees (session : Session) (consumer : Consumer) (calls : List Call) :
    (∀ earlier, earlier <+: calls →
      Called.Abreast (session.performAll (.fresh .accepting) earlier)
        (session.performAll (.fresh consumer) earlier)) ∨
    ∃ before call later refusal, calls = before ++ call :: later ∧
      (∀ earlier, earlier <+: before →
        Called.Abreast (session.performAll (.fresh .accepting) earlier)
          (session.performAll (.fresh consumer) earlier)) ∧
      (session.performAll (.fresh consumer) (before ++ [call])).fault = some refusal ∧
      Cut (session.performAll (.fresh .accepting) (before ++ [call])).outbox
        (session.performAll (.fresh consumer) (before ++ [call])).outbox refusal := by
  induction calls using List.reverseRecOn with
  | nil =>
    refine .inl fun earlier begins => ?_
    obtain rfl := List.prefix_nil.1 begins
    exact ⟨rfl, rfl, rfl, .nothing, rfl⟩
  | append_singleton calls call ih =>
    rcases ih with abreast | ⟨before, other, later, refusal, rfl, abreast, fault, cut⟩
    · obtain ⟨-, same, outboxes⟩ := abreast calls (List.prefix_refl _)
      have agrees := perform_agrees outboxes
        (session.performAll (.fresh .accepting) calls).session call
      rw [← performAll_concat, ← same, ← performAll_concat] at agrees
      cases agrees with
      | same last =>
        refine .inl fun earlier begins => ?_
        rcases List.prefix_concat_iff.1 begins with rfl | begins
        · exact last
        · exact abreast earlier begins
      | cut fault cut => exact .inr ⟨calls, call, [], _, rfl, abreast, fault, cut⟩
    · refine .inr ⟨before, other, later ++ [call], refusal, ?_, abreast, fault, cut⟩
      rw [List.append_assoc, List.cons_append]

/-- The consumer has refused the event with this number. It has taken those before it and was handed
nothing else; the call has failed, and the session holds nothing. -/
structure Refused (events : List Event) (count : Nat) (called : Called) : Prop where
  refused : ∃ event refusal before, events[count]? = some event ∧ called.fault = some refusal ∧
    called.outbox.log = before ++ [⟨.event event, some refusal⟩]
  taken : called.outbox.events = events.take count
  silent : ∀ cause answer, ⟨.failure cause, answer⟩ ∉ called.outbox.log
  phase : called.session.phase = .failed
  released : called.session.Released

theorem Refused.of_cut {id : String} {settings : DemuxSettings}
    (started : start id settings = .ok session) {consumer : Consumer} {count : Nat}
    (takes : consumer.TakesOnly count) {calls : List Call} {full : Outbox} {refusal : Fault}
    (fault : (session.performAll (.fresh consumer) calls).fault = some refusal)
    (cut : Cut full (session.performAll (.fresh consumer) calls).outbox refusal) :
    count < full.events.length ∧
      Refused full.events count (session.performAll (.fresh consumer) calls) := by
  obtain ⟨answers, before, event, rest, log, events⟩ := cut
  have signals := signals_of_calls started consumer calls
  have released := released_of_calls started consumer calls
  rw [performAll_consumer, log] at answers
  rw [log] at signals
  have taken : (session.performAll (.fresh consumer) calls).outbox.events =
      before.filterMap Attempt.takenEvent? := by
    rw [Outbox.events, log, Attempt.takenEvents_concat_refused]
  have number : (before.filterMap Attempt.takenEvent?).length = count := takes.length_eq answers
  obtain ⟨failed, parts⟩ := signals.of_refused
  rw [failed] at released
  rw [taken] at events
  refine ⟨?_, ⟨event, refusal, before, ?_, fault, log⟩, ?_, ?_, failed, released rfl⟩
  · rw [events, List.length_append, List.length_cons]
    omega
  · rw [events, ← number, List.getElem?_append_right (Nat.le_refl _), Nat.sub_self]
    rfl
  · rw [taken, events, ← number, List.take_left]
  · intro cause answer signalled
    rw [log] at signalled
    rcases List.mem_append.1 signalled with among | last
    · obtain ⟨other, -, equal⟩ := parts _ among
      cases equal
    · cases List.mem_singleton.1 last

theorem Refused.stays {events : List Event} {count : Nat} {consumer : Consumer}
    {before : List Call} {call : Call}
    (refused : Refused events count (session.performAll (.fresh consumer) (before ++ [call])))
    (more : List Call) :
    let cut := session.performAll (.fresh consumer) (before ++ [call])
    let held := session.performAll (.fresh consumer) (before ++ call :: more)
    held.session = cut.session ∧ held.outbox = cut.outbox ∧
      ∀ next, (next = .finish ∨ ∃ chunk, next = .feed chunk) →
        ∃ fault, (held.session.perform held.outbox next).fault = some fault ∧
          fault.kind = .stream := by
  have closed : (session.performAll (.fresh consumer) (before ++ [call])).session.phase.isClosed =
      true := by
    rw [refused.phase]
    rfl
  obtain ⟨same, silent⟩ := performAll_of_closed closed more
  rw [List.append_assoc, List.singleton_append] at same silent
  refine ⟨same, silent, fun next input => ?_⟩
  rw [← same] at closed
  exact fault_of_closed closed _ input

/-- A consumer that takes a number of events, beside one that takes everything. If there are no more
events than that, the two runs are the same, call by call. Otherwise they are the same up to the
call that hands over the next event: that one fails, its session keeps nothing, and whatever is
called after it changes nothing. -/
theorem cutsOff_of_takesOnly {id : String} {settings : DemuxSettings}
    (started : start id settings = .ok session) {consumer : Consumer} {count : Nat}
    (takes : consumer.TakesOnly count) (calls : List Call) :
    let full := session.performAll (.fresh .accepting) calls
    (full.outbox.events.length ≤ count → ∀ earlier, earlier <+: calls →
      Called.Abreast (session.performAll (.fresh .accepting) earlier)
        (session.performAll (.fresh consumer) earlier)) ∧
    (count < full.outbox.events.length → ∃ before call later, calls = before ++ call :: later ∧
      (∀ earlier, earlier <+: before →
        Called.Abreast (session.performAll (.fresh .accepting) earlier)
          (session.performAll (.fresh consumer) earlier)) ∧
      Refused full.outbox.events count (session.performAll (.fresh consumer) (before ++ [call])) ∧
      ∀ more,
        let cut := session.performAll (.fresh consumer) (before ++ [call])
        let held := session.performAll (.fresh consumer) (before ++ call :: more)
        held.session = cut.session ∧ held.outbox = cut.outbox ∧
        ∀ next, (next = .finish ∨ ∃ chunk, next = .feed chunk) →
          ∃ fault, (held.session.perform held.outbox next).fault = some fault ∧
            fault.kind = .stream) := by
  intro full
  rcases performAll_agrees session consumer calls with
    abreast | ⟨before, call, later, refusal, rfl, abreast, fault, cut⟩
  · refine ⟨fun _ => abreast, fun more => ?_⟩
    obtain ⟨-, -, outboxes⟩ := abreast calls (List.prefix_refl _)
    have answers := outboxes.answers
    rw [performAll_consumer] at answers
    have most := takes.length_le answers
    rw [← Outbox.events, outboxes.same] at most
    exact absurd more (Nat.not_lt.2 most)
  · -- The events of the whole run begin with those up to the refusal.
    obtain ⟨attempts, log⟩ :=
      performAll_extends session (.fresh .accepting) (before ++ [call]) later
    rw [List.append_assoc, List.singleton_append] at log
    obtain ⟨many, refused⟩ := Refused.of_cut started takes fault (cut.of_extends log)
    refine ⟨fun few => absurd many (Nat.not_lt.2 few), fun _ => ?_⟩
    exact ⟨before, call, later, rfl, abreast, refused, refused.stays⟩

def token (text : String) : String :=
  "Toly :\x7b\"event\":\"on_chat_model_stream\"," ++
    "\"metadata\":\x7b\"langgraph_node\":\"Toly\"\x7d," ++
    "\"data\":\x7b\"chunk\":\x7b\"content\":\"" ++ text ++ "\"\x7d\x7d\x7d"

/-- A notice and a token in one chunk, and the end of the answer. The token's text is written down
before a consumer that has had enough refuses it. -/
def noticeAndToken : List Call :=
  [.feed (Bytes.ofText ("Tool :\x7b\"tool_name\":\"a\",\"additional_kwargs\":1\x7d" ++ token "b" ++
      "Toly :")),
    .finish, .abort ⟨.agent, "gone"⟩]

theorem cutsOff_after_a_notice :
    let consumer := Consumer.takesFirst 1 ⟨.sink, "consumer closed"⟩ true
    let full := (standard "s").performAll (.fresh .accepting) noticeAndToken
    consumer.TakesOnly 1 ∧ full.outbox.events.length = 3 ∧
      ∃ before call later, noticeAndToken = before ++ call :: later ∧
        Refused full.outbox.events 1
          ((standard "s").performAll (.fresh consumer) (before ++ [call])) := by
  intro consumer full
  have takes : consumer.TakesOnly 1 := Consumer.takesOnly_takesFirst 1 _ true
  have three : full.outbox.events.length = 3 := by decide +kernel
  have many : 1 < full.outbox.events.length := by rw [three]; decide
  obtain ⟨before, call, later, whole, -, refused, -⟩ :=
    (cutsOff_of_takesOnly (start_standard "s") takes noticeAndToken).2 many
  exact ⟨takes, three, before, call, later, whole, refused⟩

end Session

end Unbraid
