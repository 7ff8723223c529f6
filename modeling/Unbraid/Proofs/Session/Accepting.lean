import Unbraid.Proofs.Session.Calls

namespace Unbraid

theorem Outbox.Extends.events {outbox after : Outbox} {attempts : List Attempt}
    (log : outbox.Extends after attempts) :
    after.events = outbox.events ++ attempts.filterMap Attempt.takenEvent? := by
  rw [Outbox.events, log.log, List.filterMap_append, Outbox.events]

/-! ## What was delivered before -/

def Outbox.behind (before : List Attempt) (outbox : Outbox) : Outbox :=
  { outbox with log := before ++ outbox.log }

def Handled.behind {σ : Type} (before : List Attempt) (handled : Handled σ) : Handled σ :=
  { handled with outbox := handled.outbox.behind before }

def Step.behind (before : List Attempt) (step : Step) : Step :=
  { step with outbox := step.outbox.behind before }

def Called.behind (before : List Attempt) (called : Called) : Called :=
  { called with outbox := called.outbox.behind before, steps := called.steps.map (.behind before) }

section

variable {outbox : Outbox} (accepting : outbox.consumer = .accepting) (before : List Attempt)

include accepting

theorem Outbox.deliver_behind (delivery : Delivery) :
    (outbox.behind before).deliver delivery =
      (none, (outbox.deliver delivery).2.behind before) := by
  simp only [deliver, behind, accepting, Consumer.accepting, List.append_assoc]

theorem Ledger.enter_behind (ledger : Ledger) (notice : Notice) :
    ledger.enter notice (outbox.behind before) = (ledger.enter notice outbox).behind before := by
  have taken := Outbox.deliver_accepting accepting (.tool notice.payload)
  rw [enter, enter, Outbox.deliver_behind accepting, taken]
  dsimp only
  split <;> rfl

theorem Ledger.handle_behind (ledger : Ledger) (body : Bytes) (final : Bool) :
    ledger.handle body final (outbox.behind before) =
      (ledger.handle body final outbox).behind before := by
  rw [handle, handle]
  split
  · rfl
  · rfl
  · split
    · rfl
    · next notice _ => exact enter_behind accepting before ledger notice

theorem Transcript.add_behind (transcript : Transcript) (piece : String) :
    transcript.add piece (outbox.behind before) = (transcript.add piece outbox).behind before := by
  rw [add, add, Outbox.deliver_behind accepting, Outbox.deliver_accepting accepting]
  rfl

theorem Transcript.handle_behind (transcript : Transcript) (body : Bytes) (final : Bool) :
    transcript.handle body final (outbox.behind before) =
      (transcript.handle body final outbox).behind before := by
  rw [handle, handle]
  split
  · rfl
  · rfl
  · split
    · rfl
    · next piece _ => exact add_behind accepting before transcript piece

end

namespace Session

section

variable {outbox : Outbox} (accepting : outbox.consumer = .accepting) (before : List Attempt)
  (session : Session)

include accepting

theorem handle_behind (final : Bool) (frame : Frame) :
    session.handle final frame (outbox.behind before) =
      (session.handle final frame outbox).behind before := by
  rw [handle, handle]
  cases frame.kind with
  | tool =>
    dsimp only
    rw [Ledger.handle_behind accepting]
    dsimp only [Handled.behind]
    split <;> rfl
  | model =>
    dsimp only
    rw [Transcript.handle_behind accepting]
    dsimp only [Handled.behind]
    split <;> rfl

theorem handleAll_behind (final : Bool) (frames : List Frame) :
    handleAll final (outbox.behind before) session frames =
      (handleAll final outbox session frames).behind before := by
  induction frames generalizing session outbox with
  | nil => rfl
  | cons frame rest ih =>
    obtain ⟨attempts, -, extends', -⟩ := handle_delivers session outbox final frame
    have same := handle_behind accepting before session final frame
    have answer := congrArg Handled.result same
    cases result : (session.handle final frame outbox).result with
    | error refusal =>
      rw [handleAll_of_error result, handleAll_of_error (answer.trans result), same]
      rfl
    | ok outcome =>
      rw [handleAll_of_ok result, handleAll_of_ok (answer.trans result), same, Handled.behind,
        ih (extends'.consumer.trans accepting)]
      rfl

theorem drain_behind (final : Bool) :
    session.drain final (outbox.behind before) = (session.drain final outbox).behind before := by
  rw [drain, drain, handleAll_behind accepting]
  dsimp only [Called.behind]
  split <;> rfl

theorem abort_behind (fault : Fault) :
    session.abort fault (outbox.behind before) = (session.abort fault outbox).behind before := by
  rw [abort, abort, Outbox.deliver_behind accepting]
  split <;> rfl

theorem feed_behind (chunk : Bytes) :
    session.feed chunk (outbox.behind before) = (session.feed chunk outbox).behind before := by
  by_cases receiving : session.phase = .receiving
  · obtain ⟨attempts, -, extends', -⟩ := drain_delivers (session.add chunk) outbox false
    rw [feed_of_receiving receiving, feed_of_receiving receiving, drain_behind accepting]
    dsimp only [Called.behind]
    split
    · rfl
    · split
      · simp only [Outbox.deliver_behind (extends'.consumer.trans accepting)]
      · rfl
  · rw [feed, feed, if_neg receiving, if_neg receiving]
    rfl

theorem finish_behind :
    session.finish (outbox.behind before) = (session.finish outbox).behind before := by
  generalize draining : { session with phase := Phase.draining } = other
  obtain ⟨attempts, -, extends', -⟩ := drain_delivers other outbox true
  have kept := extends'.consumer.trans accepting
  by_cases receiving : session.phase = .receiving
  · rw [finish_of_receiving receiving, finish_of_receiving receiving, draining,
      drain_behind accepting]
    dsimp only [Called.behind]
    cases (other.drain true outbox).fault with
    | some refusal => rfl
    | none =>
      dsimp only
      rw [Outbox.deliver_behind kept, Outbox.deliver_accepting kept]
  · rw [finish, finish, if_neg receiving, if_neg receiving]
    rfl

/-- A call does the same, whatever was delivered before, since a consumer that takes everything does
not look at that. So a relay may give its session an empty outbox for each call. -/
theorem perform_behind (call : Call) :
    session.perform (outbox.behind before) call = (session.perform outbox call).behind before := by
  cases call with
  | feed chunk => exact feed_behind accepting before session chunk
  | finish => exact finish_behind accepting before session
  | abort fault => exact abort_behind accepting before session fault
  | cancel => rfl

end

/-! ## What a call leaves behind -/

/-- Where a session and its consumer stand: the consumer has parts of the answer, and at most one
event after them, that the answer is complete. -/
inductive Stands (called : Called) : Prop where
  | goesOn (fault : called.fault = none) (phase : called.session.phase = .receiving)
      (parts : ∀ event ∈ called.outbox.events, event.isPart = true)
  | completed {parts : List Event} {text : String} (fault : called.fault = none)
      (phase : called.session.phase = .completed)
      (whole : called.outbox.events = parts ++ [.complete text])
      (before : ∀ event ∈ parts, event.isPart = true)
  | failed {cause : Fault} (fault : called.fault = some cause)
      (phase : called.session.phase = .failed)
      (parts : ∀ event ∈ called.outbox.events, event.isPart = true)

/-- An open session whose consumer takes everything and has parts of the answer. -/
structure Ready (session : Session) (outbox : Outbox) : Prop where
  accepting : outbox.consumer = .accepting
  receiving : session.phase = .receiving
  parts : ∀ event ∈ outbox.events, event.isPart = true

section

variable {session : Session} {outbox : Outbox} {call : Call} {attempts : List Attempt}

theorem not_refuses (accepting : outbox.consumer = .accepting) (refusal : Fault) :
    ¬ outbox.consumer.Refuses refusal := by
  rintro ⟨before, delivery, refused⟩
  rw [accepting] at refused
  cases refused

theorem isPart_of_takesPart (taken : ∀ attempt ∈ attempts, attempt.TakesPart) :
    ∀ event ∈ attempts.filterMap Attempt.takenEvent?, event.isPart = true := by
  intro event present
  obtain ⟨attempt, among, same⟩ := List.mem_filterMap.1 present
  obtain ⟨other, part, rfl⟩ := taken attempt among
  obtain rfl : other = event := Option.some.inj same
  exact part

/-- After a call on an open session the consumer has parts of the answer, and at most one event
behind them that ends it. A session that was given up is left out: its consumer is told nothing. -/
theorem Ready.perform (ready : Ready session outbox) (asks : call ≠ .cancel) :
    Stands (session.perform outbox call) ∧
      ∃ attempts, outbox.Extends (session.perform outbox call).outbox attempts := by
  obtain ⟨accepting, receiving, parts⟩ := ready
  obtain ⟨attempts, log, effect⟩ := perform_effect (by rw [receiving]; nofun) outbox call
  refine ⟨?_, attempts, log⟩
  have events := log.events
  have more : ∀ {taken : List Attempt}, Course taken none →
      ∀ event ∈ outbox.events ++ taken.filterMap Attempt.takenEvent?, event.isPart = true := by
    intro taken course event present
    rcases List.mem_append.1 present with before | after
    · exact parts event before
    · exact isPart_of_takesPart course.takesPart event after
  generalize session.perform outbox call = called at events effect ⊢
  obtain ⟨fault, next, after⟩ := called
  cases effect with
  | idle closed => rw [receiving] at closed; cases closed
  | fed _ course goesOn => exact .goesOn rfl goesOn (events ▸ more course)
  | refused _ _ _ refuses => exact absurd refuses (not_refuses accepting _)
  | overLimit _ _ _ course =>
    rw [List.filterMap_append, List.filterMap_cons_none rfl, List.filterMap_nil,
      List.append_nil] at events
    exact .failed rfl rfl (events ▸ more course)
  | unheard _ _ _ refuses => exact absurd refuses (not_refuses accepting _)
  | finished _ _ course =>
    rw [List.filterMap_append, ← List.append_assoc] at events
    exact .completed rfl rfl events (more course)
  | aborted => exact .failed rfl rfl (events.trans (List.append_nil _) ▸ parts)
  | cancelled => exact absurd rfl asks

end

end Session

end Unbraid
