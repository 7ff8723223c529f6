import Unbraid.Proofs.Session.Accepting

/-!
# Up to the first refusal

A consumer that may refuse anything, beside one that takes everything. As long as it refuses no
event, a session does the same for both. The first event that it refuses is one that the other takes
at that place, and the call that hands it over fails (`Session.perform_agrees`).
-/

namespace Unbraid

/-! ## Two outboxes -/

/-- The deliveries were made to the consumer one after the other, and it answered them so. -/
inductive Consumer.Answers (consumer : Consumer) : List Attempt → Prop where
  | nothing : Answers consumer []
  | deliver {log : List Attempt} (before : Answers consumer log) (delivery : Delivery) :
      Answers consumer (log ++ [⟨delivery, consumer log delivery⟩])

/-- The first consumer takes everything, and the second has taken the same events. It was asked for
each of its answers, one after the other, so that what it would say to something else is not
used. -/
structure Abreast (full other : Outbox) : Prop where
  accepting : full.consumer = .accepting
  answers : other.consumer.Answers other.log
  same : other.events = full.events

/-- The second consumer was handed no more after it refused an event. The first had the same events
up to there, and took that one. -/
structure Cut (full other : Outbox) (refusal : Fault) : Prop where
  answers : other.consumer.Answers other.log
  refused : ∃ before event rest, other.log = before ++ [⟨.event event, some refusal⟩] ∧
    full.events = other.events ++ event :: rest

section

variable {full other after : Outbox} {refusal : Fault} {attempts : List Attempt}

theorem Outbox.events_deliver (outbox : Outbox) (event : Event) :
    (outbox.deliver (.event event)).2.events =
      match (outbox.deliver (.event event)).1 with
      | none => outbox.events ++ [event]
      | some _ => outbox.events := by
  rw [(Extends.deliver outbox (.event event)).events]
  cases (outbox.deliver (.event event)).1 with
  | none => rfl
  | some refusal => exact List.append_nil _

theorem Outbox.events_deliver_failure (outbox : Outbox) (fault : Fault) :
    (outbox.deliver (.failure fault)).2.events = outbox.events := by
  rw [(Extends.deliver outbox (.failure fault)).events, List.filterMap_cons_none rfl]
  exact List.append_nil _

theorem Cut.of_extends (cut : Cut full other refusal) (log : full.Extends after attempts) :
    Cut after other refusal := by
  obtain ⟨answers, before, event, rest, refused, events⟩ := cut
  refine ⟨answers, before, event, rest ++ attempts.filterMap Attempt.takenEvent?, refused, ?_⟩
  rw [log.events, events, List.append_assoc, List.cons_append]

/-- What comes of an event that is handed to both. -/
inductive Offers (full other : Outbox) (event : Event) : Prop where
  | taken (after : Outbox) (answer : other.deliver (.event event) = (none, after))
      (abreast : Abreast (full.taking event) after) : Offers full other event
  | refused (refusal : Fault) (after : Outbox)
      (answer : other.deliver (.event event) = (some refusal, after))
      (cut : Cut (full.taking event) after refusal) : Offers full other event

theorem Abreast.offers (abreast : Abreast full other) (event : Event) :
    Offers full other event := by
  have told : other.deliver (.event event) =
      (other.consumer other.log (.event event),
        ⟨other.consumer,
          other.log ++ [⟨.event event, other.consumer other.log (.event event)⟩]⟩) := rfl
  have answers := abreast.answers.deliver (.event event)
  have events := Outbox.events_deliver other event
  rw [told] at events
  generalize other.consumer other.log (.event event) = reply at told answers events
  cases reply with
  | none =>
    refine .taken _ told ⟨abreast.accepting, answers, ?_⟩
    rw [events, abreast.same, Outbox.events_taking]
  | some refusal =>
    refine .refused refusal _ told ⟨answers, other.log, event, [], rfl, ?_⟩
    rw [events, abreast.same, Outbox.events_taking]

theorem Abreast.signal (abreast : Abreast full other) (fault : Fault) :
    Abreast (full.deliver (.failure fault)).2 (other.deliver (.failure fault)).2 := by
  refine ⟨abreast.accepting, abreast.answers.deliver (.failure fault), ?_⟩
  rw [Outbox.events_deliver_failure, Outbox.events_deliver_failure, abreast.same]

end

/-! ## One message -/

/-- What a handler makes of a message with either consumer: the same, unless the second one refuses
the event. -/
inductive Handled.Agrees {σ : Type} (full other : Handled σ) : Prop where
  | same (result : other.result = full.result) (state : other.state = full.state)
      (abreast : Abreast full.outbox other.outbox) : Agrees full other
  | cut {refusal : Fault} (result : other.result = .error refusal)
      (cut : Cut full.outbox other.outbox refusal) : Agrees full other

section

variable {full other : Outbox} (abreast : Abreast full other)

include abreast

theorem Ledger.enter_agrees (ledger : Ledger) (notice : Notice) :
    (ledger.enter notice full).Agrees (ledger.enter notice other) := by
  rw [enter, enter, Outbox.deliver_accepting abreast.accepting]
  dsimp only
  split
  · exact .same rfl rfl abreast
  · cases abreast.offers (.tool notice.payload) with
    | taken after answer abreast =>
      rw [answer]
      exact .same rfl rfl abreast
    | refused refusal after answer cut =>
      rw [answer]
      exact .cut rfl cut

theorem Ledger.handle_agrees (ledger : Ledger) (body : Bytes) (final : Bool) :
    (ledger.handle body final full).Agrees (ledger.handle body final other) := by
  rw [handle, handle]
  split
  · exact .same rfl rfl abreast
  · exact .same rfl rfl abreast
  · split
    · exact .same rfl rfl abreast
    · next notice _ => exact enter_agrees abreast ledger notice

theorem Transcript.add_agrees (transcript : Transcript) (piece : String) :
    (transcript.add piece full).Agrees (transcript.add piece other) := by
  rw [add, add, Outbox.deliver_accepting abreast.accepting]
  dsimp only
  cases abreast.offers (.delta piece) with
  | taken after answer abreast =>
    rw [answer]
    exact .same rfl rfl abreast
  | refused refusal after answer cut =>
    rw [answer]
    exact .cut rfl cut

theorem Transcript.handle_agrees (transcript : Transcript) (body : Bytes) (final : Bool) :
    (transcript.handle body final full).Agrees (transcript.handle body final other) := by
  rw [handle, handle]
  split
  · exact .same rfl rfl abreast
  · exact .same rfl rfl abreast
  · split
    · exact .same rfl rfl abreast
    · next piece _ => exact add_agrees abreast transcript piece

end

/-- What a call comes to with either consumer: the same session and the same fault. -/
structure Called.Abreast (full other : Called) : Prop where
  fault : other.fault = full.fault
  session : other.session = full.session
  outbox : Unbraid.Abreast full.outbox other.outbox

/-- What a call comes to with either consumer: the same, unless the second one refuses an event. -/
inductive Called.Agrees (full other : Called) : Prop where
  | same (abreast : full.Abreast other) : Agrees full other
  | cut {refusal : Fault} (fault : other.fault = some refusal)
      (cut : Cut full.outbox other.outbox refusal) : Agrees full other

/-- The outboxes in the steps are not the same, but that makes no difference to what is left. -/
theorem Called.Agrees.steps {full other : Called} (agrees : full.Agrees other)
    (ones others : List Step) :
    Called.Agrees { full with steps := ones } { other with steps := others } := by
  cases agrees with
  | same abreast => exact .same ⟨abreast.fault, abreast.session, abreast.outbox⟩
  | cut fault cut => exact .cut fault cut

namespace Session

theorem counted_agrees {full other : Handled Session} (agrees : full.Agrees other) :
    (counted full).Agrees (counted other) := by
  unfold counted
  cases agrees with
  | same result state abreast =>
    rw [result, state]
    split
    · exact .same rfl rfl abreast
    · exact .same result state abreast
  | cut result cut =>
    rw [result]
    split
    · exact .cut result cut
    · exact .cut result cut

section

variable {full other : Outbox} (abreast : Abreast full other) (session : Session) (final : Bool)

include abreast

theorem handle_agrees (frame : Frame) :
    (session.handle final frame full).Agrees (session.handle final frame other) := by
  rw [handle_eq_counted, handle_eq_counted]
  refine counted_agrees ?_
  cases frame.kind with
  | tool =>
    cases Ledger.handle_agrees abreast session.ledger frame.body (isSettled final frame) with
    | same result state abreast =>
      exact .same result (congrArg (fun ledger => { session with ledger }) state) abreast
    | cut result cut => exact .cut result cut
  | model =>
    cases Transcript.handle_agrees abreast session.transcript frame.body
        (isSettled final frame) with
    | same result state abreast =>
      exact .same result (congrArg (fun transcript => { session with transcript }) state) abreast
    | cut result cut => exact .cut result cut

theorem handleAll_agrees (frames : List Frame) :
    (handleAll final full session frames).Agrees (handleAll final other session frames) := by
  induction frames generalizing session full other with
  | nil => exact .same ⟨rfl, rfl, abreast⟩
  | cons frame rest ih =>
    cases handle_agrees abreast session final frame with
    | same same state abreast =>
      cases result : (session.handle final frame full).result with
      | error refusal =>
        rw [handleAll_of_error result, handleAll_of_error (same.trans result), state]
        exact .same ⟨rfl, rfl, abreast⟩
      | ok outcome =>
        rw [handleAll_of_ok result, handleAll_of_ok (same.trans result), state]
        exact (ih abreast _).steps _ _
    | cut refused cut =>
      rw [handleAll_of_error refused]
      -- The first consumer may be handed more messages; the second is not.
      cases result : (session.handle final frame full).result with
      | error refusal =>
        rw [handleAll_of_error result]
        exact .cut rfl cut
      | ok outcome =>
        obtain ⟨attempts, -, log, -⟩ := handleAll_delivers
          (session.handle final frame full).state (session.handle final frame full).outbox final
          rest
        rw [handleAll_of_ok result]
        exact .cut rfl (cut.of_extends log)

theorem drain_agrees : (session.drain final full).Agrees (session.drain final other) := by
  rw [drain, drain]
  cases handleAll_agrees abreast session.lexed final (agenda final session.lexed.frames) with
  | same same =>
    rw [same.fault, same.session]
    split
    · exact .same same
    · exact .same ⟨rfl, rfl, same.outbox⟩
  | cut fault cut =>
    rw [fault]
    split
    · exact .cut fault cut
    · exact .cut fault cut

/-! ## One call -/

theorem abort_agrees (fault : Fault) :
    (session.abort fault full).Agrees (session.abort fault other) := by
  rw [abort, abort]
  split
  · exact .same ⟨rfl, rfl, abreast⟩
  · exact .same ⟨rfl, rfl, abreast.signal fault⟩

end

section

variable {full other : Outbox} {session : Session}

theorem feed_extends_drain (receiving : session.phase = .receiving) (chunk : Bytes)
    (outbox : Outbox) :
    ∃ attempts, ((session.add chunk).drain false outbox).outbox.Extends
      (session.feed chunk outbox).outbox attempts := by
  rw [feed_of_receiving receiving]
  dsimp only
  split
  · exact ⟨_, .refl _⟩
  · split
    · exact ⟨_, .deliver _ _⟩
    · exact ⟨_, .refl _⟩

theorem finish_extends_drain (receiving : session.phase = .receiving) (outbox : Outbox) :
    ∃ attempts, ({ session with phase := .draining }.drain true outbox).outbox.Extends
      (session.finish outbox).outbox attempts := by
  rw [finish_of_receiving receiving]
  generalize { session with phase := Phase.draining }.drain true outbox = called
  have told := Outbox.Extends.deliver called.outbox
    (.event (.complete called.session.transcript.text))
  dsimp only
  split
  · exact ⟨_, .refl _⟩
  · split
    · next answer => rw [answer] at told; exact ⟨_, told⟩
    · next answer => rw [answer] at told; exact ⟨_, told⟩

theorem feed_agrees (abreast : Abreast full other) (receiving : session.phase = .receiving)
    (chunk : Bytes) : (session.feed chunk full).Agrees (session.feed chunk other) := by
  obtain ⟨attempts, log⟩ := feed_extends_drain receiving chunk full
  cases drain_agrees abreast (session.add chunk) false with
  | same same =>
    rw [feed_of_receiving receiving, feed_of_receiving receiving]
    dsimp only
    rw [same.fault, same.session]
    split
    · exact .same ⟨rfl, rfl, same.outbox⟩
    · split
      · exact .same ⟨rfl, rfl, same.outbox.signal _⟩
      · exact .same same
  | cut fault cut =>
    have cut := cut.of_extends log
    generalize session.feed chunk full = fed at cut ⊢
    rw [feed_of_receiving receiving]
    dsimp only
    rw [fault]
    exact .cut rfl cut

theorem finish_agrees (abreast : Abreast full other) (receiving : session.phase = .receiving) :
    (session.finish full).Agrees (session.finish other) := by
  obtain ⟨attempts, log⟩ := finish_extends_drain receiving full
  generalize draining : { session with phase := Phase.draining } = closing at log
  cases drain_agrees abreast closing true with
  | same same =>
    rw [finish_of_receiving receiving, finish_of_receiving receiving, draining]
    dsimp only
    rw [same.fault, same.session]
    split
    · exact .same ⟨rfl, rfl, same.outbox⟩
    · rw [Outbox.deliver_accepting same.outbox.accepting]
      cases same.outbox.offers (.complete (closing.drain true full).session.transcript.text) with
      | taken after answer abreast =>
        rw [answer]
        exact .same ⟨rfl, rfl, abreast⟩
      | refused refusal after answer cut =>
        rw [answer]
        exact .cut rfl cut
  | cut fault cut =>
    rw [finish_of_receiving receiving other, draining]
    dsimp only
    rw [fault]
    exact .cut rfl (cut.of_extends log)

/-- A call comes to the same with both consumers, unless the second one refuses an event. -/
theorem perform_agrees (abreast : Abreast full other) (session : Session) (call : Call) :
    (session.perform full call).Agrees (session.perform other call) := by
  by_cases receiving : session.phase = .receiving
  · cases call with
    | feed chunk => exact feed_agrees abreast receiving chunk
    | finish => exact finish_agrees abreast receiving
    | abort fault => exact abort_agrees abreast session fault
    | cancel => exact .same ⟨rfl, rfl, abreast⟩
  · cases call with
    | feed chunk =>
      rw [perform, perform, feed, feed, if_neg receiving, if_neg receiving]
      exact .same ⟨rfl, rfl, abreast⟩
    | finish =>
      rw [perform, perform, finish, finish, if_neg receiving, if_neg receiving]
      exact .same ⟨rfl, rfl, abreast⟩
    | abort fault => exact abort_agrees abreast session fault
    | cancel => exact .same ⟨rfl, rfl, abreast⟩

end

end Session

end Unbraid
