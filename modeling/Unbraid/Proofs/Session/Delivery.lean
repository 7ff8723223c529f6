import Unbraid.Proofs.Session.Pass

/-!
# Deliveries to any consumer

What a session does with a consumer that may refuse anything. A message that is handled leads to one
delivery at most, of a notice or a piece of text, and a refusal is reported (`handle_delivers`). So
what a pass delivers are parts of the answer that are taken, up to the first that is refused
(`drain_delivers`). The session's input stays untouched by it (`handleAll_sameInput`).
-/

namespace Unbraid

/-- The event is a part of the answer, and not the end of it. -/
def Event.isPart : Event → Bool
  | tool _ | delta _ => true
  | complete _ => false

/-- The consumer took a part of the answer. -/
def Attempt.TakesPart (attempt : Attempt) : Prop :=
  ∃ event : Event, event.isPart = true ∧ attempt = ⟨.event event, none⟩

/-- Deliveries of parts of the answer, of which only the last can be refused; with the refusal. -/
inductive Course : List Attempt → Option Fault → Prop where
  | nothing : Course [] none
  | refused {event : Event} (part : event.isPart = true) (refusal : Fault) :
      Course [⟨.event event, some refusal⟩] (some refusal)
  | taken {event : Event} (part : event.isPart = true) {rest : List Attempt}
      {refusal : Option Fault} (more : Course rest refusal) :
      Course (⟨.event event, none⟩ :: rest) refusal

namespace Course

variable {attempts more : List Attempt} {refusal : Option Fault} {fault : Fault}

theorem append (course : Course attempts none) (further : Course more refusal) :
    Course (attempts ++ more) refusal := by
  generalize none : (none : Option Fault) = nowhere at course
  induction course with
  | nothing => exact further
  | refused => cases none
  | taken part _ ih => exact .taken part (ih none)

theorem takesPart (course : Course attempts none) : ∀ attempt ∈ attempts, attempt.TakesPart := by
  generalize none : (none : Option Fault) = nowhere at course
  induction course with
  | nothing => intro attempt present; cases present
  | refused => cases none
  | taken part _ ih =>
    intro attempt present
    rcases List.mem_cons.1 present with rfl | later
    · exact ⟨_, part, rfl⟩
    · exact ih none attempt later

theorem exists_refused (course : Course attempts (some fault)) :
    ∃ parts event, attempts = parts ++ [⟨.event event, some fault⟩] ∧ event.isPart = true ∧
      ∀ attempt ∈ parts, attempt.TakesPart := by
  generalize some' : some fault = refusal at course
  induction course with
  | nothing => cases some'
  | @refused event part refusal =>
    obtain rfl : fault = refusal := Option.some.inj some'
    exact ⟨[], event, rfl, part, fun attempt present => by cases present⟩
  | @taken first part rest refusal _ ih =>
    obtain ⟨parts, event, rfl, last, before⟩ := ih some'
    refine ⟨⟨.event first, none⟩ :: parts, event, rfl, last, fun attempt present => ?_⟩
    rcases List.mem_cons.1 present with rfl | later
    · exact ⟨first, part, rfl⟩
    · exact before attempt later

theorem not_failure (course : Course attempts refusal) (cause : Fault) (answer : Option Fault) :
    ⟨.failure cause, answer⟩ ∉ attempts := by
  induction course with
  | nothing => exact List.not_mem_nil
  | refused part refusal =>
    intro present
    cases List.mem_singleton.1 present
  | taken part _ ih =>
    intro present
    rcases List.mem_cons.1 present with equal | later
    · cases equal
    · exact ih later

end Course

/-- What an outbox holds in addition after a course of deliveries; the consumer stays the same. -/
structure Outbox.Extends (outbox after : Outbox) (attempts : List Attempt) : Prop where
  consumer : after.consumer = outbox.consumer
  log : after.log = outbox.log ++ attempts

namespace Outbox.Extends

variable {first second third : Outbox} {attempts more : List Attempt}

theorem refl (outbox : Outbox) : outbox.Extends outbox [] := ⟨rfl, (List.append_nil _).symm⟩

theorem trans (one : first.Extends second attempts) (two : second.Extends third more) :
    first.Extends third (attempts ++ more) :=
  ⟨two.consumer.trans one.consumer, by rw [two.log, one.log, List.append_assoc]⟩

theorem deliver (outbox : Outbox) (delivery : Delivery) :
    outbox.Extends (outbox.deliver delivery).2 [⟨delivery, (outbox.deliver delivery).1⟩] :=
  ⟨rfl, rfl⟩

end Outbox.Extends

def Handled.refusal? {σ : Type} (handled : Handled σ) : Option Fault :=
  match handled.result with
  | .error refusal => some refusal
  | .ok _ => none

def Consumer.Refuses (consumer : Consumer) (refusal : Fault) : Prop :=
  ∃ before delivery, consumer before delivery = some refusal

/-- From one outbox to the next, a course of deliveries that ends as the refusal says; the refusal
is the consumer's. -/
def Outbox.Delivers (outbox after : Outbox) (refusal : Option Fault) : Prop :=
  ∃ attempts, Course attempts refusal ∧ outbox.Extends after attempts ∧
    ∀ fault ∈ refusal, outbox.consumer.Refuses fault

theorem Outbox.Delivers.nothing (outbox : Outbox) : outbox.Delivers outbox none :=
  ⟨[], .nothing, .refl outbox, nofun⟩

theorem Outbox.Delivers.trans {first second third : Outbox} {refusal : Option Fault}
    (one : first.Delivers second none) (two : second.Delivers third refusal) :
    first.Delivers third refusal := by
  obtain ⟨attempts, course, extends', -⟩ := one
  obtain ⟨more, further, extends'', refuses⟩ := two
  rw [extends'.consumer] at refuses
  exact ⟨attempts ++ more, course.append further, extends'.trans extends'', refuses⟩

theorem Outbox.Delivers.deliver (outbox : Outbox) (event : Event) (part : event.isPart = true) :
    outbox.Delivers (outbox.deliver (.event event)).2 (outbox.deliver (.event event)).1 := by
  refine ⟨_, ?_, .deliver outbox (.event event), fun fault refused => ⟨_, _, refused⟩⟩
  cases (outbox.deliver (.event event)).1 with
  | none => exact .taken part .nothing
  | some refusal => exact .refused part refusal

/-! ## One message -/

namespace Ledger

variable (ledger : Ledger) (outbox : Outbox)

theorem enter_delivers (notice : Notice) :
    outbox.Delivers (ledger.enter notice outbox).outbox (ledger.enter notice outbox).refusal? := by
  have delivers := Outbox.Delivers.deliver outbox (.tool notice.payload) rfl
  rw [enter]
  split
  · exact .nothing outbox
  · split
    · next refusal after equal =>
      rw [equal] at delivers
      exact delivers
    · next after equal =>
      rw [equal] at delivers
      exact delivers

theorem handle_delivers (body : Bytes) (final : Bool) :
    outbox.Delivers (ledger.handle body final outbox).outbox
      (ledger.handle body final outbox).refusal? := by
  rw [handle]
  split
  · exact .nothing outbox
  · exact .nothing outbox
  · split
    · exact .nothing outbox
    · next notice _ => exact enter_delivers ledger outbox notice

end Ledger

namespace Transcript

variable (transcript : Transcript) (outbox : Outbox)

theorem add_delivers (piece : String) :
    outbox.Delivers (transcript.add piece outbox).outbox
      (transcript.add piece outbox).refusal? := by
  have delivers := Outbox.Delivers.deliver outbox (.delta piece) rfl
  rw [add]
  split
  · next refusal after equal =>
    rw [equal] at delivers
    exact delivers
  · next after equal =>
    rw [equal] at delivers
    exact delivers

theorem handle_delivers (body : Bytes) (final : Bool) :
    outbox.Delivers (transcript.handle body final outbox).outbox
      (transcript.handle body final outbox).refusal? := by
  rw [handle]
  split
  · exact .nothing outbox
  · exact .nothing outbox
  · split
    · exact .nothing outbox
    · next piece _ => exact add_delivers transcript outbox piece

end Transcript

namespace Session

variable (session : Session) (outbox : Outbox) (final : Bool)

def counted (handled : Handled Session) : Handled Session :=
  match handled.result with
  | .ok .dropped =>
    { handled with state := { handled.state with dropped := handled.state.dropped + 1 } }
  | _ => handled

theorem handle_eq_counted (frame : Frame) :
    session.handle final frame outbox =
      counted
        (match frame.kind with
        | .tool =>
          let handled := session.ledger.handle frame.body (isSettled final frame) outbox
          ⟨handled.result, { session with ledger := handled.state }, handled.outbox⟩
        | .model =>
          let handled := session.transcript.handle frame.body (isSettled final frame) outbox
          ⟨handled.result, { session with transcript := handled.state }, handled.outbox⟩) := rfl

variable {outbox} in
theorem counted_delivers {handled : Handled Session}
    (delivers : outbox.Delivers handled.outbox handled.refusal?) :
    outbox.Delivers (counted handled).outbox (counted handled).refusal? := by
  unfold counted
  split <;> exact delivers

/-- A message leads to one delivery at most, and the refusal of it is reported. -/
theorem handle_delivers (frame : Frame) :
    outbox.Delivers (session.handle final frame outbox).outbox
      (session.handle final frame outbox).refusal? := by
  rw [handle_eq_counted]
  refine counted_delivers ?_
  split
  · exact Ledger.handle_delivers ..
  · exact Transcript.handle_delivers ..

theorem handle_sameInput (frame : Frame) :
    SameInput session (session.handle final frame outbox).state ∧
      (session.handle final frame outbox).state.maxBufferBytes = session.maxBufferBytes := by
  rw [handle]
  cases frame.kind with
  | tool => dsimp only; split <;> exact ⟨⟨rfl, rfl, rfl, rfl⟩, rfl⟩
  | model => dsimp only; split <;> exact ⟨⟨rfl, rfl, rfl, rfl⟩, rfl⟩

/-! ## A pass -/

theorem handleAll_delivers (frames : List Frame) :
    outbox.Delivers (handleAll final outbox session frames).outbox
      (handleAll final outbox session frames).fault := by
  induction frames generalizing session outbox with
  | nil => exact .nothing outbox
  | cons frame rest ih =>
    have first := handle_delivers session outbox final frame
    rw [Handled.refusal?] at first
    cases result : (session.handle final frame outbox).result with
    | error refusal =>
      rw [result] at first
      rw [handleAll_of_error result]
      exact first
    | ok outcome =>
      rw [result] at first
      rw [handleAll_of_ok result]
      exact first.trans (ih _ _)

theorem handleAll_sameInput (frames : List Frame) :
    SameInput session (handleAll final outbox session frames).session ∧
      (handleAll final outbox session frames).session.maxBufferBytes =
        session.maxBufferBytes := by
  induction frames generalizing session outbox with
  | nil => exact ⟨⟨rfl, rfl, rfl, rfl⟩, rfl⟩
  | cons frame rest ih =>
    obtain ⟨same, limit⟩ := handle_sameInput session outbox final frame
    cases result : (session.handle final frame outbox).result with
    | error refusal =>
      rw [handleAll_of_error result]
      exact ⟨same, limit⟩
    | ok outcome =>
      rw [handleAll_of_ok result]
      obtain ⟨later, kept⟩ := ih (session.handle final frame outbox).state
        (session.handle final frame outbox).outbox
      exact ⟨same.trans later, kept.trans limit⟩

/-! ## A pass -/

section

variable (session : Session) (outbox : Outbox) (final : Bool)

/-- A pass delivers parts of the answer, up to a refusal. -/
theorem drain_delivers :
    outbox.Delivers (session.drain final outbox).outbox (session.drain final outbox).fault := by
  have delivers :=
    handleAll_delivers session.lexed outbox final (agenda final session.lexed.frames)
  rw [drain]
  split
  · exact delivers
  · exact delivers

theorem drain_phase : (session.drain final outbox).session.phase = session.phase := by
  have same :=
    (handleAll_sameInput session.lexed outbox final (agenda final session.lexed.frames)).1.phase
  rw [drain]
  split
  · exact same
  · exact same

theorem drain_maxBufferBytes :
    (session.drain final outbox).session.maxBufferBytes = session.maxBufferBytes := by
  have same :=
    (handleAll_sameInput session.lexed outbox final (agenda final session.lexed.frames)).2
  rw [drain]
  split
  · exact same
  · exact same

/-- If nothing was refused, a pass changes nothing of the input but what it consumes. -/
theorem drain_of_taken (taken : (session.drain final outbox).fault = none) :
    ∃ other, SameInput session.lexed other ∧
      (session.drain final outbox).session =
        other.consume (session.lexed.consumed final session.lexed.frames) := by
  have same :=
    (handleAll_sameInput session.lexed outbox final (agenda final session.lexed.frames)).1
  refine ⟨_, same, ?_⟩
  rw [drain] at taken ⊢
  split at taken
  · next refused => rw [refused] at taken; cases taken
  · next fault => rw [fault]

end

end Session

end Unbraid
