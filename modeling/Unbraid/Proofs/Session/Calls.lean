import Unbraid.Proofs.Session.Run

namespace Unbraid

namespace Session

/-- What a call reports once the session is over: input is refused, and an abort gives back the
fault it was made with. -/
def lateFault (session : Session) : Call → Option Fault
  | .feed _ | .finish => some session.notOpen
  | .abort fault => some fault
  | .cancel => none

theorem performAll_append (session : Session) (outbox : Outbox) (calls more : List Call) :
    session.performAll outbox (calls ++ more) =
      (session.performAll outbox calls).run (fun _ => false) more :=
  Called.run_append rfl calls more

theorem performAll_concat (session : Session) (outbox : Outbox) (calls : List Call) (call : Call) :
    session.performAll outbox (calls ++ [call]) =
      (session.performAll outbox calls).session.perform (session.performAll outbox calls).outbox
        call :=
  performAll_append session outbox calls [call]

theorem performAll_cons (session : Session) (outbox : Outbox) (call : Call) (rest : List Call) :
    let called := session.perform outbox call
    (session.performAll outbox (call :: rest)).session =
        (called.session.performAll called.outbox rest).session ∧
      (session.performAll outbox (call :: rest)).outbox =
        (called.session.performAll called.outbox rest).outbox := by
  cases rest with
  | nil => exact ⟨rfl, rfl⟩
  | cons next rest => exact ⟨rfl, rfl⟩

/-! ## One call -/

/-- What a call can come to: the deliveries it makes, the fault it reports, and the session after
it. Whatever is proved of all calls splits into these cases, and no call is unfolded for it. -/
inductive Effect (session : Session) (outbox : Outbox) :
    Call → List Attempt → Option Fault → Session → Prop where
  /-- The session was over. -/
  | idle {call : Call} {fault : Option Fault} (closed : session.phase.isClosed = true) :
      Effect session outbox call [] fault session
  /-- A chunk was taken. -/
  | fed {chunk : Bytes} {attempts : List Attempt} {next : Session}
      (receiving : session.phase = .receiving) (course : Course attempts none)
      (goesOn : next.phase = .receiving) : Effect session outbox (.feed chunk) attempts none next
  /-- The consumer refused a part of the answer. -/
  | refused {call : Call} {attempts : List Attempt} {refusal : Fault} (last : Session)
      (receiving : session.phase = .receiving) (course : Course attempts (some refusal))
      (refuses : outbox.consumer.Refuses refusal) :
      Effect session outbox call attempts (some refusal) (last.release .failed)
  /-- More was held than is allowed. -/
  | overLimit {chunk : Bytes} {attempts : List Attempt} (refusal : Option Fault) (last : Session)
      (receiving : session.phase = .receiving) (course : Course attempts none)
      (exceeds : session.Exceeds chunk outbox) :
      Effect session outbox (.feed chunk) (attempts ++ [⟨.failure session.limitFault, refusal⟩])
        (some session.limitFault) (last.release .failed)
  /-- The answer has ended, but the consumer refused to hear so. -/
  | unheard {attempts : List Attempt} {text : String} {refusal : Fault} (last : Session)
      (receiving : session.phase = .receiving) (course : Course attempts none)
      (refuses : outbox.consumer.Refuses refusal) :
      Effect session outbox .finish (attempts ++ [⟨.event (.complete text), some refusal⟩])
        (some refusal) (last.release .failed)
  | finished {attempts : List Attempt} {text : String} (last : Session)
      (receiving : session.phase = .receiving) (course : Course attempts none) :
      Effect session outbox .finish (attempts ++ [⟨.event (.complete text), none⟩]) none
        (last.release .completed)
  | aborted {fault : Fault} (refusal : Option Fault) (receiving : session.phase = .receiving) :
      Effect session outbox (.abort fault) [⟨.failure fault, refusal⟩] (some fault)
        (session.release .failed)
  | cancelled (receiving : session.phase = .receiving) :
      Effect session outbox .cancel [] none (session.release .failed)

section

variable {session : Session} {outbox : Outbox}

theorem feed_steps (receiving : session.phase = .receiving) (chunk : Bytes) :
    (session.feed chunk outbox).steps = ((session.add chunk).drain false outbox).steps := by
  rw [feed_of_receiving receiving]
  dsimp only
  split
  · rfl
  · split <;> rfl

theorem finish_steps (receiving : session.phase = .receiving) :
    (session.finish outbox).steps =
      ({ session with phase := .draining }.drain true outbox).steps := by
  rw [finish_of_receiving receiving]
  dsimp only
  split
  · rfl
  · split <;> rfl

theorem abort_steps (fault : Fault) : (session.abort fault outbox).steps = [] := by
  rw [abort]
  split <;> rfl

theorem feed_effect (receiving : session.phase = .receiving) (chunk : Bytes) :
    ∃ attempts, outbox.Extends (session.feed chunk outbox).outbox attempts ∧
      Effect session outbox (.feed chunk) attempts (session.feed chunk outbox).fault
        (session.feed chunk outbox).session := by
  have phase := (drain_phase (session.add chunk) outbox false).trans receiving
  obtain ⟨attempts, course, log, refuses⟩ := drain_delivers (session.add chunk) outbox false
  rw [feed_of_receiving receiving]
  dsimp only
  cases fault : ((session.add chunk).drain false outbox).fault with
  | some refusal =>
    rw [fault] at course
    exact ⟨attempts, log, .refused _ receiving course (refuses refusal fault)⟩
  | none =>
    rw [fault] at course
    dsimp only
    split
    · next beyond =>
      exact ⟨_, log.trans (.deliver _ _), .overLimit _ _ receiving course ⟨fault, beyond⟩⟩
    · refine ⟨attempts, log, ?_⟩
      rw [fault]
      exact .fed receiving course phase

theorem finish_effect (receiving : session.phase = .receiving) :
    ∃ attempts, outbox.Extends (session.finish outbox).outbox attempts ∧
      Effect session outbox .finish attempts (session.finish outbox).fault
        (session.finish outbox).session := by
  generalize draining : { session with phase := Phase.draining } = other
  obtain ⟨attempts, course, log, refuses⟩ := drain_delivers other outbox true
  rw [finish_of_receiving receiving, draining]
  dsimp only
  cases fault : (other.drain true outbox).fault with
  | some refusal =>
    rw [fault] at course
    exact ⟨attempts, log, .refused _ receiving course (refuses refusal fault)⟩
  | none =>
    rw [fault] at course
    have told := log.trans (.deliver (other.drain true outbox).outbox
      (.event (.complete (other.drain true outbox).session.transcript.text)))
    dsimp only
    split
    · next refusal after equal =>
      have refused := congrArg Prod.fst equal
      rw [equal] at told
      exact ⟨_, told, .unheard _ receiving course (log.consumer ▸ ⟨_, _, refused⟩)⟩
    · next after equal =>
      rw [equal] at told
      exact ⟨_, told, .finished _ receiving course⟩

theorem perform_late (closed : session.phase.isClosed = true) (outbox : Outbox) (call : Call) :
    session.perform outbox call = ⟨session.lateFault call, session, outbox, []⟩ := by
  have ended : session.phase ≠ .receiving := by
    intro receiving
    rw [receiving] at closed
    cases closed
  cases call with
  | feed chunk => exact if_neg ended
  | finish => exact if_neg ended
  | abort fault => exact if_pos closed
  | cancel => rw [perform, cancel, if_pos closed]; rfl

theorem perform_of_closed (closed : session.phase.isClosed = true) (outbox : Outbox)
    (call : Call) :
    (session.perform outbox call).session = session ∧
      (session.perform outbox call).outbox = outbox := by
  rw [perform_late closed]
  exact ⟨rfl, rfl⟩

theorem perform_effect (between : session.phase ≠ .draining) (outbox : Outbox) (call : Call) :
    ∃ attempts, outbox.Extends (session.perform outbox call).outbox attempts ∧
      Effect session outbox call attempts (session.perform outbox call).fault
        (session.perform outbox call).session := by
  cases closed : session.phase.isClosed with
  | true =>
    obtain ⟨same, silent⟩ := perform_of_closed closed outbox call
    rw [same, silent]
    exact ⟨[], .refl outbox, .idle closed⟩
  | false =>
    have receiving : session.phase = .receiving := by
      cases phase : session.phase with
      | receiving => rfl
      | draining => exact absurd phase between
      | completed => rw [phase] at closed; cases closed
      | failed => rw [phase] at closed; cases closed
    cases call with
    | feed chunk => exact feed_effect receiving chunk
    | finish => exact finish_effect receiving
    | abort fault =>
      rw [perform, abort_of_receiving receiving]
      exact ⟨_, .deliver outbox (.failure fault), .aborted _ receiving⟩
    | cancel =>
      have left : session.cancel = session.release .failed := by rw [cancel, closed]; rfl
      rw [perform, left]
      exact ⟨[], .refl outbox, .cancelled receiving⟩

end

end Session

end Unbraid
