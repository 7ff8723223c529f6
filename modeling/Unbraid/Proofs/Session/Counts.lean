import Unbraid.Proofs.Session.Steps

/-!
# The counts of a session

What a session has counted, whatever calls it gets and whatever its consumer refuses
(`Session.counts_of_calls`):

* the notices that were taken;
* the pieces of text that were handed over. A piece is counted before the consumer answers, so there
  is one too many exactly if the session has failed because a piece was refused (`Counts.agrees`,
  `Counts.surplus`);
* the bytes of the chunks that came while it was open.

Nothing is counted but in the passes: what a call does after its pass changes no count
(`Session.perform_concludes`).
-/

namespace Unbraid

/-! ## What was handed over -/

namespace Attempt

def piece? (attempt : Attempt) : Option String :=
  match attempt.delivery with
  | .event event => event.piece?
  | .failure _ => none

/-- Of what takes part in the answer, each piece that was handed over was taken. -/
theorem pieces_of_takesPart {log : List Attempt}
    (taken : ∀ attempt ∈ log, attempt.TakesPart) :
    log.filterMap piece? = (log.filterMap takenEvent?).filterMap Event.piece? := by
  rw [List.filterMap_filterMap]
  refine List.filterMap_congr fun attempt present => ?_
  obtain ⟨event, -, rfl⟩ := taken attempt present
  rfl

/-- Only a piece makes a difference, and only if it was refused. -/
theorem refused_or_same (attempt : Attempt) :
    (∃ piece refusal, attempt = ⟨.event (.delta piece), some refusal⟩) ∨
      [attempt].filterMap piece? =
        ([attempt].filterMap takenEvent?).filterMap Event.piece? := by
  obtain ⟨delivery, answer⟩ := attempt
  cases delivery with
  | failure fault => right; cases answer <;> rfl
  | event event =>
    cases answer with
    | none => right; rfl
    | some refusal =>
      cases event with
      | delta piece => left; exact ⟨piece, refusal, rfl⟩
      | tool payload => right; rfl
      | complete text => right; rfl

end Attempt

namespace Outbox

/-- The pieces of text that were handed over, taken or refused. -/
def handedPieces (outbox : Outbox) : List String := outbox.log.filterMap Attempt.piece?

/-- The last thing that was handed over is a piece of text, and it was refused. -/
def EndsRefused (outbox : Outbox) : Prop :=
  ∃ before piece refusal, outbox.log = before ++ [⟨.event (.delta piece), some refusal⟩]

variable (outbox : Outbox)

theorem handedPieces_deliver (delivery : Delivery) :
    (outbox.deliver delivery).2.handedPieces =
      outbox.handedPieces ++
        (Attempt.mk delivery (outbox.deliver delivery).1).piece?.toList := by
  rw [handedPieces, (Extends.deliver outbox delivery).log, List.filterMap_append]
  cases delivery with
  | event event => cases event <;> rfl
  | failure fault => rfl

theorem payloads_deliver (event : Event) :
    (outbox.deliver (.event event)).2.payloads =
      match (outbox.deliver (.event event)).1 with
      | none => outbox.payloads ++ event.payload?.toList
      | some _ => outbox.payloads := by
  rw [payloads, events_deliver]
  cases (outbox.deliver (.event event)).1 with
  | none =>
    rw [List.filterMap_append]
    cases event <;> rfl
  | some refusal => rfl

theorem payloads_deliver_failure (fault : Fault) :
    (outbox.deliver (.failure fault)).2.payloads = outbox.payloads := by
  rw [payloads, events_deliver_failure]
  rfl

end Outbox

/-! ## One message -/

section

variable {outbox : Outbox}

/-- A notice is counted if it was taken. -/
theorem Ledger.enter_counts (ledger : Ledger) (notice : Notice)
    (counts : ledger.emitted = outbox.payloads.length) :
    (ledger.enter notice outbox).state.emitted =
        (ledger.enter notice outbox).outbox.payloads.length ∧
      (ledger.enter notice outbox).outbox.handedPieces = outbox.handedPieces := by
  have payloads := outbox.payloads_deliver (.tool notice.payload)
  have pieces := outbox.handedPieces_deliver (.event (.tool notice.payload))
  rw [enter]
  split
  · exact ⟨counts, rfl⟩
  · dsimp only
    split
    · next refusal after answer =>
      rw [answer] at payloads pieces
      rw [payloads, pieces]
      exact ⟨counts, List.append_nil _⟩
    · next after answer =>
      rw [answer] at payloads pieces
      rw [payloads, pieces, List.length_append, counts]
      exact ⟨rfl, List.append_nil _⟩

theorem Ledger.handle_counts (ledger : Ledger) (body : Bytes) (final : Bool)
    (counts : ledger.emitted = outbox.payloads.length) :
    (ledger.handle body final outbox).state.emitted =
        (ledger.handle body final outbox).outbox.payloads.length ∧
      (ledger.handle body final outbox).outbox.handedPieces = outbox.handedPieces := by
  rw [handle]
  split
  · exact ⟨counts, rfl⟩
  · exact ⟨counts, rfl⟩
  · split
    · exact ⟨counts, rfl⟩
    · next notice _ => exact enter_counts ledger notice counts

/-- A piece is counted whether it was taken or refused. -/
theorem Transcript.add_counts (transcript : Transcript) (piece : String)
    (counts : transcript.deltas = outbox.handedPieces.length) :
    (transcript.add piece outbox).state.deltas =
        (transcript.add piece outbox).outbox.handedPieces.length ∧
      (transcript.add piece outbox).outbox.payloads = outbox.payloads := by
  have payloads := outbox.payloads_deliver (.delta piece)
  have pieces := outbox.handedPieces_deliver (.event (.delta piece))
  rw [add]
  split
  · next refusal after answer =>
    rw [answer] at payloads pieces
    rw [payloads, pieces, List.length_append, counts]
    exact ⟨rfl, rfl⟩
  · next after answer =>
    rw [answer] at payloads pieces
    rw [payloads, pieces, List.length_append, counts]
    exact ⟨rfl, List.append_nil _⟩

theorem Transcript.handle_counts (transcript : Transcript) (body : Bytes) (final : Bool)
    (counts : transcript.deltas = outbox.handedPieces.length) :
    (transcript.handle body final outbox).state.deltas =
        (transcript.handle body final outbox).outbox.handedPieces.length ∧
      (transcript.handle body final outbox).outbox.payloads = outbox.payloads := by
  rw [handle]
  split
  · exact ⟨counts, rfl⟩
  · exact ⟨counts, rfl⟩
  · split
    · exact ⟨counts, rfl⟩
    · next piece _ => exact add_counts transcript piece counts

end

namespace Session

/-- The session has counted the notices that were taken and the pieces that were handed over. -/
structure Tallies (session : Session) (outbox : Outbox) : Prop where
  notices : session.ledger.emitted = outbox.payloads.length
  pieces : session.transcript.deltas = outbox.handedPieces.length

section

variable {session other : Session} {outbox after : Outbox}

theorem Tallies.of_same (tallies : session.Tallies outbox)
    (emitted : other.ledger.emitted = session.ledger.emitted)
    (deltas : other.transcript.deltas = session.transcript.deltas)
    (payloads : after.payloads = outbox.payloads)
    (pieces : after.handedPieces = outbox.handedPieces) : other.Tallies after := by
  refine ⟨?_, ?_⟩
  · rw [emitted, payloads, tallies.notices]
  · rw [deltas, pieces, tallies.pieces]

theorem Tallies.release (tallies : session.Tallies outbox) (phase : Phase) :
    (session.release phase).Tallies outbox := by
  refine tallies.of_same rfl ?_ rfl rfl
  show (if phase = .failed then session.transcript.clear else session.transcript).deltas = _
  split <;> rfl

/-- The signal of a failure and the whole text are neither a notice nor a piece. -/
theorem Tallies.deliver (tallies : session.Tallies outbox) {delivery : Delivery}
    (ends : (∃ fault, delivery = .failure fault) ∨ ∃ text, delivery = .event (.complete text)) :
    session.Tallies (outbox.deliver delivery).2 := by
  rcases ends with ⟨fault, rfl⟩ | ⟨text, rfl⟩
  · refine tallies.of_same rfl rfl (outbox.payloads_deliver_failure fault) ?_
    rw [Outbox.handedPieces_deliver]
    exact List.append_nil _
  · refine tallies.of_same rfl rfl (deliver_complete outbox text).1 ?_
    rw [Outbox.handedPieces_deliver]
    exact List.append_nil _

theorem Tallies.handle (tallies : session.Tallies outbox) (final : Bool) (frame : Frame) :
    (session.handle final frame outbox).state.Tallies
      (session.handle final frame outbox).outbox := by
  have dropped : ∀ handled : Handled Session, handled.state.Tallies handled.outbox →
      (counted handled).state.Tallies (counted handled).outbox := by
    intro handled tallies
    unfold counted
    split
    · exact tallies.of_same rfl rfl rfl rfl
    · exact tallies
  rw [handle_eq_counted]
  refine dropped _ ?_
  cases frame.kind with
  | tool =>
    obtain ⟨emitted, pieces⟩ := session.ledger.handle_counts frame.body
      (isSettled final frame) tallies.notices
    exact ⟨emitted, by rw [pieces]; exact tallies.pieces⟩
  | model =>
    obtain ⟨deltas, payloads⟩ := session.transcript.handle_counts frame.body
      (isSettled final frame) tallies.pieces
    exact ⟨by rw [payloads]; exact tallies.notices, deltas⟩

theorem Tallies.handleAll (tallies : session.Tallies outbox) (final : Bool)
    (frames : List Frame) :
    (Session.handleAll final outbox session frames).session.Tallies
      (Session.handleAll final outbox session frames).outbox := by
  induction frames generalizing session outbox with
  | nil => exact tallies
  | cons frame rest ih =>
    have handled := tallies.handle final frame
    cases result : (session.handle final frame outbox).result with
    | error refusal =>
      rw [handleAll_of_error result]
      exact handled
    | ok outcome =>
      rw [handleAll_of_ok result]
      exact ih handled

theorem Tallies.drain (tallies : session.Tallies outbox) (final : Bool) :
    (session.drain final outbox).session.Tallies (session.drain final outbox).outbox := by
  have lexed : session.lexed.Tallies outbox := tallies.of_same rfl rfl rfl rfl
  have handled := lexed.handleAll final (agenda final session.lexed.frames)
  rw [Session.drain]
  split
  · exact handled
  · exact handled.of_same rfl rfl rfl rfl

end

/-! ## One call -/

/-- What a call does after its pass: nothing more, or it ends the session, and may tell the consumer
that it has ended. -/
inductive Concludes (session : Session) (outbox : Outbox) : Session → Outbox → Prop where
  | stays : Concludes session outbox session outbox
  | silent (phase : Phase) : Concludes session outbox (session.release phase) outbox
  | told (phase : Phase) {delivery : Delivery}
      (ends : (∃ fault, delivery = .failure fault) ∨ ∃ text, delivery = .event (.complete text)) :
      Concludes session outbox (session.release phase) (outbox.deliver delivery).2

/-- The session and the outbox after the pass of a call, if it makes one. -/
def pass (session : Session) (outbox : Outbox) : Call → Called
  | .feed chunk =>
    if session.phase = .receiving then (session.add chunk).drain false outbox
    else session.uncalled outbox
  | .finish =>
    if session.phase = .receiving then { session with phase := .draining }.drain true outbox
    else session.uncalled outbox
  | .abort _ | .cancel => session.uncalled outbox

section

variable (session : Session) (outbox : Outbox)

theorem abort_concludes (fault : Fault) :
    Concludes session outbox (session.abort fault outbox).session
      (session.abort fault outbox).outbox := by
  rw [abort]
  split
  · exact .stays
  · exact .told .failed (.inl ⟨fault, rfl⟩)

theorem perform_concludes (call : Call) :
    Concludes (session.pass outbox call).session (session.pass outbox call).outbox
      (session.perform outbox call).session (session.perform outbox call).outbox := by
  cases call with
  | feed chunk =>
    by_cases receiving : session.phase = .receiving
    · rw [perform, feed_of_receiving receiving, pass, if_pos receiving]
      dsimp only
      split
      · exact .silent .failed
      · split
        · exact .told .failed (.inl ⟨_, rfl⟩)
        · exact .stays
    · rw [perform, feed, if_neg receiving, pass, if_neg receiving]
      exact .stays
  | finish =>
    by_cases receiving : session.phase = .receiving
    · rw [perform, finish_of_receiving receiving, pass, if_pos receiving]
      generalize { session with phase := Phase.draining }.drain true outbox = called
      have told : ∀ phase, Concludes called.session called.outbox (called.session.release phase)
          (called.outbox.deliver (.event (.complete called.session.transcript.text))).2 :=
        fun phase => .told phase (.inr ⟨_, rfl⟩)
      dsimp only
      split
      · exact .silent .failed
      · split
        · next answer => rw [answer] at told; exact told .failed
        · next answer => rw [answer] at told; exact told .completed
    · rw [perform, finish, if_neg receiving, pass, if_neg receiving]
      exact .stays
  | abort fault => exact abort_concludes session outbox fault
  | cancel =>
    rw [perform, cancel]
    split
    · exact .stays
    · exact .silent .failed

end

section

variable {session next : Session} {outbox after : Outbox}

theorem Tallies.pass (tallies : session.Tallies outbox) (call : Call) :
    (session.pass outbox call).session.Tallies (session.pass outbox call).outbox := by
  cases call with
  | feed chunk =>
    have added : (session.add chunk).Tallies outbox := tallies.of_same rfl rfl rfl rfl
    rw [Session.pass]
    split
    · exact added.drain false
    · exact tallies
  | finish =>
    have draining : { session with phase := .draining }.Tallies outbox :=
      tallies.of_same rfl rfl rfl rfl
    rw [Session.pass]
    split
    · exact draining.drain true
    · exact tallies
  | abort fault => exact tallies
  | cancel => exact tallies

theorem Tallies.concludes (tallies : session.Tallies outbox)
    (concludes : Concludes session outbox next after) : next.Tallies after := by
  cases concludes with
  | stays => exact tallies
  | silent phase => exact tallies.release phase
  | told phase ends => exact (tallies.deliver ends).release phase

theorem Tallies.perform (tallies : session.Tallies outbox) (call : Call) :
    (session.perform outbox call).session.Tallies (session.perform outbox call).outbox :=
  (tallies.pass call).concludes (perform_concludes session outbox call)

end

/-! ## The bytes that came in -/

/-- The bytes that a call brings to a session: those of a chunk, if the session is open. -/
def intake (session : Session) : Call → Bytes
  | .feed chunk => if session.phase = .receiving then chunk else []
  | .finish | .abort _ | .cancel => []

def intakeAll (session : Session) (outbox : Outbox) : List Call → Bytes
  | [] => []
  | call :: rest =>
    let called := session.perform outbox call
    session.intake call ++ called.session.intakeAll called.outbox rest

section

variable (session : Session) (outbox : Outbox)

theorem drain_bytesIn (final : Bool) :
    (session.drain final outbox).session.bytesIn = session.bytesIn := by
  have same :=
    (handleAll_sameInput session.lexed outbox final (agenda final session.lexed.frames)).1.bytesIn
  rw [drain]
  split
  · exact same
  · exact same

theorem Concludes.bytesIn {session next : Session} {outbox after : Outbox}
    (concludes : Concludes session outbox next after) : next.bytesIn = session.bytesIn := by
  cases concludes <;> rfl

theorem perform_bytesIn (call : Call) :
    (session.perform outbox call).session.bytesIn =
      session.bytesIn + (session.intake call).length := by
  rw [(perform_concludes session outbox call).bytesIn]
  cases call with
  | feed chunk =>
    rw [pass, intake]
    split
    · exact drain_bytesIn _ _ _
    · rfl
  | finish =>
    rw [pass]
    split
    · exact drain_bytesIn _ _ _
    · rfl
  | abort fault => rfl
  | cancel => rfl

theorem performAll_bytesIn (calls : List Call) :
    (session.performAll outbox calls).session.bytesIn =
      session.bytesIn + (session.intakeAll outbox calls).length := by
  induction calls generalizing session outbox with
  | nil => rfl
  | cons call rest ih =>
    rw [(performAll_cons session outbox call rest).1, ih, perform_bytesIn, intakeAll,
      List.length_append, Nat.add_assoc]

end

/-! ## All calls -/

/-- What a session has counted, beside what its consumer was handed and what it was fed. -/
structure Counts (held : Called) (received : Bytes) : Prop where
  toolEvents : held.session.statistics.toolEvents = held.outbox.payloads.length
  deltas : held.session.statistics.deltas = held.outbox.handedPieces.length
  bytesIn : held.session.statistics.bytesIn = received.length
  /-- The pieces that were taken are as many, unless the last thing handed over is a piece that was
  refused. -/
  agrees : held.session.statistics.deltas = held.outbox.pieces.length ↔ ¬ held.outbox.EndsRefused
  surplus : held.outbox.EndsRefused →
    held.session.phase = .failed ∧
      held.session.statistics.deltas = held.outbox.pieces.length + 1

section

variable {phase : Phase} {outbox : Outbox} (signals : Signals phase outbox.log)

include signals

theorem Signals.of_endsRefused (refused : outbox.EndsRefused) :
    phase = .failed ∧ outbox.handedPieces.length = outbox.pieces.length + 1 := by
  obtain ⟨before, piece, refusal, log⟩ := refused
  rw [Outbox.handedPieces, Outbox.pieces, Outbox.events]
  rw [log] at signals ⊢
  obtain ⟨failed, taken⟩ := signals.of_refused
  refine ⟨failed, ?_⟩
  rw [Attempt.takenEvents_concat_refused, List.filterMap_append,
    Attempt.pieces_of_takesPart taken, List.length_append]
  rfl

/-- Of what was handed over, only the last can be a piece that was not taken. -/
theorem Signals.handedPieces_eq (other : ¬ outbox.EndsRefused) :
    outbox.handedPieces = outbox.pieces := by
  rw [Outbox.handedPieces, Outbox.pieces, Outbox.events]
  rcases outbox.log.eq_nil_or_concat with nothing | ⟨before, last, log⟩
  · rw [nothing]
    rfl
  · rw [List.concat_eq_append] at log
    have taken := signals.dropLast
    rw [log, List.dropLast_concat] at taken
    rcases last.refused_or_same with ⟨piece, refusal, rfl⟩ | same
    · exact absurd ⟨before, piece, refusal, log⟩ other
    · rw [log, List.filterMap_append, List.filterMap_append, List.filterMap_append,
        Attempt.pieces_of_takesPart taken, same]

end

section

variable {id : String} {settings : DemuxSettings} {session : Session}
  (started : start id settings = .ok session) (consumer : Consumer) (calls : List Call)

include started

theorem zero_of_start : session.ledger.emitted = 0 ∧ session.transcript.deltas = 0 ∧
    session.bytesIn = 0 := by
  unfold start at started
  cases usable : settings.tags with
  | error cause => rw [usable] at started; cases started
  | ok tags =>
    rw [usable] at started
    obtain rfl := Except.ok.inj started
    exact ⟨rfl, rfl, rfl⟩

theorem tallies_of_calls :
    (session.performAll (.fresh consumer) calls).session.Tallies
      (session.performAll (.fresh consumer) calls).outbox := by
  obtain ⟨emitted, deltas, -⟩ := zero_of_start started
  exact Called.run_induction (motive := fun called => called.session.Tallies called.outbox)
    (fun _ call kept => kept.perform call) ⟨emitted, deltas⟩ calls

/-- Whatever calls are made and whatever the consumer refuses: notices are counted when they are
taken, pieces when they are handed over, and bytes when they come to an open session. So the count
of pieces is one higher than the number of those that were taken if the last thing handed over is a
piece that was refused, and otherwise it is that number. -/
theorem counts_of_calls :
    Counts (session.performAll (.fresh consumer) calls)
      (session.intakeAll (.fresh consumer) calls) := by
  have tallies := tallies_of_calls started consumer calls
  have signals := signals_of_calls started consumer calls
  have bytes := performAll_bytesIn session (.fresh consumer) calls
  obtain ⟨-, -, zero⟩ := zero_of_start started
  rw [zero, Nat.zero_add] at bytes
  generalize session.performAll (.fresh consumer) calls = held at tallies signals bytes ⊢
  have deltas : held.session.statistics.deltas = held.outbox.handedPieces.length := tallies.pieces
  refine ⟨tallies.notices, deltas, bytes, ⟨?_, fun other => ?_⟩, fun refused => ?_⟩
  · intro equal refused
    have more := (signals.of_endsRefused refused).2
    omega
  · rw [deltas, signals.handedPieces_eq other]
  · rw [deltas]
    exact signals.of_endsRefused refused

end

/-- The consumer takes a notice and refuses the piece of text after it. The session is over then,
and the calls that come later bring no bytes. -/
theorem counts_after_a_refusal :
    let outbox := Outbox.fresh (.takesFirst 1 ⟨.sink, "consumer closed"⟩ true)
    let held := (standard "s").performAll outbox noticeAndToken
    Counts held ((standard "s").intakeAll outbox noticeAndToken) ∧ held.outbox.EndsRefused ∧
      held.session.statistics.toolEvents = 1 ∧ held.session.statistics.deltas = 1 ∧
      held.outbox.payloads.length = 1 ∧ held.outbox.pieces.length = 0 := by
  intro outbox held
  have counts : Counts held ((standard "s").intakeAll outbox noticeAndToken) :=
    counts_of_calls (start_standard "s") _ noticeAndToken
  have deltas : held.session.statistics.deltas = 1 := by decide +kernel
  have pieces : held.outbox.pieces.length = 0 := by decide +kernel
  have refused : held.outbox.EndsRefused := by
    by_contra other
    have equal := counts.agrees.2 other
    omega
  exact ⟨counts, refused, by decide +kernel, deltas, by decide +kernel, pieces⟩

/-- A piece that the consumer refuses is counted all the same, since it is written down before it is
handed over. A notice that is refused is not. -/
theorem refused_piece_is_counted :
    let held := (standard "s").performAll
      (.fresh (.takesFirst 0 ⟨.sink, "consumer closed"⟩ true))
      [.feed (Bytes.ofText (token "b" ++ "Toly :"))]
    held.session.statistics.deltas = 1 ∧ held.outbox.pieces.length = 0 := by
  decide +kernel

end Session

end Unbraid
