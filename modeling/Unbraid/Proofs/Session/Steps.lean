import Mathlib.Data.List.Induction
import Unbraid.Proofs.Session.CutOff

/-!
# Message by message

The messages that a session handles, whatever calls it gets and whatever its consumer refuses, each
with the session and the outbox before it (`Session.stepsAll`). As long as nothing was refused, an
open session holds, and its consumer has taken, what those messages amount to; after that the
consumer has a beginning of it (`Session.standing_of_calls`).
-/

namespace Unbraid

/-! ## What an open session keeps -/

/-- What the consumer has taken is the beginning of what some messages amount to. -/
structure Outbox.Begins (outbox : Outbox) (filter : TokenFilter) (messages : List Message) :
    Prop where
  payloads : outbox.payloads <+:
    (Notice.firsts (Message.notices messages)).map Notice.payload
  pieces : outbox.pieces <+: Message.pieces filter messages

theorem Outbox.Begins.of_same {outbox after : Outbox} {filter : TokenFilter}
    {messages : List Message} (begins : outbox.Begins filter messages)
    (payloads : after.payloads = outbox.payloads) (pieces : after.pieces = outbox.pieces) :
    after.Begins filter messages :=
  ⟨payloads ▸ begins.payloads, pieces ▸ begins.pieces⟩

namespace Session

/-- The session holds, and its consumer has taken, what the messages amount to. It is as if the
consumer took everything; such a consumer beside it, with the same events, is what makes the lemmas
on handlers apply. -/
def Keeps (filter : TokenFilter) (session : Session) (outbox : Outbox) (messages : List Message) :
    Prop :=
  ∃ full, Abreast full outbox ∧ Reflects filter session full messages

section

variable {filter : TokenFilter} {session other : Session} {full outbox : Outbox}
  {messages : List Message} {final : Bool}

theorem begins_of_prefix {notices : List Notice} {pieces : List String}
    (reflects : full.Reflects notices pieces) (notice : notices = Message.notices messages)
    (piece : pieces = Message.pieces filter messages) (events : outbox.events <+: full.events) :
    outbox.Begins filter messages := by
  subst notice piece
  refine ⟨?_, ?_⟩
  · rw [← reflects.payloads]
    exact events.filterMap Event.payload?
  · rw [← reflects.pieces]
    exact events.filterMap Event.piece?

namespace Keeps

theorem payloads (keeps : Keeps filter session outbox messages) :
    outbox.payloads = (Notice.firsts (Message.notices messages)).map Notice.payload := by
  obtain ⟨full, abreast, reflects⟩ := keeps
  rw [← reflects.outbox.payloads, Outbox.payloads, Outbox.payloads, abreast.same]

theorem pieces (keeps : Keeps filter session outbox messages) :
    outbox.pieces = Message.pieces filter messages := by
  obtain ⟨full, abreast, reflects⟩ := keeps
  rw [← reflects.outbox.pieces, Outbox.pieces, Outbox.pieces, abreast.same]

theorem text (keeps : Keeps filter session outbox messages) :
    session.transcript.text = String.join outbox.pieces := by
  have pieces := keeps.pieces
  obtain ⟨full, -, reflects⟩ := keeps
  rw [pieces, reflects.transcript.text]

/-- Each notice is either taken or a duplicate. -/
theorem count (keeps : Keeps filter session outbox messages) :
    outbox.payloads.length + session.ledger.duplicates = (Message.notices messages).length := by
  have taken := congrArg List.length keeps.payloads
  rw [List.length_map] at taken
  obtain ⟨full, -, reflects⟩ := keeps
  rw [taken, Nat.add_comm]
  exact reflects.ledger.duplicates

theorem begins (keeps : Keeps filter session outbox messages) : outbox.Begins filter messages :=
  ⟨keeps.payloads ▸ List.prefix_refl _, keeps.pieces ▸ List.prefix_refl _⟩

theorem of_same (keeps : Keeps filter session outbox messages)
    (ledger : other.ledger = session.ledger) (transcript : other.transcript = session.transcript)
    (dropped : other.dropped = session.dropped) : Keeps filter other outbox messages := by
  obtain ⟨full, abreast, reflects⟩ := keeps
  refine ⟨full, abreast, ⟨?_, ?_, ?_, reflects.outbox, ?_⟩⟩
  · rw [transcript]
    exact reflects.listens
  · rw [ledger]
    exact reflects.ledger
  · rw [transcript]
    exact reflects.transcript
  · rw [dropped]
    exact reflects.dropped

/-- One more message, unless the consumer refuses what it leads to. -/
theorem handle (keeps : Keeps filter session outbox messages) {frame : Frame}
    (settled : isSettled final frame = true) :
    (∃ outcome, (session.handle final frame outbox).result = .ok outcome ∧
      Keeps filter (session.handle final frame outbox).state
        (session.handle final frame outbox).outbox (messages ++ [frame.message])) ∨
    ∃ refusal, (session.handle final frame outbox).result = .error refusal ∧
      (session.handle final frame outbox).outbox.Begins filter (messages ++ [frame.message]) := by
  obtain ⟨full, abreast, reflects⟩ := keeps
  -- The consumer that takes everything knows what the message amounts to.
  obtain ⟨⟨outcome, taken, -⟩, further, -⟩ := handle_reflects reflects settled
  cases handle_agrees abreast session final frame with
  | same result state abreast =>
    refine .inl ⟨outcome, result.trans taken, _, abreast, ?_⟩
    rw [state]
    exact further
  | @cut refusal result cut =>
    obtain ⟨-, before, event, rest, -, events⟩ := cut
    exact .inr ⟨refusal, result,
      begins_of_prefix further.outbox rfl rfl (events ▸ List.prefix_append _ _)⟩

end Keeps

end

/-! ## A pass -/

section

variable {filter : TokenFilter} {session : Session} {outbox : Outbox} {messages : List Message}
  {final : Bool}

/-- At each message of a pass nothing has been refused yet. -/
theorem Keeps.handleAll_steps (keeps : Keeps filter session outbox messages) {frames : List Frame}
    (settled : ∀ frame ∈ frames, isSettled final frame = true) {earlier later : List Step}
    {step : Step}
    (split : (Session.handleAll final outbox session frames).steps = earlier ++ step :: later) :
    Keeps filter step.session step.outbox (messages ++ earlier.map Step.message) ∧
      isSettled step.final step.frame = true := by
  induction frames generalizing session outbox messages earlier with
  | nil => exact absurd split (by simp [Session.handleAll])
  | cons frame rest ih =>
    have ready := settled frame List.mem_cons_self
    have others : ∀ frame ∈ rest, isSettled final frame = true :=
      fun other present => settled other (List.mem_cons_of_mem _ present)
    rcases keeps.handle ready with ⟨outcome, result, kept⟩ | ⟨refusal, result, -⟩
    · rw [handleAll_of_ok result] at split
      cases earlier with
      | nil =>
        obtain ⟨rfl, -⟩ := List.cons.inj split
        rw [List.map_nil, List.append_nil]
        exact ⟨keeps, ready⟩
      | cons first earlier =>
        obtain ⟨rfl, tail⟩ := List.cons.inj split
        rw [List.map_cons, ← List.singleton_append, ← List.append_assoc]
        exact ih kept others tail
    · rw [handleAll_of_error result] at split
      cases earlier with
      | nil =>
        obtain ⟨rfl, -⟩ := List.cons.inj split
        rw [List.map_nil, List.append_nil]
        exact ⟨keeps, ready⟩
      | cons first earlier => cases earlier <;> cases split

theorem Keeps.handleAll (keeps : Keeps filter session outbox messages) {frames : List Frame}
    (settled : ∀ frame ∈ frames, isSettled final frame = true) :
    let called := Session.handleAll final outbox session frames
    let more := called.steps.map Step.message
    (called.fault = none → Keeps filter called.session called.outbox (messages ++ more)) ∧
      called.outbox.Begins filter (messages ++ more) := by
  induction frames generalizing session outbox messages with
  | nil =>
    simp only [Session.handleAll, List.map_nil, List.append_nil]
    exact ⟨fun _ => keeps, keeps.begins⟩
  | cons frame rest ih =>
    have others : ∀ frame ∈ rest, isSettled final frame = true :=
      fun other present => settled other (List.mem_cons_of_mem _ present)
    rcases keeps.handle (settled frame List.mem_cons_self) with
      ⟨outcome, result, kept⟩ | ⟨refusal, result, begins⟩
    · have later := ih kept others
      rw [handleAll_of_ok result]
      simp only [Called.after, List.map_cons]
      rw [← List.singleton_append, ← List.append_assoc]
      exact later
    · rw [handleAll_of_error result]
      refine ⟨fun none => ?_, begins⟩
      cases none

theorem Keeps.drain_steps (keeps : Keeps filter session outbox messages)
    {earlier later : List Step} {step : Step}
    (split : (session.drain final outbox).steps = earlier ++ step :: later) :
    Keeps filter step.session step.outbox (messages ++ earlier.map Step.message) ∧
      isSettled step.final step.frame = true := by
  have lexed : Keeps filter session.lexed outbox messages := keeps.of_same rfl rfl rfl
  rw [Session.drain_steps] at split
  exact lexed.handleAll_steps (fun frame present => isSettled_of_mem_agenda present) split

theorem Keeps.drain (keeps : Keeps filter session outbox messages) (final : Bool) :
    let called := session.drain final outbox
    let more := called.steps.map Step.message
    (called.fault = none → Keeps filter called.session called.outbox (messages ++ more)) ∧
      called.outbox.Begins filter (messages ++ more) := by
  have lexed : Keeps filter session.lexed outbox messages := keeps.of_same rfl rfl rfl
  have settled : ∀ frame ∈ agenda final session.lexed.frames, isSettled final frame = true :=
    fun frame present => isSettled_of_mem_agenda present
  have all := lexed.handleAll settled
  rw [Session.drain]
  dsimp only at all ⊢
  split
  · next refused =>
    rw [refused] at all ⊢
    exact all
  · next taken => exact ⟨fun _ => (all.1 taken).of_same rfl rfl rfl, all.2⟩

end

/-! ## One call -/

def Unfinished (log : List Attempt) : Prop :=
  ∀ text answer, Attempt.mk (.event (.complete text)) answer ∉ log

/-- If the last thing the consumer was told is the whole text, it is that of the pieces it took
before. -/
def TellsWhole (outbox : Outbox) : Prop :=
  ∀ before text answer, outbox.log = before ++ [⟨.event (.complete text), answer⟩] →
    text = String.join (Outbox.mk outbox.consumer before).pieces

/-- Where a session stands after some messages, whatever its consumer refused. -/
structure Standing (filter : TokenFilter) (session : Session) (outbox : Outbox)
    (messages : List Message) : Prop where
  receiving : session.phase = .receiving → Keeps filter session outbox messages
  text : session.phase ≠ .failed → session.transcript.text = String.join outbox.pieces
  payloads : session.phase ≠ .failed →
    outbox.payloads = (Notice.firsts (Message.notices messages)).map Notice.payload
  count : session.phase ≠ .failed →
    outbox.payloads.length + session.ledger.duplicates = (Message.notices messages).length
  begins : outbox.Begins filter messages
  whole : TellsWhole outbox

section

variable {filter : TokenFilter} {session : Session} {outbox : Outbox} {messages : List Message}
  {log attempts : List Attempt} {refusal : Option Fault}

theorem Unfinished.of_takesPart (parts : ∀ attempt ∈ log, attempt.TakesPart) : Unfinished log :=
  fun text answer handed => not_takesPart_complete text answer (parts _ handed)

theorem Unfinished.of_course (course : Course attempts refusal) : Unfinished attempts := by
  intro text answer handed
  induction course with
  | nothing => cases handed
  | refused part =>
    cases List.mem_singleton.1 handed
    cases part
  | taken part _ ih =>
    rcases List.mem_cons.1 handed with equal | later
    · cases equal
      cases part
    · exact ih later

theorem Unfinished.append (first : Unfinished log) (second : Unfinished attempts) :
    Unfinished (log ++ attempts) := by
  intro text answer handed
  rcases List.mem_append.1 handed with before | later
  · exact first text answer before
  · exact second text answer later

theorem Unfinished.drain (unfinished : Unfinished outbox.log) (session : Session) (final : Bool) :
    Unfinished (session.drain final outbox).outbox.log := by
  obtain ⟨attempts, course, log, -⟩ := drain_delivers session outbox final
  rw [log.log]
  exact unfinished.append (.of_course course)

theorem Unfinished.signal (unfinished : Unfinished outbox.log) (fault : Fault) :
    Unfinished (outbox.deliver (.failure fault)).2.log := by
  refine unfinished.append fun text answer handed => ?_
  cases List.mem_singleton.1 handed

theorem Unfinished.tellsWhole (unfinished : Unfinished outbox.log) : TellsWhole outbox := by
  intro before text answer last
  refine absurd ?_ (unfinished text answer)
  rw [last]
  exact List.mem_append_right _ List.mem_cons_self

theorem begins_signal (begins : outbox.Begins filter messages) (fault : Fault) :
    (outbox.deliver (.failure fault)).2.Begins filter messages := by
  have events := Outbox.events_deliver_failure outbox fault
  exact begins.of_same (congrArg (List.filterMap Event.payload?) events)
    (congrArg (List.filterMap Event.piece?) events)

theorem filterMap_deliver_complete {α : Type} (part? : Event → Option α) {text : String}
    (none : part? (.complete text) = none) (outbox : Outbox) :
    (outbox.deliver (.event (.complete text))).2.events.filterMap part? =
      outbox.events.filterMap part? := by
  rw [Outbox.events_deliver]
  split
  · rw [List.filterMap_append, List.filterMap_cons_none none]
    exact List.append_nil _
  · rfl

theorem deliver_complete (outbox : Outbox) (text : String) :
    (outbox.deliver (.event (.complete text))).2.payloads = outbox.payloads ∧
      (outbox.deliver (.event (.complete text))).2.pieces = outbox.pieces :=
  ⟨filterMap_deliver_complete Event.payload? rfl outbox,
    filterMap_deliver_complete Event.piece? rfl outbox⟩

theorem tellsWhole_deliver {text : String} (pieces : text = String.join outbox.pieces) :
    TellsWhole (outbox.deliver (.event (.complete text))).2 := by
  intro before other answer last
  obtain ⟨rfl, equal⟩ := List.append_inj' last rfl
  cases List.singleton_inj.1 equal
  exact pieces

theorem Standing.of_keeps (keeps : Keeps filter session outbox messages)
    (unfinished : Unfinished outbox.log) : Standing filter session outbox messages :=
  ⟨fun _ => keeps, fun _ => keeps.text, fun _ => keeps.payloads, fun _ => keeps.count, keeps.begins,
    unfinished.tellsWhole⟩

theorem Standing.of_failed (failed : session.phase = .failed)
    (begins : outbox.Begins filter messages) (whole : TellsWhole outbox) :
    Standing filter session outbox messages := by
  refine ⟨fun receiving => ?_, fun lives => absurd failed lives, fun lives => absurd failed lives,
    fun lives => absurd failed lives, begins, whole⟩
  rw [failed] at receiving
  cases receiving

theorem Keeps.feed (keeps : Keeps filter session outbox messages)
    (receiving : session.phase = .receiving) (unfinished : Unfinished outbox.log) (chunk : Bytes) :
    Standing filter (session.feed chunk outbox).session (session.feed chunk outbox).outbox
      (messages ++ (session.feed chunk outbox).steps.map Step.message) := by
  have added : Keeps filter (session.add chunk) outbox messages := keeps.of_same rfl rfl rfl
  have still := unfinished.drain (session.add chunk) false
  obtain ⟨kept, begins⟩ := added.drain false
  rw [feed_of_receiving receiving]
  dsimp only at kept begins ⊢
  split
  · exact .of_failed rfl begins still.tellsWhole
  · next taken =>
    split
    · exact .of_failed rfl (begins_signal begins _) (still.signal _).tellsWhole
    · exact .of_keeps (kept taken) still

theorem Keeps.finish (keeps : Keeps filter session outbox messages)
    (receiving : session.phase = .receiving) (unfinished : Unfinished outbox.log) :
    Standing filter (session.finish outbox).session (session.finish outbox).outbox
      (messages ++ (session.finish outbox).steps.map Step.message) := by
  rw [finish_of_receiving receiving]
  generalize draining : { session with phase := Phase.draining } = other
  have closing : Keeps filter other outbox messages :=
    keeps.of_same (by rw [← draining]) (by rw [← draining]) (by rw [← draining])
  have still := unfinished.drain other true
  obtain ⟨kept, begins⟩ := closing.drain true
  dsimp only at kept begins ⊢
  split
  · exact .of_failed rfl begins still.tellsWhole
  · next taken =>
    have keeps := kept taken
    have told := tellsWhole_deliver keeps.text
    obtain ⟨payloads, pieces⟩ := deliver_complete (other.drain true outbox).outbox
      (other.drain true outbox).session.transcript.text
    split
    · next answer =>
      rw [answer] at told pieces payloads
      exact .of_failed rfl (begins.of_same payloads pieces) told
    · next answer =>
      rw [answer] at told pieces payloads
      refine ⟨nofun, fun _ => ?_, fun _ => payloads.trans keeps.payloads, fun _ => ?_,
        begins.of_same payloads pieces, told⟩
      · rw [pieces]
        exact keeps.text
      · rw [payloads]
        exact keeps.count

theorem Standing.perform (standing : Standing filter session outbox messages)
    (signals : Signals session.phase outbox.log) (call : Call) :
    Standing filter (session.perform outbox call).session (session.perform outbox call).outbox
      (messages ++ (session.perform outbox call).steps.map Step.message) := by
  by_cases receiving : session.phase = .receiving
  · have keeps := standing.receiving receiving
    rw [receiving] at signals
    have unfinished : Unfinished outbox.log := .of_takesPart signals
    cases call with
    | feed chunk => exact keeps.feed receiving unfinished chunk
    | finish => exact keeps.finish receiving unfinished
    | abort fault =>
      rw [Session.perform, abort_of_receiving receiving, List.map_nil, List.append_nil]
      exact .of_failed rfl (begins_signal standing.begins fault)
        (unfinished.signal fault).tellsWhole
    | cancel =>
      rw [Session.perform, cancel, receiving, List.map_nil, List.append_nil]
      exact .of_failed rfl standing.begins standing.whole
  · have closed : session.phase.isClosed = true := by
      cases phase : session.phase with
      | receiving => exact absurd phase receiving
      | draining => exact absurd phase signals.between
      | completed => rfl
      | failed => rfl
    rw [perform_late closed, List.map_nil, List.append_nil]
    exact standing

end

/-! ## All calls -/

/-- The messages that some calls handle. -/
def stepsAll (session : Session) (outbox : Outbox) (calls : List Call) : List Step :=
  ((session.uncalled outbox).trace (fun _ => false) calls).flatMap Called.steps

theorem stepsAll_concat (session : Session) (outbox : Outbox) (calls : List Call) (call : Call) :
    session.stepsAll outbox (calls ++ [call]) =
      session.stepsAll outbox calls ++ (session.performAll outbox (calls ++ [call])).steps := by
  rw [stepsAll, Called.trace_append rfl, List.flatMap_append, performAll_concat]
  exact congrArg (_ ++ ·) (List.append_nil _)

theorem standing_of_calls {id : String} {settings : DemuxSettings} {session : Session}
    (started : start id settings = .ok session) (consumer : Consumer) (calls : List Call) :
    Standing settings.filter (session.performAll (.fresh consumer) calls).session
      (session.performAll (.fresh consumer) calls).outbox
      ((session.stepsAll (.fresh consumer) calls).map Step.message) := by
  induction calls using List.reverseRecOn with
  | nil =>
    have reflects := (Receives.of_start started).2.reflects
    refine .of_keeps ⟨.fresh .accepting, ⟨rfl, .nothing, rfl⟩, reflects⟩ ?_
    intro text answer handed
    cases handed
  | append_singleton calls call ih =>
    rw [stepsAll_concat, List.map_append, performAll_concat]
    exact ih.perform (signals_of_calls started consumer calls) call

end Session

end Unbraid
