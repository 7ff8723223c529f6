import Mathlib.Data.List.Induction
import Unbraid.Proofs.Session.Held
import Unbraid.Proofs.Session.Steps

/-!
# The limit

Between two chunks a session holds no more bytes than its settings allow
(`Session.withinLimit_of_feeds`). A chunk fails exactly if more would be left after its pass.

Then a single message is to blame that has grown too long (`Overruns`): before the first tag, and
behind every message that has ended, less than a tag is held (`Frame.Held.exists_isOpen`), and the
settings leave room for that. So a stream without a tag never fails (`receiving_of_noTag`), and
neither does one whose messages are short enough, however long it is itself.
-/

namespace Unbraid

theorem DemuxSettings.length_le_of_check {settings : DemuxSettings} {tags : TagPair}
    (usable : settings.check = .ok ()) (known : settings.tags = .ok tags) :
    tags.length ≤ settings.maxBufferBytes := by
  unfold check at usable
  rw [known] at usable
  dsimp only at usable
  split at usable
  · cases usable
  · split at usable
    · cases usable
    · split at usable
      · cases usable
      · next enough => exact Nat.le_of_not_lt enough

/-- If as much as a tag is left, then it is a message that may still grow. -/
theorem Frame.Held.exists_isOpen {tags : TagPair} {received : Bytes} {done : Nat}
    (held : Held tags received done) (long : tags.length ≤ (received.drop done).length) :
    ∃ hit, IsOpen tags received hit ∧ hit.offset = done := by
  cases held with
  | noTag absent =>
    have read : received.length ≤ (Lexer.after tags received).position + (tags.length - 1) :=
      Lexer.length_le_position_add received
    have := tags.length_pos
    rw [List.length_drop] at long
    omega
  | message growing => exact ⟨_, growing, rfl⟩

namespace Session

section

variable {tags : TagPair} {received : Bytes} {done : Nat} {session : Session} {outbox : Outbox}
  {chunk : Bytes}

theorem feed_of_accepting (receiving : session.phase = .receiving)
    (accepting : outbox.consumer = .accepting) (chunk : Bytes) :
    let drained := (session.add chunk).drain false outbox
    drained.fault = none ∧
      session.feed chunk outbox =
        if session.maxBufferBytes < drained.session.buffer.length then
          ⟨some session.limitFault, drained.session.release .failed,
            (drained.outbox.deliver (.failure session.limitFault)).2, drained.steps⟩
        else drained := by
  obtain ⟨-, -, -, refuses⟩ := drain_delivers (session.add chunk) outbox false
  have taken : ((session.add chunk).drain false outbox).fault = none := by
    cases fault : ((session.add chunk).drain false outbox).fault with
    | none => rfl
    | some refusal => exact absurd (refuses refusal fault) (not_refuses accepting refusal)
  refine ⟨taken, ?_⟩
  rw [feed_of_receiving receiving]
  dsimp only
  rw [taken]

theorem taken_of_receiving (receiving : (session.feed chunk outbox).session.phase = .receiving) :
    session.phase = .receiving ∧ (session.feed chunk outbox).fault = none := by
  by_cases before : session.phase = .receiving
  · obtain ⟨attempts, -, effect⟩ := @feed_effect session outbox before chunk
    refine ⟨before, ?_⟩
    generalize session.feed chunk outbox = called at receiving effect ⊢
    obtain ⟨fault, next, after⟩ := called
    cases effect with
    | idle closed => rw [before] at closed; cases closed
    | fed => rfl
    | refused | overLimit => cases receiving
  · rw [feed, if_neg before] at receiving
    exact absurd receiving before

theorem feed_maxBufferBytes (session : Session) (chunk : Bytes) (outbox : Outbox) :
    (session.feed chunk outbox).session.maxBufferBytes = session.maxBufferBytes := by
  have limit : _ = session.maxBufferBytes := drain_maxBufferBytes (session.add chunk) outbox false
  by_cases receiving : session.phase = .receiving
  · rw [feed_of_receiving receiving]
    dsimp only
    split
    · exact limit
    · split
      · exact limit
      · exact limit
  · rw [feed, if_neg receiving]

/-- The messages that a pass handles are those that have ended in the buffer. -/
theorem drain_steps_of_taken (follows : Follows tags received done session.lexed)
    (taken : (session.drain false outbox).fault = none) :
    (session.drain false outbox).steps.map Step.message =
      Message.byKind ((session.lexed.frames.filter (·.complete)).map Frame.message) := by
  have all : (handleAll false outbox session.lexed (agenda false session.lexed.frames)).fault =
      none := by
    rw [drain] at taken
    split at taken
    · exact taken
    · next none => exact none
  have ended : (session.lexed.frames.filter (·.complete)).map Frame.message =
      (Frame.ended tags received done).map Frame.message := by
    rw [follows.frames, List.filter_map, List.map_map, message_back]
    rfl
  have settled : ∀ frame ∈ agenda false session.lexed.frames, isSettled false frame = true :=
    fun _ present => isSettled_of_mem_agenda present
  rw [drain_steps, (handleAll_concluded settled all).once, follows.agenda, ended]

end

/-! ## A chunk that is too much -/

/-- What becomes of a chunk with which more would be held than is allowed. -/
structure Overruns (tags : TagPair) (filter : TokenFilter) (received : Bytes)
    (messages : List Message) (drained next : Called) : Prop where
  suffix : drained.session.buffer <:+ received
  /-- What the pass has left is one message that may still grow. -/
  message : ∃ frame, drained.session.frames = [frame] ∧ frame.complete = false ∧
    frame.wire tags = drained.session.buffer
  /-- The consumer has taken what the messages that have ended amount to, and nothing else. -/
  payloads : drained.outbox.payloads =
    (Notice.firsts (Message.notices messages)).map Notice.payload
  pieces : drained.outbox.pieces = Message.pieces filter messages
  parts : ∀ attempt ∈ drained.outbox.log, attempt.TakesPart
  /-- Then it is told once why the call has failed. -/
  failure : ∃ fault, fault.kind = .stream ∧ next.fault = some fault ∧
    next.outbox.log = drained.outbox.log ++ [⟨.failure fault, none⟩]
  phase : next.session.phase = .failed
  buffer : next.session.buffer = []

section

variable {tags : TagPair} {filter : TokenFilter} {received : Bytes} {done : Nat}
  {messages : List Message} {session : Session} {outbox : Outbox} {chunk : Bytes}

theorem Follows.message_of_isOpen {hit : Hit} (follows : Follows tags received hit.offset session)
    (growing : Frame.IsOpen tags received hit) :
    ∃ frame, session.frames = [frame] ∧ frame.complete = false ∧
      frame.wire tags = session.buffer := by
  refine ⟨_, follows.frames_of_isOpen growing, growing.2, ?_⟩
  have whole := Frame.drop_eq_wire_append growing.1
  rw [Frame.messageAt_open growing.1 growing.2, List.drop_length, List.append_nil] at whole
  rw [follows.buffer, whole]
  rfl

theorem Holds.overruns (holds : Holds tags received done session)
    (keeps : Keeps filter session outbox messages) (accepting : outbox.consumer = .accepting)
    (parts : ∀ attempt ∈ outbox.log, attempt.TakesPart)
    (enough : tags.length ≤ session.maxBufferBytes)
    (beyond : session.maxBufferBytes <
      ((session.add chunk).drain false outbox).session.buffer.length) :
    Overruns tags filter (received ++ chunk)
      (messages ++ ((session.add chunk).lexed.frames.filter (·.complete)).map Frame.message)
      ((session.add chunk).drain false outbox) (session.feed chunk outbox) := by
  obtain ⟨taken, fed⟩ := feed_of_accepting holds.phase accepting chunk
  rw [if_pos beyond] at fed
  have lexed := holds.follows.add chunk (session.add chunk) rfl rfl rfl
  have added : Keeps filter (session.add chunk) outbox messages := keeps.of_same rfl rfl rfl
  have kept := (added.drain false).1 taken
  rw [drain_steps_of_taken lexed taken] at kept
  have follows := drain_follows lexed taken
  obtain ⟨attempts, course, log, -⟩ := drain_delivers (session.add chunk) outbox false
  rw [taken] at course
  -- The limit is at least a tag's length, and before the first tag less than that is left.
  have long := Nat.le_of_lt (Nat.lt_of_le_of_lt enough beyond)
  rw [follows.buffer] at long
  obtain ⟨hit, growing, offset⟩ := (holds.held.next chunk).exists_isOpen long
  rw [← offset] at follows
  have accepts := log.consumer.trans accepting
  rw [fed]
  refine ⟨?_, follows.message_of_isOpen growing, ?_, ?_, ?_, ⟨_, rfl, rfl, ?_⟩, rfl, rfl⟩
  · rw [follows.buffer]
    exact List.drop_suffix ..
  · rw [kept.payloads, Message.notices_append, Message.notices_byKind, Message.notices_append]
  · rw [kept.pieces, Message.pieces_append, Message.pieces_byKind, Message.pieces_append]
  · rw [log.log]
    exact takesPart_append parts course.takesPart
  · rw [(Outbox.Extends.deliver _ _).log, Outbox.deliver, accepts]
    rfl

theorem Overruns.exists_tag {drained next : Called}
    (overruns : Overruns tags filter received messages drained next) :
    ∃ kind, tags.bytes kind <:+: received := by
  obtain ⟨frame, -, -, wire⟩ := overruns.message
  refine ⟨frame.kind, List.IsInfix.trans ?_ overruns.suffix.isInfix⟩
  rw [← wire]
  exact (List.prefix_append _ _).isInfix

end

/-! ## All chunks -/

section

variable {id : String} {settings : DemuxSettings} {session : Session}
  (started : start id settings = .ok session)

include started

theorem maxBufferBytes_of_start : session.maxBufferBytes = settings.maxBufferBytes := by
  unfold start at started
  cases usable : settings.tags with
  | error cause => rw [usable] at started; cases started
  | ok tags =>
    rw [usable] at started
    obtain rfl := Except.ok.inj started
    rfl

theorem holds_of_feeds (chunks : List Bytes) :
    let held := session.performAll (.fresh .accepting) (chunks.map .feed)
    held.session.maxBufferBytes = settings.maxBufferBytes ∧
      (held.session.phase = .receiving →
        ∃ done, Holds session.lexer.tags chunks.flatten done held.session) := by
  induction chunks using List.reverseRecOn with
  | nil => exact ⟨maxBufferBytes_of_start started, fun _ => ⟨0, .of_start started⟩⟩
  | append_singleton chunks chunk ih =>
    obtain ⟨limit, holds⟩ := ih
    rw [List.map_append, List.map_singleton, performAll_concat, perform, List.flatten_append,
      List.flatten_singleton]
    refine ⟨(feed_maxBufferBytes ..).trans limit, fun receiving => ?_⟩
    obtain ⟨before, taken⟩ := taken_of_receiving receiving
    obtain ⟨done, holds⟩ := holds before
    exact ⟨_, holds.feed taken⟩

variable (usable : settings.check = .ok ())

include usable

/-- A chunk fails exactly if more would be held than is allowed. -/
theorem overruns_of_feeds (chunks : List Bytes) (chunk : Bytes) :
    let held := session.performAll (.fresh .accepting) (chunks.map .feed)
    let drained := (held.session.add chunk).drain false held.outbox
    let next := held.session.feed chunk held.outbox
    held.session.phase = .receiving →
      (next.fault ≠ none ↔ settings.maxBufferBytes < drained.session.buffer.length) ∧
      (next.fault ≠ none →
        Overruns session.lexer.tags settings.filter (chunks.flatten ++ chunk)
          ((session.stepsAll (.fresh .accepting) (chunks.map .feed)).map Step.message ++
            ((held.session.add chunk).lexed.frames.filter (·.complete)).map Frame.message)
          drained next) := by
  have standing := standing_of_calls started .accepting (chunks.map .feed)
  have signals := signals_of_calls started .accepting (chunks.map .feed)
  have accepting := performAll_consumer session (.fresh .accepting) (chunks.map .feed)
  obtain ⟨limit, holds⟩ := holds_of_feeds started chunks
  have enough := DemuxSettings.length_le_of_check usable (Receives.of_start started).1
  intro held drained next receiving
  obtain ⟨done, holds⟩ := holds receiving
  obtain ⟨taken, fed⟩ := feed_of_accepting receiving accepting chunk
  rw [← limit] at enough ⊢
  have exactly : next.fault ≠ none ↔
      held.session.maxBufferBytes < drained.session.buffer.length := by
    show (held.session.feed chunk held.outbox).fault ≠ none ↔ _
    rw [fed]
    split
    · next beyond => exact ⟨fun _ => beyond, fun _ => nofun⟩
    · next within => exact ⟨fun fails => absurd taken fails, fun beyond => absurd beyond within⟩
  refine ⟨exactly, fun fails => ?_⟩
  rw [receiving] at signals
  exact holds.overruns (standing.receiving receiving) accepting signals enough (exactly.1 fails)

theorem taken_of_noTag (chunks : List Bytes) (chunk : Bytes)
    (absent : ∀ kind, ¬ session.lexer.tags.bytes kind <:+: chunks.flatten ++ chunk) :
    let held := session.performAll (.fresh .accepting) (chunks.map .feed)
    held.session.phase = .receiving → (held.session.feed chunk held.outbox).fault = none := by
  intro held receiving
  by_contra fails
  obtain ⟨-, overruns⟩ := overruns_of_feeds started usable chunks chunk receiving
  obtain ⟨kind, found⟩ := (overruns fails).exists_tag
  exact absent kind found

theorem receiving_of_noTag (chunks : List Bytes)
    (absent : ∀ kind, ¬ session.lexer.tags.bytes kind <:+: chunks.flatten) :
    (session.performAll (.fresh .accepting) (chunks.map .feed)).session.phase = .receiving := by
  induction chunks using List.reverseRecOn with
  | nil => exact (Receives.of_start started).2.phase
  | append_singleton chunks chunk ih =>
    rw [List.flatten_append, List.flatten_singleton] at absent
    have receiving := ih fun kind found => absent kind (found.trans (List.infix_append' [] _ _))
    have taken := taken_of_noTag started usable chunks chunk absent receiving
    rw [List.map_append, List.map_singleton, performAll_concat, perform,
      (feed_of_taken receiving taken).1]
    exact (drain_phase ..).trans receiving

/-- After a chunk that is taken no more is held than is allowed. A chunk fails exactly if more would
be left of it, and then a single message is to blame that has grown too long: the consumer has been
handed what the messages before it amount to, and is told once of the failure. A stream without a
tag never fails, however long it is: less than a tag of it is held, and the settings leave room for
that. -/
theorem withinLimit_of_feeds (chunks : List Bytes) (chunk : Bytes) :
    let held := session.performAll (.fresh .accepting) (chunks.map .feed)
    let drained := (held.session.add chunk).drain false held.outbox
    let next := held.session.feed chunk held.outbox
    let handled := (session.stepsAll (.fresh .accepting) (chunks.map .feed)).map Step.message
    let ended := ((held.session.add chunk).lexed.frames.filter (·.complete)).map Frame.message
    (next.fault = none → next.session.buffer.length ≤ settings.maxBufferBytes) ∧
      (held.session.phase = .receiving →
        (next.fault ≠ none ↔ settings.maxBufferBytes < drained.session.buffer.length) ∧
        (next.fault ≠ none →
          Overruns session.lexer.tags settings.filter (chunks.flatten ++ chunk)
            (handled ++ ended) drained next)) ∧
      ((∀ kind, ¬ session.lexer.tags.bytes kind <:+: chunks.flatten ++ chunk) →
        held.session.phase = .receiving ∧ next.fault = none) := by
  intro held drained next handled ended
  refine ⟨fun taken => ?_, overruns_of_feeds started usable chunks chunk, fun absent => ?_⟩
  · obtain ⟨limit, holds⟩ := holds_of_feeds started chunks
    have receiving : held.session.phase = .receiving := by
      by_contra closed
      have taken : (held.session.feed chunk held.outbox).fault = none := taken
      rw [feed, if_neg closed] at taken
      cases taken
    obtain ⟨done, holds⟩ := holds receiving
    rw [← limit, ← feed_maxBufferBytes held.session chunk held.outbox]
    exact (holds.feed taken).within
  · have before : ∀ kind, ¬ session.lexer.tags.bytes kind <:+: chunks.flatten :=
      fun kind found => absent kind (found.trans (List.infix_append' [] _ _))
    have receiving := receiving_of_noTag started usable chunks before
    exact ⟨receiving, taken_of_noTag started usable chunks chunk absent receiving⟩

end

def narrow : DemuxSettings := { DemuxSettings.standard with maxBufferBytes := 48 }

/-- The notice ends with the second chunk, and the message after it grows too long. -/
theorem withinLimit_of_a_long_message :
    let session : Session := { standard "s" with maxBufferBytes := 48 }
    let chunks :=
      [Bytes.ofText "1Tool :\x7b\"tool_name\":\"a\",\"additional_kwargs\":1\x7dTo"]
    let chunk := Bytes.ofText "ly :" ++ List.replicate 45 0x20
    let held := session.performAll (.fresh .accepting) (chunks.map .feed)
    let drained := (held.session.add chunk).drain false held.outbox
    let next := held.session.feed chunk held.outbox
    held.session.phase = .receiving ∧ held.outbox.log.length = 0 ∧
      drained.outbox.payloads.length = 1 ∧ drained.session.buffer.length = 51 ∧
      Overruns session.lexer.tags narrow.filter (chunks.flatten ++ chunk)
        ((session.stepsAll (.fresh .accepting) (chunks.map .feed)).map Step.message ++
          ((held.session.add chunk).lexed.frames.filter (·.complete)).map Frame.message)
        drained next := by
  intro session chunks chunk held drained next
  have receiving : held.session.phase = .receiving := by decide +kernel
  have none : held.outbox.log.length = 0 := by decide +kernel
  have one : drained.outbox.payloads.length = 1 := by decide +kernel
  have long : drained.session.buffer.length = 51 := by decide +kernel
  have started : start "s" narrow = .ok session := rfl
  have usable : narrow.check = .ok () := by decide +kernel
  -- From here on the run is not looked into.
  clear_value session
  have beyond : narrow.maxBufferBytes < drained.session.buffer.length := by
    rw [long]
    decide
  have fails := (withinLimit_of_feeds started usable chunks chunk).2.1 receiving
  exact ⟨receiving, none, one, long, fails.2 (fails.1.2 beyond)⟩

end Session

end Unbraid
