import Unbraid.Proofs.Frame.Passes
import Unbraid.Proofs.Session.Delivery

/-!
# Runs

Several calls of a session are one run (`Called.run`), whoever makes them and whenever he stops: the
calls of a list can be split anywhere, and the second part is made on what the first has left unless
the caller has stopped by then (`Called.run_append`, and `Called.trace_append` for what each call
leaves behind); what every call keeps, a run keeps (`Called.run_induction`).

A session is fed the chunks of a stream and then told that the answer has ended, up to the first
fault. With a consumer that takes everything and no fault, each call handles the messages of one
pass over the stream, the consumer has been handed what these handlers deliver and then the whole
text, and the session ends with what all messages amount to (`receive_spec`).
-/

namespace Unbraid

namespace Called

variable {stops : Called → Bool} {before : Called}

theorem run_cons (call : Call) (rest : List Call) :
    before.run stops (call :: rest) =
      let called := before.session.perform before.outbox call
      if stops called then called else called.run stops rest := by
  rw [run, trace, List.getLastD_cons]
  dsimp only
  split <;> rfl

theorem trace_append (goesOn : stops before = false) (calls more : List Call) :
    before.trace stops (calls ++ more) =
      before.trace stops calls ++
        if stops (before.run stops calls) then []
        else (before.run stops calls).trace stops more := by
  induction calls generalizing before with
  | nil =>
    have still : ¬ stops (before.run stops []) = true := by simp [run, trace, goesOn]
    rw [if_neg still]
    rfl
  | cons call rest ih =>
    rw [List.cons_append, trace, trace, run_cons]
    dsimp only
    by_cases stopped : stops (before.session.perform before.outbox call) = true
    · rw [if_pos stopped, if_pos stopped, if_pos stopped, if_pos stopped]
      rfl
    · rw [if_neg stopped, if_neg stopped, if_neg stopped, ih (Bool.eq_false_iff.2 stopped)]
      rfl

theorem run_append (goesOn : stops before = false) (calls more : List Call) :
    before.run stops (calls ++ more) =
      if stops (before.run stops calls) then before.run stops calls
      else (before.run stops calls).run stops more := by
  rw [run, trace_append goesOn, List.getLastD_eq_getLast?, List.getLast?_append]
  split
  · rw [List.getLast?_nil, Option.none_or, run, List.getLastD_eq_getLast?]
  · rw [run, run, List.getLastD_eq_getLast?, List.getLastD_eq_getLast?, Option.getD_or]

theorem run_induction {motive : Called → Prop}
    (next : ∀ called call, motive called →
      motive (called.session.perform called.outbox call))
    (first : motive before) (calls : List Call) : motive (before.run stops calls) := by
  induction calls generalizing before with
  | nil => exact first
  | cons call rest ih =>
    rw [run_cons]
    dsimp only
    split
    · exact next before call first
    · exact ih (next before call first)

/-- What a run comes to depends on the session and the outbox that it starts from. -/
theorem trace_uncalled (stops : Called → Bool) (before : Called) (calls : List Call) :
    (before.session.uncalled before.outbox).trace stops calls = before.trace stops calls := by
  cases calls <;> rfl

theorem run_uncalled {calls : List Call} (some : calls ≠ []) :
    (before.session.uncalled before.outbox).run stops calls = before.run stops calls := by
  obtain ⟨call, rest, rfl⟩ := List.exists_cons_of_ne_nil some
  rw [run_cons, run_cons]
  rfl

end Called

/-- What a session reports after so many bytes with these messages. -/
def Message.statistics (filter : TokenFilter) (bytesIn : Nat) (messages : List Message) :
    Statistics where
  bytesIn
  toolEvents := (Notice.firsts (notices messages)).length
  duplicates := (notices messages).length - (Notice.firsts (notices messages)).length
  deltas := (pieces filter messages).length
  dropped := unreadable messages

namespace Session

def standard (id : String) : Session where
  id
  phase := .receiving
  buffer := []
  lexer := .fresh .standard
  ledger := .empty
  transcript := .empty DemuxSettings.standard.filter
  maxBufferBytes := DemuxSettings.standard.maxBufferBytes
  bytesIn := 0
  dropped := 0

theorem start_standard (id : String) : start id .standard = .ok (standard id) := rfl

/-- What each call leaves behind when chunks are fed and then the answer ends. -/
def receiveCalls (session : Session) (outbox : Outbox) (chunks : List Bytes) : List Called :=
  (session.uncalled outbox).trace Called.isFault (wholeStream chunks)

section

variable (session : Session) (outbox : Outbox)

theorem receive_nil : session.receive outbox [] = session.finish outbox := by
  rw [receive, wholeStream, List.map_nil, List.nil_append, Called.run_cons]
  dsimp only
  split <;> rfl

theorem receiveCalls_nil : session.receiveCalls outbox [] = [session.finish outbox] := by
  rw [receiveCalls, wholeStream, List.map_nil, List.nil_append, Called.trace]
  split <;> rfl

variable (chunk : Bytes) (chunks : List Bytes)

theorem receive_cons :
    session.receive outbox (chunk :: chunks) =
      let called := session.feed chunk outbox
      if called.isFault then called else called.session.receive called.outbox chunks := by
  have more : wholeStream chunks ≠ [] := List.append_ne_nil_of_right_ne_nil _ (List.cons_ne_nil _ _)
  have whole : wholeStream (chunk :: chunks) = .feed chunk :: wholeStream chunks := rfl
  rw [receive, whole, Called.run_cons]
  dsimp only
  rw [← Called.run_uncalled more]
  rfl

theorem receiveCalls_cons :
    session.receiveCalls outbox (chunk :: chunks) =
      let called := session.feed chunk outbox
      called ::
        if called.isFault then [] else called.session.receiveCalls called.outbox chunks := by
  have whole : wholeStream (chunk :: chunks) = .feed chunk :: wholeStream chunks := rfl
  rw [receiveCalls, whole, Called.trace, ← Called.trace_uncalled]
  rfl

end

/-! ## A chunk and the end -/

def limitFault (session : Session) : Fault := (SessionFault.overLimit session.maxBufferBytes).fault

/-- With this chunk, more bytes would be held after the pass than are allowed. -/
def Exceeds (session : Session) (chunk : Bytes) (outbox : Outbox) : Prop :=
  ((session.add chunk).drain false outbox).fault = none ∧
    session.maxBufferBytes < ((session.add chunk).drain false outbox).session.buffer.length

section

variable {session : Session} {outbox : Outbox} {chunk : Bytes}

theorem abort_of_receiving (receiving : session.phase = .receiving) (fault : Fault) :
    session.abort fault outbox =
      ⟨some fault, session.release .failed, (outbox.deliver (.failure fault)).2, []⟩ := by
  rw [abort, receiving]
  rfl

/-- A chunk is handled in one pass. The call fails with what the consumer has refused in it, or if
more is left than is allowed; otherwise nothing happens after the pass. -/
theorem feed_of_receiving (receiving : session.phase = .receiving) (chunk : Bytes) :
    session.feed chunk outbox =
      let drained := (session.add chunk).drain false outbox
      match drained.fault with
      | some refusal =>
        ⟨some refusal, drained.session.release .failed, drained.outbox, drained.steps⟩
      | none =>
        if session.maxBufferBytes < drained.session.buffer.length then
          ⟨some session.limitFault, drained.session.release .failed,
            (drained.outbox.deliver (.failure session.limitFault)).2, drained.steps⟩
        else drained := by
  have phase := (drain_phase (session.add chunk) outbox false).trans receiving
  have limit : _ = session.maxBufferBytes := drain_maxBufferBytes (session.add chunk) outbox false
  rw [feed, if_pos receiving]
  cases fault : ((session.add chunk).drain false outbox).fault with
  | some refusal => simp only [fault]
  | none => simp only [fault, limit, abort_of_receiving phase, limitFault]

theorem finish_of_receiving (receiving : session.phase = .receiving) (outbox : Outbox) :
    session.finish outbox =
      let called := { session with phase := .draining }.drain true outbox
      match called.fault with
      | some refusal =>
        ⟨some refusal, called.session.release .failed, called.outbox, called.steps⟩
      | none =>
        match called.outbox.deliver (.event (.complete called.session.transcript.text)) with
        | (some refusal, outbox) =>
          ⟨some refusal, called.session.release .failed, outbox, called.steps⟩
        | (none, outbox) => ⟨none, called.session.release .completed, outbox, called.steps⟩ :=
  if_pos receiving

theorem feed_of_taken (receiving : session.phase = .receiving)
    (taken : (session.feed chunk outbox).fault = none) :
    session.feed chunk outbox = (session.add chunk).drain false outbox ∧
      ((session.add chunk).drain false outbox).fault = none ∧
      ¬ session.Exceeds chunk outbox := by
  rw [feed_of_receiving receiving] at taken ⊢
  dsimp only at taken ⊢
  cases fault : ((session.add chunk).drain false outbox).fault with
  | some refusal => simp only [fault] at taken; cases taken
  | none =>
    simp only [fault] at taken ⊢
    split at taken
    · cases taken
    · next within => exact ⟨by rw [if_neg within], trivial, fun exceeds => within exceeds.2⟩

end

/-! ## One call -/

/-- A session that takes chunks: it has received some bytes, has consumed those up to an offset, and
has handled the messages before that. Every chunk that is taken keeps this. -/
structure Receives (tags : TagPair) (filter : TokenFilter) (received : Bytes) (done : Nat)
    (messages : List Message) (session : Session) (outbox : Outbox) : Prop where
  phase : session.phase = .receiving
  follows : Follows tags received done session
  reflects : Reflects filter session outbox messages

/-- A session whose answer has ended: the consumer has everything, and the session its counts. -/
structure Completed (filter : TokenFilter) (bytesIn : Nat) (messages : List Message)
    (called : Called) : Prop where
  fault : called.fault = none
  phase : called.session.phase = .completed
  payloads : called.outbox.payloads = (Notice.firsts (Message.notices messages)).map Notice.payload
  pieces : called.outbox.pieces = Message.pieces filter messages
  wholes : called.outbox.wholes = [String.join (Message.pieces filter messages)]
  statistics : called.session.statistics = Message.statistics filter bytesIn messages

section

variable {tags : TagPair} {filter : TokenFilter} {received : Bytes} {done : Nat}
  {messages : List Message} {session : Session} {outbox : Outbox} {chunk : Bytes}

theorem Receives.of_start {id : String} {settings : DemuxSettings}
    (started : start id settings = .ok session) :
    settings.tags = .ok session.lexer.tags ∧
      Receives session.lexer.tags settings.filter [] 0 [] session (.fresh .accepting) := by
  cases usable : settings.tags with
  | error cause =>
    rw [start, usable] at started
    cases started
  | ok tags =>
    rw [start, usable] at started
    obtain rfl := Except.ok.inj started
    refine ⟨rfl, rfl, ⟨?_, rfl, Nat.zero_le _, rfl⟩, ⟨rfl, ⟨fun key => Iff.rfl, rfl, rfl⟩,
      ⟨rfl, rfl⟩, ⟨rfl, rfl, rfl, rfl⟩, rfl⟩⟩
    rw [Lexer.consume_zero, Lexer.after_nil]
    rfl

theorem Reflects.of_sameAccount (reflects : Reflects filter session outbox messages)
    {other : Session} (same : SameAccount session other) :
    Reflects filter other outbox messages where
  listens := by rw [same.transcript, reflects.listens]
  ledger := same.ledger ▸ reflects.ledger
  transcript := same.transcript ▸ reflects.transcript
  outbox := reflects.outbox
  dropped := by rw [same.dropped, reflects.dropped]

/-- In a pass the messages on the agenda are handled, and then the buffer is consumed. -/
theorem exists_handlesAll (reflects : Reflects filter session outbox messages) (final : Bool) :
    ∃ called, HandlesAll filter session.lexed messages
        ((agenda final session.lexed.frames).map Frame.message) called ∧
      session.drain final outbox =
        { called with
          session := called.session.consume (session.lexed.consumed final session.lexed.frames) } :=
    by
  have same : SameAccount session session.lexed := ⟨rfl, rfl, rfl⟩
  have ended : ∀ frame ∈ agenda final session.lexed.frames, isSettled final frame = true :=
    fun _ present => isSettled_of_mem_agenda present
  have all := handleAll_spec (reflects.of_sameAccount same) ended
  refine ⟨_, all, ?_⟩
  rw [drain]
  simp only [all.fault]

/-- A pass while more may come: the messages that have ended are handled, and the buffer is consumed
up to where the window is done with. -/
theorem drain_growing (follows : Follows tags received done session.lexed)
    (reflects : Reflects filter session outbox messages) :
    (session.drain false outbox).fault = none ∧
      (session.drain false outbox).session.phase = session.phase ∧
      Follows tags received (Frame.settled tags received done)
        (session.drain false outbox).session ∧
      Reflects filter (session.drain false outbox).session (session.drain false outbox).outbox
        (messages ++ (Frame.ended tags received done).map Frame.message) ∧
      Concluded (Message.byKind ((Frame.ended tags received done).map Frame.message))
        (session.drain false outbox).steps := by
  obtain ⟨called, all, drained⟩ := exists_handlesAll reflects false
  rw [follows.agenda] at all
  have kept := follows.of_sameInput all.sameInput
  rw [drained]
  refine ⟨all.fault, all.sameInput.phase, ⟨?_, ?_, ?_, kept.bytesIn⟩,
    all.reflects.of_byKind.of_sameAccount ⟨rfl, rfl, rfl⟩, all.concluded⟩
  · rw [← follows.consumed, ← Lexer.consume_consume, ← kept.lexer]
    rfl
  · rw [← follows.consumed, ← List.drop_drop, ← kept.buffer]
    rfl
  · exact Frame.settled_le_position ..

theorem drain_final (follows : Follows tags received done session.lexed)
    (reflects : Reflects filter session outbox messages) :
    (session.drain true outbox).fault = none ∧
      (session.drain true outbox).session.bytesIn = received.length ∧
      Reflects filter (session.drain true outbox).session (session.drain true outbox).outbox
        (messages ++ (Frame.window tags received done).map Frame.message) ∧
      Concluded (Message.byKind ((Frame.window tags received done).map Frame.message))
        (session.drain true outbox).steps := by
  obtain ⟨called, all, drained⟩ := exists_handlesAll reflects true
  rw [agenda_all, follows.frames, List.map_map, message_back] at all
  rw [drained]
  exact ⟨all.fault, all.sameInput.bytesIn.trans follows.bytesIn,
    all.reflects.of_byKind.of_sameAccount ⟨rfl, rfl, rfl⟩, all.concluded⟩

theorem Follows.add (follows : Follows tags received done session) (chunk : Bytes)
    (other : Session) (lexer : other.lexer = session.lexer)
    (buffer : other.buffer = session.buffer ++ chunk)
    (bytesIn : other.bytesIn = session.bytesIn + chunk.length) :
    Follows tags (received ++ chunk) done other.lexed := by
  have whole : session.buffer ++ chunk = (received ++ chunk).drop done := by
    have inside := Nat.le_trans follows.inside (Lexer.position_le_length received)
    rw [follows.buffer, List.drop_append_of_le_length inside]
  refine ⟨?_, ?_, ?_, ?_⟩
  · show other.lexer.advance other.buffer = _
    rw [lexer, buffer, whole, follows.lexer, Lexer.advance_consume follows.inside,
      Lexer.after_advance]
  · exact buffer.trans whole
  · exact Nat.le_trans follows.inside (Lexer.position_mono received chunk)
  · rw [List.length_append, ← follows.bytesIn]
    exact bytesIn

theorem Receives.feed
    (receives : Receives tags filter received done messages session outbox)
    (taken : (session.feed chunk outbox).fault = none) :
    Receives tags filter (received ++ chunk) (Frame.settled tags (received ++ chunk) done)
        (messages ++ (Frame.ended tags (received ++ chunk) done).map Frame.message)
        (session.feed chunk outbox).session (session.feed chunk outbox).outbox ∧
      Concluded (Message.byKind ((Frame.ended tags (received ++ chunk) done).map Frame.message))
        (session.feed chunk outbox).steps ∧
      Linked session outbox (session.feed chunk outbox).steps (session.feed chunk outbox).session
        (session.feed chunk outbox).outbox := by
  obtain ⟨phase, follows, reflects⟩ := receives
  have follows := follows.add chunk (session.add chunk) rfl rfl rfl
  have same : SameAccount session (session.add chunk) := ⟨rfl, rfl, rfl⟩
  obtain ⟨-, kept, further, reflects, concluded⟩ :=
    drain_growing follows (reflects.of_sameAccount same)
  have linked := (drain_linked (session.add chunk) outbox false).of_same same
  rw [(feed_of_taken phase taken).1]
  exact ⟨⟨kept.trans phase, further, reflects⟩, concluded, linked⟩

/-- A session that has handled some messages ends with what these amount to. -/
theorem Reflects.completed (reflects : Reflects filter session outbox messages)
    (bytesIn : session.bytesIn = received.length) (steps : List Step) :
    Completed filter received.length messages
      ⟨none, session.release .completed, outbox.taking (.complete session.transcript.text),
        steps⟩ := by
  refine ⟨rfl, rfl, ?_, ?_, ?_, ?_⟩
  · rw [Outbox.payloads_taking, reflects.outbox.payloads]
    exact List.append_nil _
  · rw [Outbox.pieces_taking, reflects.outbox.pieces]
    exact List.append_nil _
  · rw [Outbox.wholes_taking, reflects.outbox.wholes, reflects.transcript.text]
    rfl
  · have duplicates := reflects.ledger.duplicates
    show Statistics.mk _ _ _ _ _ = Statistics.mk _ _ _ _ _
    rw [Statistics.mk.injEq]
    refine ⟨bytesIn, reflects.ledger.emitted, ?_, reflects.transcript.deltas, reflects.dropped⟩
    show session.ledger.duplicates = _
    omega

theorem Receives.finish
    (receives : Receives tags filter received done messages session outbox) :
    Completed filter received.length
        (messages ++ (Frame.window tags received done).map Frame.message)
        (session.finish outbox) ∧
      Concluded (Message.byKind ((Frame.window tags received done).map Frame.message))
        (session.finish outbox).steps ∧
      ∃ last handed, Linked session outbox (session.finish outbox).steps last handed ∧
        (session.finish outbox).outbox = handed.taking (.complete last.transcript.text) := by
  obtain ⟨phase, follows, reflects⟩ := receives
  have finished := finish_of_receiving phase outbox
  have same : SameAccount session { session with phase := .draining } := ⟨rfl, rfl, rfl⟩
  have linked := (drain_linked { session with phase := .draining } outbox true).of_same same
  have follows := follows.add [] { session with phase := .draining } rfl
    (List.append_nil _).symm rfl
  rw [List.append_nil] at follows
  obtain ⟨fault, bytesIn, reflects, concluded⟩ :=
    drain_final follows (reflects.of_sameAccount same)
  simp only [fault, Outbox.deliver_accepting reflects.outbox.accepting] at finished
  rw [finished]
  exact ⟨reflects.completed bytesIn _, concluded, _, _, linked, rfl⟩

/-! ## All calls -/

/-- A run over the chunks of a stream, with a consumer that takes everything: each call handles its
share of the messages, and the consumer has been handed what the handlers deliver, message by
message, and then the whole text. -/
structure Shares (session : Session) (outbox : Outbox) (shares : List (List Message))
    (calls : List Called) (after : Outbox) : Prop where
  each : List.Forall₂ (fun share called => Concluded (Message.byKind share) called.steps) shares
    calls
  linked : ∃ last handed, Linked session outbox (calls.flatMap Called.steps) last handed ∧
    after = handed.taking (.complete last.transcript.text)

/-- What a run amounts to: pass by pass its calls handle the messages of the stream, and at the end
the consumer has what all of them amount to. -/
theorem Receives.run {chunks : List Bytes}
    (receives : Receives tags filter received done messages session outbox)
    (taken : (session.receive outbox chunks).fault = none) :
    Completed filter (received ++ chunks.flatten).length
        (messages ++ (Frame.passes tags received done chunks).flatten.map Frame.message)
        (session.receive outbox chunks) ∧
      Shares session outbox ((Frame.passes tags received done chunks).map (List.map Frame.message))
        (session.receiveCalls outbox chunks) (session.receive outbox chunks).outbox := by
  induction chunks generalizing received done messages session outbox with
  | nil =>
    obtain ⟨completed, concluded, ends⟩ := receives.finish
    rw [List.flatten_nil, List.append_nil, receive_nil, receiveCalls_nil]
    refine ⟨?_, .cons concluded .nil, ?_⟩
    · simpa [Frame.passes] using completed
    · rw [List.flatMap_singleton]
      exact ends
  | cons chunk rest ih =>
    rw [receive_cons] at taken
    rw [receive_cons, receiveCalls_cons]
    dsimp only at taken ⊢
    cases fault : (session.feed chunk outbox).fault with
    | some cause =>
      rw [Called.isFault, fault, Option.isSome_some, if_pos rfl, fault] at taken
      cases taken
    | none =>
      have goesOn : ¬ (session.feed chunk outbox).isFault = true := by simp [Called.isFault, fault]
      rw [if_neg goesOn] at taken
      rw [if_neg goesOn, if_neg goesOn]
      obtain ⟨next, concluded, linked⟩ := receives.feed fault
      obtain ⟨completed, each, last, handed, further, whole⟩ := ih next taken
      rw [Frame.passes, List.flatten_cons, List.flatten_cons, List.map_append,
        ← List.append_assoc, ← List.append_assoc]
      refine ⟨completed, .cons concluded each, last, handed, ?_, whole⟩
      rw [List.flatMap_cons]
      exact linked.append further

end

/-- A run of a fresh session, with a consumer that takes everything. -/
theorem receive_spec {id : String} {settings : DemuxSettings} {session : Session}
    {chunks : List Bytes} (started : start id settings = .ok session)
    (taken : (session.receive (.fresh .accepting) chunks).fault = none) :
    Completed settings.filter chunks.flatten.length
        ((Frame.passes session.lexer.tags [] 0 chunks).flatten.map Frame.message)
        (session.receive (.fresh .accepting) chunks) ∧
      Shares session (.fresh .accepting)
        ((Frame.passes session.lexer.tags [] 0 chunks).map (List.map Frame.message))
        (session.receiveCalls (.fresh .accepting) chunks)
        (session.receive (.fresh .accepting) chunks).outbox :=
  (Receives.of_start started).2.run taken

end Session

end Unbraid
