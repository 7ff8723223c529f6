import Unbraid.Proofs.Session.Account
import Unbraid.Session

namespace Unbraid

/-- Which events carry the text of the answer, by the settings. -/
def DemuxSettings.filter (settings : DemuxSettings) : TokenFilter :=
  ⟨settings.generationNode, settings.streamEvent⟩

namespace Message

variable {body : Bytes}

theorem notice?_tool :
    notice? ⟨.tool, body⟩ = (Json.value? body.trimAscii).bind Notice.ofValue? := rfl

theorem piece?_model (filter : TokenFilter) :
    piece? filter ⟨.model, body⟩ = (Json.value? body).bind filter.text? := rfl

end Message

/-- The consumer takes everything, and was handed the first notice of each call and the pieces. -/
structure Outbox.Reflects (outbox : Outbox) (notices : List Notice) (pieces : List String) :
    Prop where
  accepting : outbox.consumer = .accepting
  payloads : outbox.payloads = (Notice.firsts notices).map Notice.payload
  pieces : outbox.pieces = pieces
  wholes : outbox.wholes = []

/-! ## Tool messages -/

namespace Ledger

/-- What a ledger holds after some notices. -/
structure Reflects (ledger : Ledger) (notices : List Notice) : Prop where
  keys : ∀ key, key ∈ ledger.keys ↔ key ∈ (Notice.firsts notices).map Notice.callKey
  emitted : ledger.emitted = (Notice.firsts notices).length
  duplicates : ledger.duplicates + (Notice.firsts notices).length = notices.length

variable {ledger : Ledger} {outbox : Outbox} {body : Bytes} {notices : List Notice}
  {pieces : List String} {notice : Notice}

theorem handle_of_none (none : Message.notice? ⟨.tool, body⟩ = none) :
    ledger.handle body true outbox = ⟨.ok .dropped, ledger, outbox⟩ := by
  rw [Message.notice?_tool, Json.value?] at none
  rw [handle]
  cases read : Json.decode body.trimAscii with
  | incomplete => rfl
  | malformed => rfl
  | complete payload =>
    rw [read] at none
    simp only [Option.bind_some] at none
    simp only [none]

theorem handle_of_some (found : Message.notice? ⟨.tool, body⟩ = some notice) (final : Bool) :
    ledger.handle body final outbox = ledger.enter notice outbox := by
  rw [Message.notice?_tool, Json.value?] at found
  rw [handle]
  cases read : Json.decode body.trimAscii with
  | incomplete => rw [read] at found; cases found
  | malformed => rw [read] at found; cases found
  | complete payload =>
    rw [read] at found
    simp only [Option.bind_some] at found
    simp only [found]

theorem enter_reflects (reflects : ledger.Reflects notices)
    (holds : outbox.Reflects notices pieces) (notice : Notice) :
    (ledger.enter notice outbox).result = .ok .emitted ∧
      (ledger.enter notice outbox).state.Reflects (notices ++ [notice]) ∧
      (ledger.enter notice outbox).outbox.Reflects (notices ++ [notice]) pieces := by
  have key : Notice.key notice.tool notice.arguments = notice.callKey := rfl
  -- The keys are those of the first notices, so both lists agree on what is new.
  by_cases known : notice.callKey ∈ ledger.keys
  · have again : Notice.firsts (notices ++ [notice]) = Notice.firsts notices := by
      rw [Notice.firsts_append, if_pos ((reflects.keys _).1 known)]
    have count := reflects.duplicates
    have entered : ledger.enter notice outbox =
        ⟨.ok .emitted, { ledger with duplicates := ledger.duplicates + 1 }, outbox⟩ := by
      simp only [enter, key, if_pos known]
    rw [entered]
    refine ⟨rfl, ⟨?_, ?_, ?_⟩, ⟨holds.accepting, ?_, holds.pieces, holds.wholes⟩⟩
    · rw [again]
      exact reflects.keys
    · rw [again]
      exact reflects.emitted
    · rw [again, List.length_append, List.length_singleton]
      show ledger.duplicates + 1 + _ = _
      omega
    · rw [again]
      exact holds.payloads
  · have new : Notice.firsts (notices ++ [notice]) = Notice.firsts notices ++ [notice] := by
      rw [Notice.firsts_append, if_neg fun found => known ((reflects.keys _).2 found)]
    have count := reflects.duplicates
    have entered : ledger.enter notice outbox =
        ⟨.ok .emitted,
          { ledger with keys := notice.callKey :: ledger.keys, emitted := ledger.emitted + 1 },
          outbox.taking (.tool notice.payload)⟩ := by
      simp only [enter, key, if_neg known, Outbox.deliver_accepting holds.accepting]
    rw [entered]
    refine ⟨rfl, ⟨fun key => ?_, ?_, ?_⟩, ⟨holds.accepting, ?_, ?_, ?_⟩⟩
    · rw [new, List.map_append, List.mem_append, List.map_singleton, List.mem_singleton,
        List.mem_cons, reflects.keys, or_comm]
    · rw [new, List.length_append, List.length_singleton]
      exact congrArg (· + 1) reflects.emitted
    · rw [new, List.length_append, List.length_append, List.length_singleton]
      show ledger.duplicates + _ = _
      omega
    · rw [new, List.map_append, ← holds.payloads]
      exact Outbox.payloads_taking outbox (.tool notice.payload)
    · rw [Outbox.pieces_taking, holds.pieces]
      exact List.append_nil _
    · rw [Outbox.wholes_taking, holds.wholes]
      rfl

end Ledger

/-! ## Model messages -/

namespace Transcript

/-- What a transcript holds after some pieces. -/
structure Reflects (transcript : Transcript) (pieces : List String) : Prop where
  text : transcript.text = String.join pieces
  deltas : transcript.deltas = pieces.length

variable {transcript : Transcript} {outbox : Outbox} {body : Bytes} {notices : List Notice}
  {pieces : List String}

theorem handle_of_none (none : Json.value? body = none) :
    transcript.handle body true outbox = ⟨.ok .dropped, transcript, outbox⟩ := by
  rw [Json.value?] at none
  rw [handle]
  cases read : Json.decode body with
  | incomplete => rfl
  | malformed => rfl
  | complete event => rw [read] at none; cases none

theorem handle_of_some {event : Json.Value} (found : Json.value? body = some event)
    (final : Bool) :
    transcript.handle body final outbox =
      match transcript.filter.text? event with
      | none => ⟨.ok .emitted, transcript, outbox⟩
      | some piece => transcript.add piece outbox := by
  rw [Json.value?] at found
  rw [handle]
  cases read : Json.decode body with
  | incomplete => rw [read] at found; cases found
  | malformed => rw [read] at found; cases found
  | complete value =>
    rw [read] at found
    obtain rfl : value = event := Option.some.inj found
    rfl

theorem add_reflects (reflects : transcript.Reflects pieces)
    (holds : outbox.Reflects notices pieces) (piece : String) :
    (transcript.add piece outbox).result = .ok .emitted ∧
      (transcript.add piece outbox).state.Reflects (pieces ++ [piece]) ∧
      (transcript.add piece outbox).state.filter = transcript.filter ∧
      (transcript.add piece outbox).outbox.Reflects notices (pieces ++ [piece]) := by
  have added : transcript.add piece outbox =
      ⟨.ok .emitted,
        { transcript with text := transcript.text ++ piece, deltas := transcript.deltas + 1 },
        outbox.taking (.delta piece)⟩ := by
    simp only [add, Outbox.deliver_accepting holds.accepting]
  rw [added]
  refine ⟨rfl, ⟨?_, ?_⟩, rfl, ⟨holds.accepting, ?_, ?_, ?_⟩⟩
  · rw [String.join_append, ← reflects.text]
    simp [String.join]
  · rw [List.length_append, ← reflects.deltas]
    rfl
  · rw [Outbox.payloads_taking, holds.payloads]
    exact List.append_nil _
  · rw [Outbox.pieces_taking, holds.pieces]
    rfl
  · rw [Outbox.wholes_taking, holds.wholes]
    rfl

end Transcript

/-! ## One more message -/

namespace Message

/-- What some messages amount to together with one more. -/
structure Brings (filter : TokenFilter) (messages : List Message) (message : Message)
    (notices : List Notice) (pieces : List String) (unreadable : Nat) : Prop where
  notices : Message.notices (messages ++ [message]) = notices
  pieces : Message.pieces filter (messages ++ [message]) = pieces
  unreadable : Message.unreadable (messages ++ [message]) = unreadable

variable {filter : TokenFilter} {messages : List Message} {body : Bytes}

theorem brings_of_unreadable {message : Message} (notice : message.notice? = none)
    (piece : message.piece? filter = none) (unreadable : message.isUnreadable = true) :
    Brings filter messages message (notices messages) (pieces filter messages)
      (Message.unreadable messages + 1) where
  notices := by simp [notices, notice]
  pieces := by simp [pieces, piece]
  unreadable := by simp [Message.unreadable, unreadable]

theorem brings_notice {notice : Notice} (read : notice? ⟨.tool, body⟩ = some notice) :
    Brings filter messages ⟨.tool, body⟩ (notices messages ++ [notice]) (pieces filter messages)
      (unreadable messages) where
  notices := by simp [notices, read]
  pieces := by simp [pieces, piece?]
  unreadable := by simp [unreadable, isUnreadable, read]

theorem brings_text {event : Json.Value} (read : Json.value? body = some event) :
    Brings filter messages ⟨.model, body⟩ (notices messages)
      (pieces filter messages ++ (filter.text? event).toList) (unreadable messages) where
  notices := by simp [notices, notice?]
  pieces := by
    have known : piece? filter ⟨.model, body⟩ = filter.text? event := by
      rw [piece?_model, read, Option.bind_some]
    cases adds : filter.text? event <;> simp [pieces, known, adds]
  unreadable := by simp [unreadable, isUnreadable, read]

end Message

/-! ## What a session has made of messages -/

namespace Session

/-- The session holds, and its consumer was handed, what the messages amount to. -/
structure Reflects (filter : TokenFilter) (session : Session) (outbox : Outbox)
    (messages : List Message) : Prop where
  listens : session.transcript.filter = filter
  ledger : session.ledger.Reflects (Message.notices messages)
  transcript : session.transcript.Reflects (Message.pieces filter messages)
  outbox : outbox.Reflects (Message.notices messages) (Message.pieces filter messages)
  dropped : session.dropped = Message.unreadable messages

/-- What a session holds besides its ledger, its transcript and its count of dropped messages. -/
structure SameInput (session other : Session) : Prop where
  phase : other.phase = session.phase
  buffer : other.buffer = session.buffer
  lexer : other.lexer = session.lexer
  bytesIn : other.bytesIn = session.bytesIn

variable {filter : TokenFilter} {session : Session} {outbox : Outbox} {messages : List Message}
  {body : Bytes}

theorem SameInput.trans {first second third : Session} (one : SameInput first second)
    (two : SameInput second third) : SameInput first third :=
  ⟨two.phase.trans one.phase, two.buffer.trans one.buffer, two.lexer.trans one.lexer,
    two.bytesIn.trans one.bytesIn⟩

/-- Only the notices, the pieces and the number of unreadable messages count. -/
theorem Reflects.congr {others : List Message} (reflects : Reflects filter session outbox messages)
    (notices : Message.notices others = Message.notices messages)
    (pieces : Message.pieces filter others = Message.pieces filter messages)
    (unreadable : Message.unreadable others = Message.unreadable messages) :
    Reflects filter session outbox others where
  listens := reflects.listens
  ledger := by rw [notices]; exact reflects.ledger
  transcript := by rw [pieces]; exact reflects.transcript
  outbox := by rw [notices, pieces]; exact reflects.outbox
  dropped := by rw [unreadable]; exact reflects.dropped

/-- The order in which a pass takes the messages makes no difference. -/
theorem Reflects.of_byKind {pass : List Message}
    (reflects : Reflects filter session outbox (messages ++ Message.byKind pass)) :
    Reflects filter session outbox (messages ++ pass) := by
  refine reflects.congr ?_ ?_ ?_
  · rw [Message.notices_append, Message.notices_append, Message.notices_byKind]
  · rw [Message.pieces_append, Message.pieces_append, Message.pieces_byKind]
  · rw [Message.unreadable_append, Message.unreadable_append, Message.unreadable_byKind]

/-- What handling one more message comes to: it is not deferred, it is accounted for, and the
session's input stays. -/
structure Handles (filter : TokenFilter) (session : Session) (messages : List Message)
    (message : Message) (handled : Handled Session) : Prop where
  concludes : ∃ outcome, handled.result = .ok outcome ∧ outcome ≠ .deferred
  reflects : Reflects filter handled.state handled.outbox (messages ++ [message])
  sameInput : SameInput session handled.state

theorem reflects_of_brings {message : Message} {notices : List Notice} {pieces : List String}
    {unreadable : Nat} (brings : Message.Brings filter messages message notices pieces unreadable)
    (listens : session.transcript.filter = filter) (ledger : session.ledger.Reflects notices)
    (transcript : session.transcript.Reflects pieces) (holds : outbox.Reflects notices pieces)
    (dropped : session.dropped = unreadable) :
    Reflects filter session outbox (messages ++ [message]) := by
  obtain ⟨rfl, rfl, rfl⟩ := brings
  exact ⟨listens, ledger, transcript, holds, dropped⟩

/-- A tool message is dropped if there is no notice in it; otherwise the notice is entered. -/
theorem handle_tool_reflects (reflects : Reflects filter session outbox messages) {final : Bool}
    {frame : Frame} (kind : frame.kind = .tool) (settled : isSettled final frame = true) :
    Handles filter session messages ⟨.tool, frame.body⟩ (session.handle final frame outbox) := by
  obtain ⟨listens, ledger, transcript, holds, dropped⟩ := reflects
  cases read : Message.notice? ⟨.tool, frame.body⟩ with
  | none =>
    have handled : session.handle final frame outbox =
        ⟨.ok .dropped, { session with dropped := session.dropped + 1 }, outbox⟩ := by
      simp only [handle, kind, settled, Ledger.handle_of_none read]
    have unreadable : Message.isUnreadable ⟨.tool, frame.body⟩ = true := by
      simp [Message.isUnreadable, read]
    rw [handled]
    exact ⟨⟨.dropped, rfl, by decide⟩,
      reflects_of_brings (Message.brings_of_unreadable read rfl unreadable) listens ledger
        transcript holds (congrArg (· + 1) dropped),
      ⟨rfl, rfl, rfl, rfl⟩⟩
  | some notice =>
    obtain ⟨emitted, entered, delivered⟩ := Ledger.enter_reflects ledger holds notice
    have handled : session.handle final frame outbox =
        ⟨.ok .emitted, { session with ledger := (session.ledger.enter notice outbox).state },
          (session.ledger.enter notice outbox).outbox⟩ := by
      simp only [handle, kind, Ledger.handle_of_some read, emitted]
    rw [handled]
    exact ⟨⟨.emitted, rfl, by decide⟩,
      reflects_of_brings (Message.brings_notice read) listens entered transcript delivered dropped,
      ⟨rfl, rfl, rfl, rfl⟩⟩

/-- A model message is dropped if it does not decode; otherwise its piece is added, if it has one.
-/
theorem handle_model_reflects (reflects : Reflects filter session outbox messages) {final : Bool}
    {frame : Frame} (kind : frame.kind = .model) (settled : isSettled final frame = true) :
    Handles filter session messages ⟨.model, frame.body⟩ (session.handle final frame outbox) := by
  obtain ⟨listens, ledger, transcript, holds, dropped⟩ := reflects
  cases read : Json.value? frame.body with
  | none =>
    have handled : session.handle final frame outbox =
        ⟨.ok .dropped, { session with dropped := session.dropped + 1 }, outbox⟩ := by
      simp only [handle, kind, settled, Transcript.handle_of_none read]
    have silent : Message.piece? filter ⟨.model, frame.body⟩ = none := by
      rw [Message.piece?_model, read, Option.bind_none]
    have unreadable : Message.isUnreadable ⟨.model, frame.body⟩ = true := by
      simp [Message.isUnreadable, read]
    rw [handled]
    exact ⟨⟨.dropped, rfl, by decide⟩,
      reflects_of_brings (Message.brings_of_unreadable rfl silent unreadable) listens ledger
        transcript holds (congrArg (· + 1) dropped),
      ⟨rfl, rfl, rfl, rfl⟩⟩
  | some event =>
    have brings : Message.Brings filter messages ⟨.model, frame.body⟩ _ _ _ :=
      Message.brings_text read
    cases adds : filter.text? event with
    | none =>
      have handled : session.handle final frame outbox = ⟨.ok .emitted, session, outbox⟩ := by
        simp only [handle, kind, Transcript.handle_of_some read, listens, adds]
      rw [adds, Option.toList_none, List.append_nil] at brings
      rw [handled]
      exact ⟨⟨.emitted, rfl, by decide⟩,
        reflects_of_brings brings listens ledger transcript holds dropped, ⟨rfl, rfl, rfl, rfl⟩⟩
    | some piece =>
      obtain ⟨emitted, added, same, delivered⟩ := Transcript.add_reflects transcript holds piece
      have handled : session.handle final frame outbox =
          ⟨.ok .emitted,
            { session with transcript := (session.transcript.add piece outbox).state },
            (session.transcript.add piece outbox).outbox⟩ := by
        simp only [handle, kind, Transcript.handle_of_some read, listens, adds, emitted]
      rw [adds, Option.toList_some] at brings
      rw [handled]
      exact ⟨⟨.emitted, rfl, by decide⟩,
        reflects_of_brings brings (same.trans listens) ledger added delivered dropped,
        ⟨rfl, rfl, rfl, rfl⟩⟩

/-- A message that can no longer grow is handled as the account of the messages says, with a
consumer that takes everything: the session holds, and the consumer was handed, what the messages up
to this one amount to. -/
theorem handle_reflects (reflects : Reflects filter session outbox messages) {final : Bool}
    {frame : Frame} (settled : isSettled final frame = true) :
    Handles filter session messages frame.message (session.handle final frame outbox) := by
  cases kind : frame.kind with
  | tool =>
    rw [Frame.message, kind]
    exact handle_tool_reflects reflects kind settled
  | model =>
    rw [Frame.message, kind]
    exact handle_model_reflects reflects kind settled

end Session

end Unbraid
