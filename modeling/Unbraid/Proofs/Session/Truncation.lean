import Unbraid.Proofs.Frame.Truncation
import Unbraid.Proofs.Json.Keys
import Unbraid.Proofs.Session.Fragmentation

/-!
# Messages that were cut

Under the standard tags, messages of which only a beginning was sent keep no other message from the
consumer (`cut_messages_change_nothing`). A message that was cut may take in what follows, but only
as long as that reads as text of its last string.

* What it takes in holds no whole message of any length (`Frame.messageAt_sent`), and a short one
  has no room for the keys of a notice or a token (`Message.silent_of_length_lt`).
* So the messages that are found say what the whole ones among those that were sent say
  (`Message.sameAccount_of_stream`).
-/

namespace Unbraid

theorem Bytes.trimAscii_sublist (bytes : Bytes) : (trimAscii bytes).Sublist bytes := by
  have first := List.dropWhile_sublist (l := bytes) isAsciiBlank
  have second := List.dropWhile_sublist (l := (bytes.dropWhile isAsciiBlank).reverse) isAsciiBlank
  exact (List.reverse_sublist.2 second).trans (by rw [List.reverse_reverse]; exact first)

theorem Bytes.trimAscii_begins {bytes : Bytes}
    (head : ∀ byte ∈ bytes.head?, isAsciiBlank byte = false) : trimAscii bytes <+: bytes := by
  have kept : bytes.dropWhile isAsciiBlank = bytes := by
    cases bytes with
    | nil => rfl
    | cons byte rest => exact List.dropWhile_cons_of_neg (by simp [head byte rfl])
  have ends := List.dropWhile_suffix (l := bytes.reverse) isAsciiBlank
  rw [trimAscii, kept, ← List.reverse_suffix, List.reverse_reverse]
  exact ends

theorem TokenFilter.text?_of_nowhere {filter : TokenFilter} {event : Json.Value}
    (nowhere : event.at? ["metadata", "langgraph_node"] = none) : filter.text? event = none := by
  cases found : filter.text? event with
  | none => rfl
  | some text =>
    obtain ⟨member, -, found⟩ := Option.bind_eq_some_iff.1 found
    obtain ⟨name, -, found⟩ := Option.bind_eq_some_iff.1 found
    obtain ⟨same, -, found⟩ := Option.bind_eq_some_iff.1 found
    obtain ⟨node, there, -⟩ := Option.bind_eq_some_iff.1 found
    rw [nowhere] at there
    cases there

namespace Message

/-- The message adds neither a notice nor text. -/
structure Silent (filter : TokenFilter) (message : Message) : Prop where
  notice : message.notice? = none
  piece : message.piece? filter = none

variable {filter : TokenFilter} {kind : TagKind} {body : Bytes}

/-- Two lists of messages that add the same notices and the same text. -/
structure SameAccount (filter : TokenFilter) (messages others : List Message) : Prop where
  notices : notices messages = notices others
  pieces : pieces filter messages = pieces filter others

theorem SameAccount.cons {messages others : List Message}
    (same : SameAccount filter messages others) (message : Message) :
    SameAccount filter (message :: messages) (message :: others) := by
  constructor
  · have alone := notices_append [message]
    exact (alone messages).trans (by rw [same.notices]; exact (alone others).symm)
  · have alone := pieces_append filter [message]
    exact (alone messages).trans (by rw [same.pieces]; exact (alone others).symm)

theorem SameAccount.skip {message : Message} {messages others : List Message}
    (same : SameAccount filter messages others) (silent : Silent filter message) :
    SameAccount filter (message :: messages) others where
  notices := (List.filterMap_cons_none silent.notice).trans same.notices
  pieces := (List.filterMap_cons_none silent.piece).trans same.pieces

theorem SameAccount.of_silent {messages : List Message}
    (silent : ∀ message ∈ messages, Silent filter message) :
    SameAccount filter [] messages where
  notices :=
    (List.filterMap_eq_nil_iff.2 fun message present => (silent message present).notice).symm
  pieces :=
    (List.filterMap_eq_nil_iff.2 fun message present => (silent message present).piece).symm

theorem value?_of_probe {body : Bytes} (incomplete : Json.probe body ≠ .complete) :
    Json.value? body = none := by
  rw [Json.value?]
  cases read : Json.decode body with
  | complete value => exact absurd (Json.probe_of_decode read) incomplete
  | incomplete => rfl
  | malformed => rfl

/-- A body none of whose beginnings is a value says nothing. -/
theorem silent_of_never (never : ∀ part, part <+: body → Json.probe part ≠ .complete)
    (head : ∀ byte ∈ body.head?, Bytes.isAsciiBlank byte = false) :
    Silent filter ⟨kind, body⟩ := by
  cases kind with
  | tool =>
    refine ⟨?_, rfl⟩
    rw [notice?_tool, value?_of_probe (never _ (Bytes.trimAscii_begins head)), Option.bind_none]
  | model =>
    refine ⟨rfl, ?_⟩
    rw [piece?_model, value?_of_probe (never body (List.prefix_refl body)), Option.bind_none]

theorem member?_of_length_lt {body : Bytes} {value : Json.Value} {key : String}
    (read : Json.value? body = some value) (short : body.length < key.utf8ByteSize) :
    value.member? key = none := by
  cases found : value.member? key with
  | none => rfl
  | some item =>
    rw [Json.value?] at read
    cases decoded : Json.decode body with
    | complete other =>
      rw [decoded] at read
      obtain rfl : other = value := Option.some.inj read
      exact absurd (Json.length_le_of_member? decoded found) (Nat.not_le.2 short)
    | incomplete => rw [decoded] at read; cases read
    | malformed => rw [decoded] at read; cases read

/-- A short body has no room for the keys of a notice or a token. -/
theorem silent_of_length_lt (short : body.length < 8) : Silent filter ⟨kind, body⟩ := by
  cases kind with
  | tool =>
    refine ⟨?_, rfl⟩
    rw [notice?_tool]
    cases read : Json.value? body.trimAscii with
    | none => rfl
    | some value =>
      have size : "additional_kwargs".utf8ByteSize = 17 := rfl
      have trimmed := (Bytes.trimAscii_sublist body).length_le
      have absent : value.member? "additional_kwargs" = none :=
        member?_of_length_lt read (by omega)
      simp [Notice.ofValue?, absent]
  | model =>
    refine ⟨rfl, ?_⟩
    rw [piece?_model]
    cases read : Json.value? body with
    | none => rfl
    | some value =>
      have size : "metadata".utf8ByteSize = 8 := rfl
      have absent : value.member? "metadata" = none := member?_of_length_lt read (by omega)
      have nowhere : value.at? ["metadata", "langgraph_node"] = none := by
        rw [Json.Value.at?, List.foldlM_cons, absent]
        rfl
      exact TokenFilter.text?_of_nowhere nowhere

end Message

namespace Sent

variable {filter : TokenFilter} {sent : Sent}

/-- The whole messages among those that were sent. -/
def kept (frames : List Sent) : List Message := (frames.filter isWhole).map message

theorem probe_of_begins_body (cut : sent.isWhole = false) {part : Bytes}
    (begins : part <+: sent.body) : Json.probe part ≠ .complete := by
  have short : sent.length < sent.meant.length := Nat.lt_of_not_le (of_decide_eq_false cut)
  have within := begins.length_le
  rw [body, List.length_take] at within
  have earlier : (Sent.mk sent.kind sent.meant sent.good part.length).body = part :=
    (List.prefix_iff_eq_take.1 (begins.trans (List.take_prefix _ _))).symm
  have cut : (Sent.mk sent.kind sent.meant sent.good part.length).isWhole = false := by
    refine decide_eq_false ?_
    show ¬ sent.meant.length ≤ part.length
    omega
  rw [← earlier]
  exact probe_ne_complete cut

/-- A body that was cut says nothing, with what was sent after it or without. -/
theorem silent_of_cut (cut : sent.isWhole = false) {frames : List Sent} {part : Bytes}
    (begins : part <+: stream frames) :
    Message.Silent filter ⟨sent.kind, sent.body ++ part⟩ := by
  refine Message.silent_of_never (fun other within => ?_) fun byte first => ?_
  -- A beginning of the two is a beginning of the body, or the body and a part of what follows.
  · rcases List.prefix_or_prefix_of_prefix within (List.prefix_append _ _) with
      before | ⟨further, rfl⟩
    · exact probe_of_begins_body cut before
    · rw [List.prefix_append_right_inj] at within
      by_cases none : further = []
      · rw [none, List.append_nil]
        exact probe_ne_complete cut
      · exact probe_body_append (within.trans begins) none
  · rcases sent.body_cases with none | one | two | ⟨letter, more, longer, -⟩
    · rw [none, List.nil_append] at first
      cases part with
      | nil => cases first
      | cons head rest =>
        obtain ⟨more, capital⟩ := stream_head begins (List.cons_ne_nil _ _)
        rw [capital] at first
        obtain rfl := Option.some.inj first
        rfl
    · rw [one] at first
      obtain rfl := Option.some.inj first
      rfl
    · rw [two] at first
      obtain rfl := Option.some.inj first
      rfl
    · rw [longer] at first
      obtain rfl := Option.some.inj first
      rfl

theorem kept_cons_of_isWhole (whole : sent.isWhole = true) (rest : List Sent) :
    kept (sent :: rest) = sent.message :: kept rest := by
  rw [kept, List.filter_cons_of_pos whole, List.map_cons, kept]

theorem kept_cons_of_cut (cut : sent.isWhole = false) (rest : List Sent) :
    kept (sent :: rest) = kept rest := by
  rw [kept, List.filter_cons_of_neg (by simp [cut]), kept]

theorem silent_of_short {frames : List Sent}
    (short : ∀ long ∈ frames, long.isWhole = true → long.meant.length < 8) :
    ∀ message ∈ kept frames, Message.Silent filter message := by
  intro message present
  obtain ⟨sent, among, rfl⟩ := List.mem_map.1 present
  obtain ⟨known, whole⟩ := List.mem_filter.1 among
  refine Message.silent_of_length_lt ?_
  rw [body_of_isWhole whole]
  exact short sent known whole

/-- The messages of what was sent say what the whole messages among it say. -/
theorem sameAccount_of_stream (filter : TokenFilter) (before rest : List Sent) :
    Message.SameAccount filter
      ((Frame.window .standard (stream (before ++ rest)) (stream before).length).map Frame.message)
      (kept rest) := by
  induction rest generalizing before with
  | nil =>
    rw [List.append_nil, Frame.window_of_length_le (Nat.le_refl _)]
    exact ⟨rfl, rfl⟩
  | cons sent rest ih =>
    have recorded : ⟨(stream before).length, sent.kind⟩ ∈
        (Lexer.after .standard (stream (before ++ sent :: rest))).hits := by
      rw [hits_after, hits_append, hits, Nat.zero_add]
      exact List.mem_append_right _ List.mem_cons_self
    rw [Frame.window_of_some (Frame.hitFrom?_of_mem recorded), List.map_cons]
    rcases messageAt_sent before sent rest with ⟨message, stop⟩ | ⟨cut, message, stop, short⟩
    · have next : (stream before).length + TagPair.standard.length + sent.body.length =
          (stream (before ++ [sent])).length := by
        have none : stream [] = [] := rfl
        rw [stream_append, List.length_append, length_stream_cons, none, List.length_nil]
        omega
      have later := ih (before ++ [sent])
      rw [List.append_assoc, List.singleton_append, ← next, ← stop] at later
      rw [message]
      cases whole : sent.isWhole with
      | true =>
        rw [kept_cons_of_isWhole whole]
        exact later.cons sent.message
      | false =>
        have alone : Message.Silent filter ⟨sent.kind, sent.body ++ []⟩ :=
          silent_of_cut whole (List.prefix_refl (stream []))
        have silent : Message.Silent filter sent.message := by rwa [List.append_nil] at alone
        rw [kept_cons_of_cut whole]
        exact later.skip silent
    -- All that follows is taken for text of this message, and none of it would have said anything.
    · have silent : Message.Silent filter ⟨sent.kind, sent.body ++ stream rest⟩ :=
        silent_of_cut cut (List.prefix_refl _)
      rw [stop, Frame.window_of_length_le (Nat.le_refl _), message, kept_cons_of_cut cut]
      exact (Message.SameAccount.of_silent (silent_of_short short)).skip silent

end Sent

namespace Session

variable {id : String} {settings : DemuxSettings} {session : Session} {chunks : List Bytes}
  {frames : List Sent}

theorem events_of_run (started : start id settings = .ok session)
    (standard : settings.tags = .ok .standard) (arrives : chunks.flatten = Sent.stream frames)
    (taken : (session.receive (.fresh .accepting) chunks).fault = none) :
    let outbox := (session.receive (.fresh .accepting) chunks).outbox
    outbox.payloads =
        (Notice.firsts (Message.notices (Sent.kept frames))).map Notice.payload ∧
      outbox.pieces = Message.pieces settings.filter (Sent.kept frames) ∧
      outbox.wholes = [String.join (Message.pieces settings.filter (Sent.kept frames))] := by
  have tags : session.lexer.tags = .standard := by
    have known := (Receives.of_start started).1
    rw [standard] at known
    exact (Except.ok.inj known).symm
  have whole : ¬ session.TearsNumber chunks := by
    have arrives : [] ++ chunks.flatten = Sent.stream frames := arrives
    rw [TearsNumber, tags]
    exact Sent.not_tearsNumber_stream arrives
  have completed := Completed.of_not_tearsNumber started taken whole
  obtain ⟨notices, pieces⟩ := Sent.sameAccount_of_stream settings.filter [] frames
  rw [streamMessages, tags, arrives] at completed
  intro outbox
  refine ⟨?_, ?_, ?_⟩
  · rw [← notices]
    exact completed.payloads
  · rw [← pieces]
    exact completed.pieces
  · rw [← pieces]
    exact completed.wholes

/-- A run over messages under the standard tags, each of which may break off anywhere. The consumer
is handed what the whole messages amount to, and so the same as in any run over a stream in which
only those were sent: nothing comes of a message that was cut, and it takes none of the others with
it. -/
theorem cut_messages_change_nothing (started : start id settings = .ok session)
    (standard : settings.tags = .ok .standard) (arrives : chunks.flatten = Sent.stream frames)
    (taken : (session.receive (.fresh .accepting) chunks).fault = none) :
    let outbox := (session.receive (.fresh .accepting) chunks).outbox
    (outbox.payloads =
        (Notice.firsts (Message.notices (Sent.kept frames))).map Notice.payload ∧
      outbox.pieces = Message.pieces settings.filter (Sent.kept frames) ∧
      outbox.wholes = [String.join (Message.pieces settings.filter (Sent.kept frames))]) ∧
    ∀ others, others.flatten = Sent.stream (frames.filter Sent.isWhole) →
      (session.receive (.fresh .accepting) others).fault = none →
      let alone := (session.receive (.fresh .accepting) others).outbox
      outbox.payloads = alone.payloads ∧ outbox.pieces = alone.pieces ∧
        outbox.wholes = alone.wholes := by
  have events := events_of_run started standard arrives taken
  refine ⟨events, fun others same retaken => ?_⟩
  have alone := events_of_run started standard same retaken
  have kept : Sent.kept (frames.filter Sent.isWhole) = Sent.kept frames := by
    rw [Sent.kept, List.filter_filter, Sent.kept]
    simp
  rw [kept] at alone
  exact ⟨events.1.trans alone.1.symm, events.2.1.trans alone.2.1.symm,
    events.2.2.trans alone.2.2.symm⟩

def tokenBody : Bytes :=
  Bytes.ofText ("\x7b\"event\":\"on_chat_model_stream\",\"metadata\":" ++
    "\x7b\"langgraph_node\":\"Toly\"\x7d,\"data\":\x7b\"chunk\":\x7b\"content\":\"x\"\x7d\x7d\x7d")

theorem goodBody_tokenBody : GoodBody tokenBody where
  opens := ⟨0x65, _, rfl, rfl⟩
  closes := by decide
  reads := by decide +kernel
  noTag := TagPair.not_infix_of_absent (by decide +kernel)

/-- The event once cut inside its first string, and once whole. -/
def cutAndWhole : List Sent :=
  [⟨.model, tokenBody, goodBody_tokenBody, 15⟩, ⟨.model, tokenBody, goodBody_tokenBody, 200⟩]

theorem a_cut_message_changes_nothing :
    let run := (standard "s").receive (.fresh .accepting)
    let chunks := [(Sent.stream cutAndWhole).take 30, (Sent.stream cutAndWhole).drop 30]
    (run chunks).fault = none ∧ (run chunks).outbox.pieces = ["x"] ∧
      (run [Sent.stream (cutAndWhole.filter Sent.isWhole)]).fault = none ∧
      (run chunks).outbox.pieces =
        (run [Sent.stream (cutAndWhole.filter Sent.isWhole)]).outbox.pieces := by
  intro run chunks
  have taken : (run chunks).fault = none := by decide +kernel
  have retaken : (run [Sent.stream (cutAndWhole.filter Sent.isWhole)]).fault = none := by
    decide +kernel
  have arrives : chunks.flatten = Sent.stream cutAndWhole := by decide +kernel
  obtain ⟨-, alone⟩ :=
    cut_messages_change_nothing (start_standard "s") rfl arrives taken
  obtain ⟨-, pieces, -⟩ := alone _ (List.append_nil _) retaken
  exact ⟨taken, by decide +kernel, retaken, pieces⟩

end Session

end Unbraid
