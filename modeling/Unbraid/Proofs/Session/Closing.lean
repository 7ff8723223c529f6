import Unbraid.Proofs.Frame.Closing
import Unbraid.Proofs.Json.Blanks
import Unbraid.Proofs.Session.Held
import Unbraid.Proofs.Session.Truncation

/-!
# The end of an answer and a tag behind it

The end of an answer ends the last message, and so does a tag behind it. What a consumer is handed
is compared for a run over some chunks and one over these and a tag behind them
(`end_is_like_a_tag`). Both have handled the same messages up to the one that is held; the first
handles that one, and the second those of the bytes that are held with the tag behind them
(`Session.heldBehind`). The consumer is handed the same exactly if these amount to the same.

* It is the same if no message is held, if the body of the held one is a whole value, and otherwise
  if no other tag was passed over in it and it cannot go on with the new one (`Session.EndsAlike`).
* A tag may be text of a value. If a body that is cut can go on with it, the tag belongs to the
  body (`Closing.runsOn`); such a tag, two closing braces say, can be all that a notice lacks.
* If a tag was passed over and no value goes on like that, the tag behind sends the message back to
  the one that was passed over. The end does not: of a body that was only cut nothing comes, but the
  messages from the passed tag on are lost (`Closing.goesBack`), and so they are if the body is
  malformed in its last bytes, which the lexer has not passed (`Closing.cutShort`). The notice of
  `hiddenNotice` is handed over if a tag follows, and lost at the end of the answer
  (`end_differs_from_a_tag`).
-/

namespace Unbraid

namespace Message

variable {filter : TokenFilter} {kind : TagKind} {body : Bytes}

/-- A body that is only the beginning of a value says nothing. -/
theorem silent_of_incomplete (cut : Json.probe body = .incomplete) :
    Silent filter ⟨kind, body⟩ := by
  cases kind with
  | tool =>
    have never : Json.probe body.trimAscii ≠ .complete :=
      fun complete => Json.probe_of_trimAscii complete cut
    refine ⟨?_, rfl⟩
    rw [notice?_tool, value?_of_probe never, Option.bind_none]
  | model =>
    refine ⟨rfl, ?_⟩
    rw [piece?_model, value?_of_probe (by rw [cut]; nofun), Option.bind_none]

/-- The first notices of each call and the pieces of text are the same. -/
structure AmountAlike (filter : TokenFilter) (messages others : List Message) : Prop where
  payloads : (Notice.firsts (notices messages)).map Notice.payload =
    (Notice.firsts (notices others)).map Notice.payload
  pieces : pieces filter messages = pieces filter others

theorem SameAccount.append {messages others : List Message}
    (same : SameAccount filter messages others) (before : List Message) :
    SameAccount filter (before ++ messages) (before ++ others) where
  notices := by rw [notices_append, notices_append, same.notices]
  pieces := by rw [pieces_append, pieces_append, same.pieces]

end Message

namespace Session

/-- The consumer was handed what some messages amount to. -/
structure HandsOver (filter : TokenFilter) (messages : List Message) (called : Called) : Prop where
  payloads : called.outbox.payloads = (Notice.firsts (Message.notices messages)).map Notice.payload
  pieces : called.outbox.pieces = Message.pieces filter messages
  wholes : called.outbox.wholes = [String.join (Message.pieces filter messages)]

/-- Two calls after which the consumer was handed the same, each kind of event in the same order. -/
structure SameEvents (one other : Called) : Prop where
  payloads : one.outbox.payloads = other.outbox.payloads
  pieces : one.outbox.pieces = other.outbox.pieces
  wholes : one.outbox.wholes = other.outbox.wholes

/-- The messages of the bytes that are held and of a tag behind them, as of a stream of their
own. -/
def heldBehind (tags : TagPair) (kind : TagKind) (held : Session) : List Message :=
  (Frame.window tags (held.buffer ++ tags.bytes kind) 0).map Frame.message

/-- The messages from a tag on that is held, with another tag behind them. -/
def passedBehind (tags : TagPair) (kind : TagKind) (held : Session) (passed : Hit) :
    List Message :=
  (Frame.window tags (held.buffer.drop passed.offset ++ tags.bytes kind) 0).map Frame.message

/-- A message that is held ends at a tag as it would at the end of the answer: nothing comes of its
body either way, or it ends where the tag stands. -/
def EndsAlike (held : Session) (tag : Bytes) (last : Frame) : Prop :=
  (Json.probe last.body = .malformed → held.lexer.hitsAfter last.tagOffset = []) ∧
    (Json.probe last.body = .incomplete → Json.probe (last.body ++ tag) = .incomplete ∨
      held.lexer.hitsAfter last.tagOffset = [] ∧ Json.probe (last.body ++ tag) = .malformed)

instance (held : Session) (tag : Bytes) (last : Frame) : Decidable (held.EndsAlike tag last) :=
  inferInstanceAs (Decidable (_ ∧ _))

section

variable {filter : TokenFilter} {messages others : List Message} {one other called : Called}

theorem Completed.handsOver {bytesIn : Nat} (completed : Completed filter bytesIn messages called) :
    HandsOver filter messages called :=
  ⟨completed.payloads, completed.pieces, completed.wholes⟩

theorem HandsOver.of_sameAccount (hands : HandsOver filter messages called)
    (same : Message.SameAccount filter messages others) : HandsOver filter others called := by
  obtain ⟨payloads, pieces, wholes⟩ := hands
  rw [same.notices] at payloads
  rw [same.pieces] at pieces wholes
  exact ⟨payloads, pieces, wholes⟩

theorem HandsOver.sameEvents (hands : HandsOver filter messages one)
    (again : HandsOver filter messages other) : SameEvents one other :=
  ⟨hands.payloads.trans again.payloads.symm, hands.pieces.trans again.pieces.symm,
    hands.wholes.trans again.wholes.symm⟩

theorem HandsOver.sameEvents_iff (hands : HandsOver filter messages one)
    (again : HandsOver filter others other) :
    SameEvents one other ↔ Message.AmountAlike filter messages others := by
  constructor
  · rintro ⟨payloads, pieces, -⟩
    rw [hands.payloads, again.payloads] at payloads
    rw [hands.pieces, again.pieces] at pieces
    exact ⟨payloads, pieces⟩
  · rintro ⟨payloads, pieces⟩
    refine ⟨?_, ?_, ?_⟩
    · rw [hands.payloads, again.payloads, payloads]
    · rw [hands.pieces, again.pieces, pieces]
    · rw [hands.wholes, again.wholes, pieces]

end

section

variable {id : String} {settings : DemuxSettings} {session : Session} {outbox : Outbox}
  {chunks more : List Bytes}

theorem receive_append (taken : (session.receive outbox (chunks ++ more)).fault = none) :
    (session.feedAll outbox chunks).fault = none ∧
      session.receive outbox (chunks ++ more) =
        (session.feedAll outbox chunks).session.receive (session.feedAll outbox chunks).outbox
          more := by
  have calls : wholeStream (chunks ++ more) = chunks.map .feed ++ wholeStream more := by
    rw [wholeStream, wholeStream, List.map_append, List.append_assoc]
  have some : wholeStream more ≠ [] := List.append_ne_nil_of_right_ne_nil _ (List.cons_ne_nil _ _)
  have whole : session.receive outbox (chunks ++ more) =
      if (session.feedAll outbox chunks).isFault then session.feedAll outbox chunks
      else (session.feedAll outbox chunks).session.receive (session.feedAll outbox chunks).outbox
        more := by
    rw [receive, calls, Called.run_append rfl, receive, Called.run_uncalled some]
    rfl
  rw [whole] at taken ⊢
  cases fault : (session.feedAll outbox chunks).fault with
  | some cause =>
    rw [if_pos (by simp [Called.isFault, fault]), fault] at taken
    cases taken
  | none => exact ⟨rfl, if_neg (by simp [Called.isFault, fault])⟩

theorem exists_receives (started : start id settings = .ok session)
    (taken : (session.feedAll (.fresh .accepting) chunks).fault = none) :
    ∃ done messages, Frame.Held session.lexer.tags chunks.flatten done ∧
      Receives session.lexer.tags settings.filter chunks.flatten done messages
        (session.feedAll (.fresh .accepting) chunks).session
        (session.feedAll (.fresh .accepting) chunks).outbox :=
  feedAll_induction
    (motive := fun received held outbox => ∃ done messages,
      Frame.Held session.lexer.tags received done ∧
        Receives session.lexer.tags settings.filter received done messages held outbox)
    (fun _ _ _ chunk ⟨_, _, held, receives⟩ taken =>
      ⟨_, _, held.next chunk, (receives.feed taken).1⟩)
    ⟨0, [], Frame.held_nil _, (Receives.of_start started).2⟩ taken

end

/-- What becomes of the bytes that are held: when the answer ends, and when a tag stands behind it
and then it ends. Before that, the given messages have been handled. -/
structure Closing (tags : TagPair) (filter : TokenFilter) (kind : TagKind) (held : Called)
    (messages : List Message) (ended tagged : Called) : Prop where
  before : held.outbox.payloads = (Notice.firsts (Message.notices messages)).map Notice.payload ∧
    held.outbox.pieces = Message.pieces filter messages
  handed : HandsOver filter (messages ++ held.session.frames.map Frame.message) ended
  again : HandsOver filter (messages ++ held.session.heldBehind tags kind) tagged
  exactly : SameEvents ended tagged ↔
    Message.AmountAlike filter (messages ++ held.session.frames.map Frame.message)
      (messages ++ held.session.heldBehind tags kind)
  alike : (∀ last ∈ held.session.frames, held.session.EndsAlike (tags.bytes kind) last) →
    SameEvents ended tagged
  runsOn : ∀ last ∈ held.session.frames, Json.probe last.body = .incomplete →
    Json.probe (last.body ++ tags.bytes kind) ≠ .malformed →
    HandsOver filter messages ended ∧
      HandsOver filter (messages ++ [⟨last.kind, last.body ++ tags.bytes kind⟩]) tagged
  goesBack : ∀ last ∈ held.session.frames, Json.probe last.body = .incomplete →
    Json.probe (last.body ++ tags.bytes kind) = .malformed →
    ∀ passed ∈ (held.session.lexer.hitsAfter last.tagOffset).head?,
      HandsOver filter messages ended ∧
        HandsOver filter (messages ++ held.session.passedBehind tags kind passed) tagged
  cutShort : ∀ last ∈ held.session.frames, Json.probe last.body = .malformed →
    ∀ passed ∈ (held.session.lexer.hitsAfter last.tagOffset).head?,
      HandsOver filter (messages ++ [last.message]) ended ∧
        HandsOver filter (messages ++ held.session.passedBehind tags kind passed) tagged

section

variable {tags : TagPair} {held : Session} {filter : TokenFilter} {kind : TagKind}
  {received : Bytes} {done : Nat} {hit : Hit} {messages : List Message} {called : Called}

theorem HandsOver.skip {part : Bytes} {rest : List Message}
    (hands : HandsOver filter (messages ++ ⟨kind, part⟩ :: rest) called)
    (cut : Json.probe part = .incomplete) : HandsOver filter (messages ++ rest) called :=
  have same : Message.SameAccount filter rest rest := ⟨rfl, rfl⟩
  hands.of_sameAccount ((same.skip (Message.silent_of_incomplete cut)).append messages)

theorem HandsOver.skip_last {part : Bytes}
    (hands : HandsOver filter (messages ++ [⟨kind, part⟩]) called)
    (cut : Json.probe part = .incomplete) : HandsOver filter messages called := by
  have skipped := hands.skip cut
  rwa [List.append_nil] at skipped

theorem Follows.frames_message (follows : Follows tags received done held) :
    held.frames.map Frame.message = (Frame.window tags received done).map Frame.message := by
  rw [follows.frames, List.map_map, message_back]

theorem Follows.heldBehind (follows : Follows tags received done held)
    (stands : tags.StandsBehind received kind) (between : Frame.Held tags received done) :
    held.heldBehind tags kind =
      (Frame.window tags (received ++ tags.bytes kind) done).map Frame.message := by
  rw [Session.heldBehind, follows.buffer, Frame.window_behind_held stands between]

/-- The message that is held, by its offset in the stream. -/
structure HoldsMessage (tags : TagPair) (received : Bytes) (hit : Hit) (kind : TagKind)
    (held : Session) (last : Frame) : Prop where
  body : last.body = (Frame.messageAt tags received hit).body
  message : last.message = (Frame.messageAt tags received hit).message
  sameKind : last.kind = hit.kind
  hitsAfter : held.lexer.hitsAfter last.tagOffset =
    ((Lexer.after tags received).hitsAfter hit.offset).map (Hit.back hit.offset)
  passedBehind : ∀ next ∈ (Lexer.after tags received).hitsAfter hit.offset,
    held.passedBehind tags kind (next.back hit.offset) =
      (Frame.window tags (received ++ tags.bytes kind) next.offset).map Frame.message

theorem Follows.holdsMessage (follows : Follows tags received hit.offset held)
    (growing : Frame.IsOpen tags received hit) (stands : tags.StandsBehind received kind)
    {last : Frame} (present : last ∈ held.frames) :
    HoldsMessage tags received hit kind held last := by
  rw [follows.frames_of_isOpen growing, List.mem_singleton] at present
  subst present
  have offset : ((Frame.messageAt tags received hit).back hit.offset).tagOffset = 0 := by
    show (Frame.messageAt tags received hit).tagOffset - hit.offset = 0
    rw [Frame.messageAt_tagOffset, Nat.sub_self]
  refine ⟨rfl, rfl, Frame.messageAt_kind, ?_, fun next present => ?_⟩
  · rw [offset, follows.lexer, Lexer.hitsAfter_consume growing.1]
  · obtain ⟨recorded, later⟩ := List.mem_filter.1 present
    have later : hit.offset + tags.length ≤ next.offset := of_decide_eq_true later
    have reached : hit.offset + (next.back hit.offset).offset = next.offset :=
      Nat.add_sub_cancel' (Nat.le_trans (Nat.le_add_right _ _) later)
    rw [Session.passedBehind, follows.buffer, List.drop_drop, reached,
      Frame.window_behind_drop stands recorded]

end

section

variable {tags : TagPair} {held : Called} {filter : TokenFilter} {kind : TagKind}
  {received : Bytes} {done : Nat} {hit : Hit} {messages : List Message} {ended tagged : Called}
  (stands : tags.StandsBehind received kind)
  (handed : HandsOver filter (messages ++ held.session.frames.map Frame.message) ended)
  (again : HandsOver filter (messages ++ held.session.heldBehind tags kind) tagged)

include stands handed again

theorem sameEvents_of_noTag (follows : Follows tags received done held.session)
    (between : Frame.Held tags received done) (absent : (Lexer.after tags received).hits = []) :
    held.session.frames = [] ∧ SameEvents ended tagged := by
  have none : held.session.frames = [] := by
    rw [follows.frames, Frame.window_of_none (Frame.hitFrom?_of_noTag absent done), List.map_nil]
  have within : done ≤ received.length := Nat.le_trans follows.inside (Lexer.position_le_length _)
  rw [none, List.map_nil, List.append_nil] at handed
  rw [follows.heldBehind stands between, Frame.window_behind_noTag stands absent within] at again
  exact ⟨none, handed.sameEvents (again.skip_last rfl)⟩

variable (growing : Frame.IsOpen tags received hit)
  (follows : Follows tags received hit.offset held.session)

include growing follows

theorem handsOver_of_runsOn (last : Frame) (present : last ∈ held.session.frames)
    (cut : Json.probe last.body = .incomplete)
    (longer : Json.probe (last.body ++ tags.bytes kind) ≠ .malformed) :
    HandsOver filter messages ended ∧
      HandsOver filter (messages ++ [⟨last.kind, last.body ++ tags.bytes kind⟩]) tagged := by
  have holds := follows.holdsMessage growing stands present
  have only := follows.frames_of_isOpen growing
  rw [only, List.mem_singleton] at present
  rw [only, ← present] at handed
  rw [follows.heldBehind stands (.message growing), growing.runs_on stands (holds.body ▸ cut)
    (holds.body ▸ longer), ← holds.body, ← holds.sameKind] at again
  exact ⟨handed.skip_last cut, again⟩

theorem handsOver_of_passed (last : Frame) (present : last ∈ held.session.frames)
    (ends : Json.probe last.body = .malformed ∨ Json.probe last.body = .incomplete ∧
      Json.probe (last.body ++ tags.bytes kind) = .malformed)
    (passed : Hit) (first : passed ∈ (held.session.lexer.hitsAfter last.tagOffset).head?) :
    HandsOver filter (messages ++ [last.message]) ended ∧
      HandsOver filter (messages ++ held.session.passedBehind tags kind passed) tagged := by
  have holds := follows.holdsMessage growing stands present
  have only := follows.frames_of_isOpen growing
  rw [only, List.mem_singleton] at present
  rw [only, ← present] at handed
  rw [holds.hitsAfter, List.head?_map, Option.mem_def, Option.map_eq_some_iff] at first
  obtain ⟨next, first, rfl⟩ := first
  rw [holds.body] at ends
  obtain ⟨part, begins, back⟩ := growing.goes_back stands ends first
  rw [follows.heldBehind stands (.message growing), back] at again
  refine ⟨handed, ?_⟩
  rw [holds.passedBehind next (List.mem_of_mem_head? first)]
  exact again.skip begins

theorem sameEvents_of_endsAlike
    (ends : ∀ last ∈ held.session.frames, held.session.EndsAlike (tags.bytes kind) last) :
    SameEvents ended tagged := by
  have only := follows.frames_of_isOpen growing
  generalize (Frame.messageAt tags received hit).back hit.offset = last at only
  have present : last ∈ held.session.frames := only ▸ List.mem_singleton_self _
  obtain ⟨malformed, incomplete⟩ := ends last present
  have holds := follows.holdsMessage growing stands present
  -- Where the message ends at the tag, the tag itself has an empty body and says nothing.
  have stops (reason : Json.probe last.body = .complete ∨
      held.session.lexer.hitsAfter last.tagOffset = [] ∧ (Json.probe last.body = .incomplete →
        Json.probe (last.body ++ tags.bytes kind) = .malformed)) : SameEvents ended tagged := by
    rw [holds.body, holds.hitsAfter, List.map_eq_nil_iff] at reason
    rw [follows.heldBehind stands (.message growing), growing.stops stands reason,
      ← holds.message] at again
    rw [only] at handed
    exact handed.sameEvents ((List.append_assoc messages [_] [_] ▸ again).skip_last rfl)
  cases verdict : Json.probe last.body with
  | complete => exact stops (.inl verdict)
  | malformed =>
    exact stops (.inr ⟨malformed verdict, fun cut => by rw [verdict] at cut; cases cut⟩)
  | incomplete =>
    rcases incomplete verdict with longer | ⟨none, longer⟩
    · have ⟨handed, again⟩ := handsOver_of_runsOn stands handed again growing follows last present
        verdict (by rw [longer]; nofun)
      exact handed.sameEvents (again.skip_last longer)
    · exact stops (.inr ⟨none, fun _ => longer⟩)

end

/-- A run over some chunks, and one over these and a tag behind them. The first hands over what the
held message amounts to, and the second what the held bytes amount to with the tag behind them;
before that both have handled the same messages. `Closing` says that the two runs are alike exactly
if these amount to the same, and for each way in which the held body can read what either run hands
over. -/
theorem end_is_like_a_tag {id : String} {settings : DemuxSettings} {session : Session}
    {chunks : List Bytes} {kind : TagKind} (started : start id settings = .ok session)
    (stands : session.lexer.tags.StandsBehind chunks.flatten kind)
    (taken : (session.receive (.fresh .accepting) chunks).fault = none)
    (retaken : (session.receive (.fresh .accepting)
      (chunks ++ [session.lexer.tags.bytes kind])).fault = none) :
    ∃ messages, Closing session.lexer.tags settings.filter kind
      (session.feedAll (.fresh .accepting) chunks) messages
      (session.receive (.fresh .accepting) chunks)
      (session.receive (.fresh .accepting) (chunks ++ [session.lexer.tags.bytes kind])) := by
  rw [← List.append_nil chunks] at taken
  obtain ⟨fed, ended⟩ := receive_append taken
  obtain ⟨-, tagged⟩ := receive_append retaken
  rw [List.append_nil, receive_nil] at ended
  obtain ⟨done, messages, between, receives⟩ := exists_receives started fed
  rw [tagged] at retaken ⊢
  rw [ended]
  have follows := receives.follows
  have handed := receives.finish.1.handsOver
  have again := (receives.run retaken).1.handsOver
  rw [Frame.flatten_passes_last _ between.le_position, ← follows.heldBehind stands between] at again
  rw [← follows.frames_message] at handed
  have reflects := receives.reflects.outbox
  have before := And.intro reflects.payloads reflects.pieces
  have exactly := handed.sameEvents_iff again
  cases between with
  | noTag absent =>
    obtain ⟨none, same⟩ := sameEvents_of_noTag stands handed again follows (.noTag absent) absent
    refine ⟨messages, before, handed, again, exactly, fun _ => same, ?_, ?_, ?_⟩ <;>
      simp only [none, List.not_mem_nil, false_imp_iff, implies_true]
  | message growing =>
    refine ⟨messages, before, handed, again, exactly,
      sameEvents_of_endsAlike stands handed again growing follows,
      handsOver_of_runsOn stands handed again growing follows,
      fun last present cut longer passed first => ?_,
      fun last present malformed => handsOver_of_passed stands handed again growing follows last
        present (.inl malformed)⟩
    obtain ⟨handed, again⟩ := handsOver_of_passed stands handed again growing follows last present
      (.inr ⟨cut, longer⟩) passed first
    exact ⟨handed.skip_last cut, again⟩

/-- A notice that may still grow, behind a few bytes of preamble. -/
def openNotice : List Bytes :=
  [Bytes.ofText "1To", Bytes.ofText "ol :\x7b\"tool_name\":\"a\",\"additional_kwargs\":[]\x7d"]

theorem end_is_like_a_tag_after_a_notice :
    let run := (standard "s").receive (.fresh .accepting)
    let tagged := openNotice ++ [TagPair.standard.bytes .model]
    TagPair.standard.StandsBehind openNotice.flatten .model ∧
      (run openNotice).fault = none ∧ (run tagged).fault = none ∧
      (∃ messages, Closing .standard DemuxSettings.standard.filter .model
        ((standard "s").feedAll (.fresh .accepting) openNotice) messages (run openNotice)
        (run tagged)) ∧
      SameEvents (run openNotice) (run tagged) ∧ (run openNotice).outbox.payloads.length = 1 := by
  intro run tagged
  have stands : TagPair.standard.StandsBehind openNotice.flatten .model := by decide +kernel
  have taken : (run openNotice).fault = none := by decide +kernel
  have retaken : (run tagged).fault = none := by decide +kernel
  have closing := end_is_like_a_tag (start_standard "s") stands taken retaken
  have ⟨_, holds⟩ := closing
  exact ⟨stands, taken, retaken, closing, holds.alike (by decide +kernel), by decide +kernel⟩

def longTags : TagPair where
  tool := List.replicate 40 0x54
  model := List.replicate 40 0x4D
  tool_ne_nil := by decide
  tool_ne_model := by decide
  length_eq := rfl

def longSettings : DemuxSettings :=
  { DemuxSettings.standard with
    toolTag := String.ofList (List.replicate 40 'T')
    modelTag := String.ofList (List.replicate 40 'M') }

/-- A tool message that was cut inside a string, and a notice behind it. The tag of the notice may
be text of that string up to the first quotation mark after it, and that the lexer has not passed
when the answer ends: the last bytes, up to one less than a tag, may be the beginning of one. -/
def hiddenNotice : List Bytes :=
  [longTags.tool ++ Bytes.ofText "\x7b\"a\":\"" ++ longTags.tool ++
    Bytes.ofText "\x7b\"tool_name\":\"\",\"additional_kwargs\":0\x7d"]

/-- The end of the answer does not always do what a tag does. What the lexer has passed of these
bytes breaks off inside a string, so at the end of the answer the tag in it stays text of that
string, and the notice behind it is lost. A tag behind the same bytes lets the whole body be judged;
no value goes on like that, and the notice is handed over. -/
theorem end_differs_from_a_tag :
    ¬ ∀ (id : String) (settings : DemuxSettings) (session : Session) (chunks : List Bytes)
      (kind : TagKind), settings.check = .ok () → start id settings = .ok session →
      session.lexer.tags.StandsBehind chunks.flatten kind →
      (session.receive (.fresh .accepting) chunks).fault = none →
      (session.receive (.fresh .accepting)
        (chunks ++ [session.lexer.tags.bytes kind])).fault = none →
      SameEvents (session.receive (.fresh .accepting) chunks)
        (session.receive (.fresh .accepting) (chunks ++ [session.lexer.tags.bytes kind])) := by
  intro always
  let session : Session := { standard "s" with lexer := .fresh longTags }
  have lost : (session.receive (.fresh .accepting) hiddenNotice).outbox.payloads.length = 0 := by
    decide +kernel
  have handed : (session.receive (.fresh .accepting)
      (hiddenNotice ++ [longTags.bytes .tool])).outbox.payloads.length = 1 := by
    decide +kernel
  have same := (always "s" longSettings session hiddenNotice .tool (by decide +kernel)
    (by rfl) (by decide +kernel) (by decide +kernel) (by decide +kernel)).payloads
  rw [same] at lost
  exact absurd (handed.symm.trans lost) (by decide)

end Session

end Unbraid
