import Mathlib.Data.List.Induction
import Unbraid.Proofs.Frame.Held
import Unbraid.Proofs.Session.Calls

/-!
# What a session holds back

Between two chunks a session holds one message that may still grow, or, before the first tag, the
few bytes that may be the beginning of one (`held_bytes`). Whatever has ended has been handled, so
a chunk without bytes changes nothing (`Holds.feed_nil`). None of this depends on the consumer, as
long as it refuses nothing.
-/

namespace Unbraid.Session

theorem feedAll_concat (session : Session) (outbox : Outbox) (chunks : List Bytes)
    (chunk : Bytes) :
    session.feedAll outbox (chunks ++ [chunk]) =
      let called := session.feedAll outbox chunks
      if called.isFault then called else called.session.feed chunk called.outbox := by
  rw [feedAll, List.map_append, Called.run_append rfl, ← feedAll]
  dsimp only
  split
  · rfl
  · rw [List.map_singleton, Called.run_cons]
    dsimp only
    split <;> rfl

/-- To prove something of a session that has taken some chunks, prove it of one that has taken none,
and show that one more chunk that is taken keeps it. -/
theorem feedAll_induction {motive : Bytes → Session → Outbox → Prop}
    (step : ∀ received session outbox chunk, motive received session outbox →
      (session.feed chunk outbox).fault = none →
      motive (received ++ chunk) (session.feed chunk outbox).session
        (session.feed chunk outbox).outbox)
    {received : Bytes} {session : Session} {outbox : Outbox} {chunks : List Bytes}
    (first : motive received session outbox)
    (taken : (session.feedAll outbox chunks).fault = none) :
    motive (received ++ chunks.flatten) (session.feedAll outbox chunks).session
      (session.feedAll outbox chunks).outbox := by
  induction chunks using List.reverseRecOn with
  | nil =>
    rw [List.flatten_nil, List.append_nil]
    exact first
  | append_singleton chunks chunk ih =>
    rw [feedAll_concat] at taken ⊢
    dsimp only at taken ⊢
    cases before : (session.feedAll outbox chunks).fault with
    | some cause =>
      rw [if_pos (by simp [Called.isFault, before]), before] at taken
      cases taken
    | none =>
      have goesOn : ¬ (session.feedAll outbox chunks).isFault = true := by
        simp [Called.isFault, before]
      rw [if_neg goesOn] at taken ⊢
      rw [List.flatten_append, List.flatten_singleton, ← List.append_assoc]
      exact step _ _ _ chunk (ih before) taken

/-- Between two chunks: what has been received, the offset up to which it is done with, and the
limit. -/
structure Holds (tags : TagPair) (received : Bytes) (done : Nat) (session : Session) : Prop where
  phase : session.phase = .receiving
  follows : Follows tags received done session
  held : Frame.Held tags received done
  within : session.buffer.length ≤ session.maxBufferBytes

section

variable {tags : TagPair} {received : Bytes} {done : Nat} {session : Session} {outbox : Outbox}
  {chunk : Bytes}

theorem Holds.of_start {id : String} {settings : DemuxSettings}
    (started : start id settings = .ok session) : Holds session.lexer.tags [] 0 session := by
  obtain ⟨phase, follows, -⟩ := (Receives.of_start started).2
  refine ⟨phase, follows, Frame.held_nil _, ?_⟩
  rw [follows.buffer]
  exact Nat.zero_le _

/-- A pass in which nothing was refused consumes the bytes up to where the window is done with. -/
theorem drain_follows (follows : Follows tags received done session.lexed)
    (taken : (session.drain false outbox).fault = none) :
    Follows tags received (Frame.settled tags received done)
      (session.drain false outbox).session := by
  obtain ⟨other, same, consumed⟩ := drain_of_taken session outbox false taken
  have kept := follows.of_sameInput same
  rw [consumed]
  refine ⟨?_, ?_, Frame.settled_le_position .., kept.bytesIn⟩
  · rw [← follows.consumed, ← Lexer.consume_consume, ← kept.lexer]
    rfl
  · rw [← follows.consumed, ← List.drop_drop, ← kept.buffer]
    rfl

theorem Holds.feed (holds : Holds tags received done session)
    (taken : (session.feed chunk outbox).fault = none) :
    Holds tags (received ++ chunk) (Frame.settled tags (received ++ chunk) done)
      (session.feed chunk outbox).session := by
  obtain ⟨fed, drained, within⟩ := feed_of_taken holds.phase taken
  have follows := holds.follows.add chunk (session.add chunk) rfl rfl rfl
  rw [fed]
  refine ⟨?_, drain_follows follows drained, holds.held.next chunk, ?_⟩
  · exact (drain_phase (session.add chunk) outbox false).trans holds.phase
  · rw [drain_maxBufferBytes (session.add chunk) outbox false]
    exact Nat.le_of_not_lt fun beyond => within ⟨drained, beyond⟩

theorem Holds.lexed (holds : Holds tags received done session) : session.lexed = session := by
  have again := holds.follows.add [] session rfl (List.append_nil _).symm rfl
  rw [List.append_nil] at again
  have same : session.lexed.lexer = session.lexer :=
    again.lexer.trans holds.follows.lexer.symm
  show { session with lexer := session.lexed.lexer } = session
  rw [same]

/-- No message that is held has ended. -/
theorem Holds.agenda (holds : Holds tags received done session) :
    Session.agenda false session.frames = [] := by
  have none := holds.follows.agenda
  rw [holds.held.settled_eq.1] at none
  exact List.map_eq_nil_iff.1 none

theorem Holds.consumed (holds : Holds tags received done session) :
    session.consumed false session.frames = 0 := by
  have settled := holds.follows.consumed
  rw [holds.held.settled_eq.2] at settled
  omega

theorem Holds.feed_nil (holds : Holds tags received done session) (outbox : Outbox) :
    session.feed [] outbox = ⟨none, session, outbox, []⟩ := by
  have none : session.add [] = session := by rw [Session.add, List.append_nil]; rfl
  have rest : session.consume 0 = session := by rw [consume, Lexer.consume_zero]; rfl
  have idle : session.drain false outbox = ⟨.none, session, outbox, []⟩ := by
    rw [drain, holds.lexed, holds.agenda, holds.consumed]
    simp only [handleAll, rest]
  rw [feed_of_receiving holds.phase, none, idle]
  simp only [if_neg (Nat.not_lt.2 holds.within)]

end

/-- What a session holds when it has received some bytes. -/
structure HoldsBack (tags : TagPair) (received : Bytes) (session : Session) : Prop where
  suffix : session.buffer <:+ received
  /-- Before the first tag, the last bytes, as many as can be the beginning of one; after that, one
  message that may still grow. -/
  shape :
    ((∀ kind, ¬ tags.bytes kind <:+: received) ∧ session.frames = [] ∧
      session.buffer = received.drop (received.length - (tags.length - 1))) ∨
    ∃ kind frame, session.lexer.firstHit? = some ⟨0, kind⟩ ∧
      tags.bytes kind <+: session.buffer ∧ session.frames = [frame] ∧ frame.kind = kind ∧
      frame.complete = false ∧ frame.tagOffset = 0 ∧ frame.stop = session.buffer.length
  /-- Nothing more can be made of it. -/
  idle : ∀ outbox, session.feed [] outbox = ⟨none, session, outbox, []⟩

section

variable {tags : TagPair} {received : Bytes} {done : Nat} {hit : Hit} {session : Session}

theorem firstHit?_consume (recorded : hit ∈ (Lexer.after tags received).hits) :
    ((Lexer.after tags received).consume hit.offset).firstHit? = some ⟨0, hit.kind⟩ := by
  rw [Lexer.firstHit?, Lexer.consume_hits_of_mem recorded, List.map_cons, List.head?_cons, Hit.back,
    Nat.sub_self]

theorem Follows.frames_of_isOpen (follows : Follows tags received hit.offset session)
    (growing : Frame.IsOpen tags received hit) :
    session.frames = [(Frame.messageAt tags received hit).back hit.offset] := by
  rw [follows.frames, growing.window.2.2]
  rfl

theorem Holds.holdsBack (holds : Holds tags received done session) :
    HoldsBack tags received session := by
  have buffer := holds.follows.buffer
  have frames := holds.follows.frames
  refine ⟨?_, ?_, holds.feed_nil⟩
  · rw [buffer]
    exact List.drop_suffix ..
  · cases holds.held with
    | noTag absent =>
      have nowhere := Frame.hitFrom?_of_noTag absent
      left
      refine ⟨?_, ?_, ?_⟩
      · have first := nowhere 0
        rw [Frame.hitFrom?_zero, Lexer.after_hits, TagPair.occurrences_eq] at first
        cases found : tags.findFrom received 0 with
        | none => exact TagPair.not_infix_of_absent found
        | some hit => rw [found] at first; cases first
      · rw [frames, Frame.window_of_none (nowhere _), List.map_nil]
      · rw [Lexer.after_hits] at absent
        rw [buffer, Lexer.after_position, absent, TagPair.reach_nil, Nat.zero_max]
    | @message hit growing =>
      have inside := Frame.end_le_length growing.1
      right
      refine ⟨hit.kind, (Frame.messageAt tags received hit).back hit.offset, ?_, ?_, ?_, ?_, ?_, ?_,
        ?_⟩
      · rw [holds.follows.lexer]
        exact firstHit?_consume growing.1
      · rw [buffer]
        exact Lexer.stands_of_mem growing.1
      · exact holds.follows.frames_of_isOpen growing
      · exact Frame.messageAt_kind
      · exact growing.2
      · show (Frame.messageAt tags received hit).tagOffset - hit.offset = 0
        rw [Frame.messageAt_tagOffset, Nat.sub_self]
      · show (Frame.messageAt tags received hit).stop - hit.offset = _
        rw [Frame.messageAt_open growing.1 growing.2, buffer, List.length_drop]

end

/-- After any chunks that were all taken, by whatever consumer, a session holds a suffix of what it
has received: before the first tag the last bytes, as many as can be the beginning of one, and later
one message that may still grow, with its tag at the beginning of the buffer. Whatever has ended has
been handled, so a chunk without bytes changes nothing. -/
theorem held_bytes {id : String} {settings : DemuxSettings} {session : Session}
    {consumer : Consumer} {chunks : List Bytes} (started : start id settings = .ok session)
    (taken : (session.feedAll (.fresh consumer) chunks).fault = none) :
    HoldsBack session.lexer.tags chunks.flatten
      (session.feedAll (.fresh consumer) chunks).session := by
  have ⟨done, holds⟩ := feedAll_induction
    (motive := fun received held _ => ∃ done, Holds session.lexer.tags received done held)
    (fun _ _ _ _ ⟨_, holds⟩ taken => ⟨_, holds.feed taken⟩) ⟨0, Holds.of_start started⟩ taken
  exact holds.holdsBack

theorem held_bytes_of_a_cut_message :
    let chunks := [Bytes.ofText "1Tool :2To", Bytes.ofText "ly :[3,"]
    let called := (standard "s").feedAll (.fresh .accepting) chunks
    called.fault = none ∧ called.session.buffer = Bytes.ofText "Toly :[3," ∧
      HoldsBack .standard chunks.flatten called.session :=
  ⟨by decide, by decide, held_bytes (start_standard "s") (by decide)⟩

end Unbraid.Session
