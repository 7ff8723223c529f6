import Mathlib.Data.List.TakeWhile
import Unbraid.Proofs.Frame.Buffer
import Unbraid.Proofs.Session.Handling

/-!
# A pass

The messages that a pass handles are written down as it handles them (`Called.steps`). What is
written down is what is done: each step finds what the step before it has left, and the last leaves
what the pass leaves (`handleAll_linked`, for any consumer and any messages).

* With a consumer that takes everything, each message of the agenda is handled once, as one that
  cannot grow, and none is deferred (`handleAll_spec`).
* The agenda is the messages that have ended, the tool messages first (`agenda_append`).
* A message that cannot grow is never deferred, whatever the consumer does (`handle_ne_deferred`),
  so the first message that a pass leaves unresolved is the first that may still grow
  (`find?_unresolved`), and that is where the buffer is consumed up to.
* In the offsets of the stream, this is where the window is done with (`Follows.consumed`).
-/

namespace Unbraid

namespace Step

def message (step : Step) : Message := step.frame.message

/-- The message was handled as one that cannot grow, and it was not deferred. -/
def Concludes (step : Step) : Prop :=
  Session.isSettled step.final step.frame = true ∧
    ∃ outcome, step.handled.result = .ok outcome ∧ outcome ≠ .deferred

/-- The message is done with: it led to an event, or it never will. -/
def resolves (step : Step) : Bool :=
  match step.handled.result with
  | .ok outcome => outcome != .deferred
  | .error _ => false

end Step

namespace Session

/-- What the handlers keep in a session. -/
structure SameAccount (session other : Session) : Prop where
  ledger : other.ledger = session.ledger
  transcript : other.transcript = session.transcript
  dropped : other.dropped = session.dropped

theorem SameAccount.trans {first second third : Session} (one : SameAccount first second)
    (two : SameAccount second third) : SameAccount first third :=
  ⟨two.ledger.trans one.ledger, two.transcript.trans one.transcript,
    two.dropped.trans one.dropped⟩

/-- Steps that lead from a session and an outbox to others: every step finds the account and the
outbox that the one before it has left, and nothing happens to them between two steps. -/
inductive Linked : Session → Outbox → List Step → Session → Outbox → Prop where
  | done {session last : Session} {outbox : Outbox} (same : SameAccount session last) :
      Linked session outbox [] last outbox
  | step {session last : Session} {outbox after : Outbox} {step : Step} {rest : List Step}
      (same : SameAccount session step.session) (found : step.outbox = outbox)
      (later : Linked step.handled.state step.handled.outbox rest last after) :
      Linked session outbox (step :: rest) last after

namespace Linked

variable {session other middle last next : Session} {outbox between after : Outbox}
  {steps more : List Step}

theorem of_same (same : SameAccount other session)
    (linked : Linked session outbox steps last after) : Linked other outbox steps last after := by
  cases linked with
  | done kept => exact .done (same.trans kept)
  | step kept found later => exact .step (same.trans kept) found later

theorem append (linked : Linked session outbox steps middle between)
    (further : Linked middle between more last after) :
    Linked session outbox (steps ++ more) last after := by
  induction linked with
  | done same => exact further.of_same same
  | step same found _ ih => exact .step same found (ih further)

theorem to_same (linked : Linked session outbox steps last after)
    (same : SameAccount last next) : Linked session outbox steps next after := by
  have whole := linked.append (.done same)
  rwa [List.append_nil] at whole

end Linked

/-! ## Messages one after the other -/

section

variable {session : Session} {outbox : Outbox} {final : Bool} {frame : Frame}

theorem handleAll_of_error {refusal : Fault}
    (result : (session.handle final frame outbox).result = .error refusal) (rest : List Frame) :
    handleAll final outbox session (frame :: rest) =
      ⟨some refusal, (session.handle final frame outbox).state,
        (session.handle final frame outbox).outbox, [⟨session, outbox, final, frame⟩]⟩ := by
  simp only [handleAll, Step.handled, result]

theorem handleAll_of_ok {outcome : Outcome}
    (result : (session.handle final frame outbox).result = .ok outcome) (rest : List Frame) :
    handleAll final outbox session (frame :: rest) =
      (handleAll final (session.handle final frame outbox).outbox
        (session.handle final frame outbox).state rest).after
          ⟨session, outbox, final, frame⟩ := by
  simp only [handleAll, Step.handled, result]

variable (session outbox final)

theorem handleAll_linked (frames : List Frame) :
    Linked session outbox (handleAll final outbox session frames).steps
      (handleAll final outbox session frames).session
      (handleAll final outbox session frames).outbox := by
  induction frames generalizing session outbox with
  | nil => exact .done ⟨rfl, rfl, rfl⟩
  | cons frame rest ih =>
    have first := ih (session.handle final frame outbox).state
      (session.handle final frame outbox).outbox
    cases result : (session.handle final frame outbox).result with
    | error refusal =>
      rw [handleAll_of_error result]
      exact .step ⟨rfl, rfl, rfl⟩ rfl (.done ⟨rfl, rfl, rfl⟩)
    | ok outcome =>
      rw [handleAll_of_ok result]
      exact .step ⟨rfl, rfl, rfl⟩ rfl first

/-- Unless the consumer refuses something, all messages are handled, each once. -/
theorem handleAll_steps {frames : List Frame}
    (taken : (handleAll final outbox session frames).fault = none) :
    (handleAll final outbox session frames).steps.map Step.frame = frames ∧
      ∀ step ∈ (handleAll final outbox session frames).steps, step.final = final ∧
        ∃ outcome, step.handled.result = .ok outcome := by
  induction frames generalizing session outbox with
  | nil => exact ⟨rfl, nofun⟩
  | cons frame rest ih =>
    cases result : (session.handle final frame outbox).result with
    | error refusal => rw [handleAll_of_error result] at taken; cases taken
    | ok outcome =>
      rw [handleAll_of_ok result] at taken ⊢
      obtain ⟨same, each⟩ := ih _ _ taken
      refine ⟨congrArg (frame :: ·) same, fun step present => ?_⟩
      rcases List.mem_cons.1 present with rfl | later
      · exact ⟨rfl, outcome, result⟩
      · exact each step later

/-- A message that cannot grow is never deferred, whatever the consumer does. A pass handles no
others, so no deferral ever stops it. -/
theorem handle_ne_deferred {frame : Frame} (settled : isSettled final frame = true) :
    (session.handle final frame outbox).result ≠ .ok .deferred := by
  have ledger : (session.ledger.handle frame.body true outbox).result ≠ .ok .deferred := by
    rw [Ledger.handle]
    split
    · simp
    · simp
    · split
      · simp
      · rw [Ledger.enter]
        split
        · simp
        · split <;> simp
  have transcript : (session.transcript.handle frame.body true outbox).result ≠ .ok .deferred := by
    rw [Transcript.handle]
    split
    · simp
    · simp
    · split
      · simp
      · rw [Transcript.add]
        split <;> simp
  intro deferred
  rw [handle] at deferred
  cases kind : frame.kind with
  | tool =>
    simp only [kind, settled] at deferred
    split at deferred
    · next dropped => rw [dropped] at deferred; cases deferred
    · exact ledger deferred
  | model =>
    simp only [kind, settled] at deferred
    split at deferred
    · next dropped => rw [dropped] at deferred; cases deferred
    · exact transcript deferred

end

/-- Messages that are handled once each, as ones that cannot grow. -/
structure Concluded (messages : List Message) (steps : List Step) : Prop where
  once : steps.map Step.message = messages
  conclude : ∀ step ∈ steps, step.Concludes

section

variable {filter : TokenFilter} {session : Session} {outbox : Outbox} {messages : List Message}
  {final : Bool}

theorem handleAll_concluded {frames : List Frame}
    (settled : ∀ frame ∈ frames, isSettled final frame = true)
    (taken : (handleAll final outbox session frames).fault = none) :
    Concluded (frames.map Frame.message) (handleAll final outbox session frames).steps := by
  obtain ⟨same, each⟩ := handleAll_steps session outbox final taken
  refine ⟨?_, fun step present => ?_⟩
  · have messages := congrArg (List.map Frame.message) same
    rw [List.map_map] at messages
    exact messages
  · obtain ⟨last, outcome, result⟩ := each step present
    have among : step.frame ∈ frames := by
      rw [← same]
      exact List.mem_map_of_mem present
    have ready : isSettled step.final step.frame = true := by
      rw [last]
      exact settled step.frame among
    refine ⟨ready, outcome, result, fun deferred => ?_⟩
    rw [deferred] at result
    exact handle_ne_deferred step.session step.outbox step.final ready result

/-- What handling some messages comes to, with a consumer that takes everything. -/
structure HandlesAll (filter : TokenFilter) (session : Session) (messages more : List Message)
    (called : Called) : Prop where
  fault : called.fault = none
  reflects : Reflects filter called.session called.outbox (messages ++ more)
  sameInput : SameInput session called.session
  concluded : Concluded more called.steps

theorem handleAll_spec (reflects : Reflects filter session outbox messages) {frames : List Frame}
    (settled : ∀ frame ∈ frames, isSettled final frame = true) :
    HandlesAll filter session messages (frames.map Frame.message)
      (handleAll final outbox session frames) := by
  have all : (handleAll final outbox session frames).fault = none ∧
      Reflects filter (handleAll final outbox session frames).session
        (handleAll final outbox session frames).outbox (messages ++ frames.map Frame.message) ∧
      SameInput session (handleAll final outbox session frames).session := by
    induction frames generalizing session outbox messages with
    | nil =>
      rw [List.map_nil, List.append_nil]
      exact ⟨rfl, reflects, rfl, rfl, rfl, rfl⟩
    | cons frame rest ih =>
      obtain ⟨⟨outcome, result, -⟩, one, same⟩ :=
        handle_reflects reflects (settled frame List.mem_cons_self)
      obtain ⟨fault, later, kept⟩ :=
        ih one fun next present => settled next (List.mem_cons_of_mem _ present)
      rw [List.append_assoc, List.singleton_append, ← List.map_cons] at later
      rw [handleAll_of_ok result]
      exact ⟨fault, later, same.trans kept⟩
  exact ⟨all.1, all.2.1, all.2.2, handleAll_concluded settled all.1⟩

end

/-! ## The messages of a pass -/

theorem agenda_append {final : Bool} {settled rest : List Frame}
    (ended : ∀ frame ∈ settled, isSettled final frame = true)
    (growing : ∀ frame ∈ rest, isSettled final frame = false) :
    (agenda final (settled ++ rest)).map Frame.message =
      Message.byKind (settled.map Frame.message) := by
  have each : ∀ kind : TagKind,
      ((settled ++ rest).filter fun frame => frame.kind = kind).takeWhile (isSettled final) =
        settled.filter fun frame => frame.kind = kind := by
    intro kind
    have stops : (rest.filter fun frame => frame.kind = kind).takeWhile (isSettled final) = [] := by
      cases left : rest.filter fun frame => frame.kind = kind with
      | nil => rfl
      | cons frame _ =>
        have present : frame ∈ rest := List.mem_of_mem_filter (left ▸ List.mem_cons_self)
        rw [List.takeWhile_cons_of_neg (by simp [growing frame present])]
    rw [List.filter_append, List.takeWhile_append_of_pos, stops, List.append_nil]
    intro frame present
    exact ended frame (List.mem_of_mem_filter present)
  have apart : ∀ kind : TagKind,
      (settled.filter fun frame => frame.kind = kind).map Frame.message =
        Message.ofKind kind (settled.map Frame.message) := by
    intro kind
    rw [Message.ofKind, List.filter_map]
    rfl
  rw [agenda, List.flatMap_cons, List.flatMap_cons, List.flatMap_nil, List.append_nil, each, each,
    List.map_append, apart, apart]
  rfl

theorem agenda_all (frames : List Frame) :
    (agenda true frames).map Frame.message = Message.byKind (frames.map Frame.message) := by
  have ended : ∀ frame ∈ frames, isSettled true frame = true := fun _ _ => rfl
  have growing : ∀ frame ∈ ([] : List Frame), isSettled true frame = false :=
    fun _ none => absurd none List.not_mem_nil
  rw [← agenda_append ended growing, List.append_nil]

/-- A pass consumes what comes before the first message that may still grow, and the messages before
that one have all ended. -/
theorem consumed_append (session : Session) {final : Bool} {settled : List Frame} {last : Frame}
    (ended : ∀ frame ∈ settled, isSettled final frame = true)
    (growing : isSettled final last = false) :
    session.consumed final (settled ++ [last]) = last.tagOffset := by
  have before : settled.find? (fun frame => !isSettled final frame) = none := by
    refine List.find?_eq_none.2 fun frame present => ?_
    simp [ended frame present]
  have first : (settled ++ [last]).find? (fun frame => !isSettled final frame) = some last := by
    rw [List.find?_append, before, Option.none_or]
    exact List.find?_cons_of_pos (by simp [growing])
  simp only [Session.consumed, first]

theorem isSettled_of_mem_agenda {final : Bool} {frames : List Frame} {frame : Frame}
    (present : frame ∈ agenda final frames) : isSettled final frame = true := by
  obtain ⟨kind, -, taken⟩ := List.mem_flatMap.1 present
  exact List.mem_takeWhile_imp taken

theorem mem_agenda_of_all {final : Bool} {frames : List Frame} {frame : Frame}
    (before : ∃ earlier later, frames = earlier ++ frame :: later ∧
      ∀ other ∈ earlier, isSettled final other = true)
    (settled : isSettled final frame = true) : frame ∈ agenda final frames := by
  obtain ⟨earlier, later, rfl, ended⟩ := before
  refine List.mem_flatMap.2 ⟨frame.kind, by cases frame.kind <;> decide, ?_⟩
  rw [List.filter_append, List.takeWhile_append_of_pos fun other present =>
    ended other (List.mem_of_mem_filter present), List.filter_cons_of_pos (by simp),
    List.takeWhile_cons_of_pos settled]
  exact List.mem_append_right _ List.mem_cons_self

/-- The first message that is not on the agenda is the first that may still grow, wherever messages
of the other kind stand. -/
theorem find?_not_mem_agenda (final : Bool) (frames : List Frame) :
    frames.find? (fun frame => frame ∉ agenda final frames) =
      frames.find? (fun frame => !isSettled final frame) := by
  cases first : frames.find? (fun frame => !isSettled final frame) with
  | none =>
    have ended := List.find?_eq_none.1 first
    refine List.find?_eq_none.2 fun frame present => ?_
    obtain ⟨earlier, later, split⟩ := List.append_of_mem present
    have settled : ∀ other ∈ frames, isSettled final other = true := fun other among => by
      simpa using ended other among
    simpa using mem_agenda_of_all ⟨earlier, later, split, fun other among =>
      settled other (split ▸ List.mem_append_left _ among)⟩ (settled frame present)
  | some frame =>
    obtain ⟨growing, earlier, later, split, ended⟩ := List.find?_eq_some_iff_append.1 first
    refine List.find?_eq_some_iff_append.2 ⟨?_, earlier, later, split, fun other among => ?_⟩
    · have absent : frame ∉ agenda final frames := fun present => by
        rw [isSettled_of_mem_agenda present] at growing
        cases growing
      simpa using absent
    · have settled : ∀ other ∈ earlier, isSettled final other = true := fun other among => by
        simpa using ended other among
      obtain ⟨before, after, cut⟩ := List.append_of_mem among
      have present : other ∈ agenda final frames :=
        mem_agenda_of_all ⟨before, after ++ frame :: later, by rw [split, cut]; simp,
          fun another within => settled another (cut ▸ List.mem_append_left _ within)⟩
          (settled other among)
      simpa using present

/-- What a pass leaves unresolved begins where the first message may still grow. So it makes no
difference whether a pass consumes up to the first message that cannot be settled, or marks the
messages as it resolves them and consumes up to the first without a mark. -/
theorem find?_unresolved {session : Session} {outbox : Outbox} {final : Bool} {frames : List Frame}
    (taken : (handleAll final outbox session (agenda final frames)).fault = none) :
    frames.find? (fun frame => frame ∉
        ((handleAll final outbox session (agenda final frames)).steps.filter
          Step.resolves).map Step.frame) =
      frames.find? (fun frame => !isSettled final frame) := by
  have settled : ∀ frame ∈ agenda final frames, isSettled final frame = true :=
    fun _ present => isSettled_of_mem_agenda present
  have concluded := handleAll_concluded settled taken
  have resolved : (handleAll final outbox session (agenda final frames)).steps.filter
      Step.resolves = (handleAll final outbox session (agenda final frames)).steps := by
    refine List.filter_eq_self.2 fun step present => ?_
    obtain ⟨-, outcome, result, kept⟩ := concluded.conclude step present
    rw [Step.resolves, result]
    exact bne_iff_ne.2 kept
  rw [resolved, (handleAll_steps session outbox final taken).1]
  exact find?_not_mem_agenda final frames

theorem drain_steps (session : Session) (outbox : Outbox) (final : Bool) :
    (session.drain final outbox).steps =
      (handleAll final outbox session.lexed (agenda final session.lexed.frames)).steps := by
  rw [drain]
  split <;> rfl

/-- What is written down of a pass is what happens in it. -/
theorem drain_linked (session : Session) (outbox : Outbox) (final : Bool) :
    Linked session outbox (session.drain final outbox).steps (session.drain final outbox).session
      (session.drain final outbox).outbox := by
  have lexed : SameAccount session session.lexed := ⟨rfl, rfl, rfl⟩
  have linked := (handleAll_linked session.lexed outbox final
    (agenda final session.lexed.frames)).of_same lexed
  rw [drain]
  split
  · exact linked
  · exact linked.to_same ⟨rfl, rfl, rfl⟩

/-! ## The buffer before and after a pass -/

/-- The session has received these bytes, and has consumed those up to an offset. -/
structure Follows (tags : TagPair) (received : Bytes) (done : Nat) (session : Session) : Prop where
  lexer : session.lexer = (Lexer.after tags received).consume done
  buffer : session.buffer = received.drop done
  inside : done ≤ (Lexer.after tags received).position
  bytesIn : session.bytesIn = received.length

section

variable {tags : TagPair} {received : Bytes} {done : Nat} {session other : Session}

theorem Follows.of_sameInput (follows : Follows tags received done session)
    (same : SameInput session other) : Follows tags received done other :=
  ⟨same.lexer.trans follows.lexer, same.buffer.trans follows.buffer, follows.inside,
    same.bytesIn.trans follows.bytesIn⟩

theorem Follows.frames (follows : Follows tags received done session) :
    session.frames = (Frame.window tags received done).map (Frame.back done) := by
  rw [Session.frames, follows.lexer, follows.buffer, Frame.allFrom_buffer]

theorem isSettled_of_mem_ended {count : Nat} :
    ∀ frame ∈ (Frame.ended tags received done).map (Frame.back count),
      isSettled false frame = true := by
  intro frame present
  obtain ⟨original, known, rfl⟩ := List.mem_map.1 present
  exact (List.mem_filter.1 known).2

theorem message_back (count : Nat) : Frame.message ∘ Frame.back count = Frame.message := rfl

theorem Follows.agenda (follows : Follows tags received done session) :
    (Session.agenda false session.frames).map Frame.message =
      Message.byKind ((Frame.ended tags received done).map Frame.message) := by
  rw [follows.frames]
  cases found : (Lexer.after tags received).hitFrom? done with
  | none =>
    rw [Frame.window_of_none found, (Frame.ended_of_none found).1]
    rfl
  | some hit =>
    obtain ⟨last, growing, -, whole⟩ := Frame.exists_last found
    rw [whole, List.map_append, agenda_append isSettled_of_mem_ended, List.map_map, message_back]
    · intro frame present
      rw [List.map_singleton, List.mem_singleton] at present
      rw [present]
      exact growing

theorem Follows.consumed (follows : Follows tags received done session) :
    done + session.consumed false session.frames = Frame.settled tags received done := by
  rw [follows.frames]
  have inside := follows.inside
  cases found : (Lexer.after tags received).hitFrom? done with
  | none =>
    have first : session.lexer.firstHit? = none := by
      rw [Lexer.hitFrom?, List.find?_eq_head?_dropWhile_not] at found
      rw [Lexer.firstHit?, follows.lexer, Lexer.consume_hits, List.head?_map]
      simp only [← Nat.not_lt, decide_not, Bool.not_not] at found
      rw [found, Option.map_none]
    have nothing : session.consumed false [] = session.lexer.preamble := rfl
    rw [Frame.window_of_none found, (Frame.ended_of_none found).2, List.map_nil, nothing,
      Lexer.preamble, first, follows.lexer, Lexer.consume_position]
    exact Nat.add_sub_cancel' inside
  | some hit =>
    obtain ⟨last, growing, offset, whole⟩ := Frame.exists_last found
    have known : last ∈ Frame.window tags received done := by
      rw [whole]
      exact List.mem_append_right _ List.mem_cons_self
    obtain ⟨tag, -, beyond, rfl⟩ := Frame.of_mem_window known
    rw [Frame.messageAt_tagOffset] at offset
    have open' : isSettled false ((Frame.messageAt tags received tag).back done) = false := growing
    have stop : ((Frame.messageAt tags received tag).back done).tagOffset = tag.offset - done := by
      rw [Frame.back, Frame.messageAt_tagOffset]
    rw [whole, List.map_append, List.map_singleton,
      consumed_append session isSettled_of_mem_ended open', stop]
    omega

end

end Session

end Unbraid
