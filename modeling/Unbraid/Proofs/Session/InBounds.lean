import Unbraid.Proofs.Frame.InBounds
import Unbraid.Proofs.Session.CutOff
import Unbraid.Proofs.Session.Refusal

/-!
# Sessions inside their buffers

The run of a session once more, with every access to its buffer checked and with limits on the turns
of the loops (`performAll?`): where an access is out of range, a difference is negative or the turns
run out, it comes to nothing.

This never happens. The lexer of a session is in order between two calls and at the beginning of
every pass (`Safe`), and from a lexer in order no check fails; so the checked run is the plain one,
whatever the session is called with and whatever its consumer refuses (`Session.runs_in_bounds`).
-/

namespace Unbraid.Session

open Checked

/-! ## Checked calls -/

/-- As `consume`, with what is removed checked to be in the buffer. -/
def consume? (session : Session) (count : Nat) : Option Session := do
  let buffer ← slice? session.buffer count session.buffer.length
  let lexer ← session.lexer.consume? count
  some { session with buffer, lexer }

def drain? (session : Session) (final : Bool) (outbox : Outbox) : Option Called := do
  let lexer ← session.lexer.advance? session.buffer
  let session := { session with lexer }
  let frames ← Frame.framesFrom? lexer session.buffer session.buffer.length lexer.firstHit?
  let called := handleAll final outbox session (agenda final frames)
  match called.fault with
  | some _ => some called
  | none =>
    let next ← called.session.consume? (session.consumed final frames)
    some { called with session := next }

def feed? (session : Session) (chunk : Bytes) (outbox : Outbox) : Option Called :=
  if session.phase = .receiving then do
    let called ← (session.add chunk).drain? false outbox
    match called.fault with
    | some refusal =>
      some ⟨some refusal, called.session.release .failed, called.outbox, called.steps⟩
    | none =>
      if called.session.maxBufferBytes < called.session.buffer.length then
        some { called.session.abort (SessionFault.overLimit called.session.maxBufferBytes).fault
            called.outbox with steps := called.steps }
      else some called
  else some ⟨some session.notOpen, session, outbox, []⟩

def finish? (session : Session) (outbox : Outbox) : Option Called :=
  if session.phase = .receiving then do
    let called ← { session with phase := .draining }.drain? true outbox
    match called.fault with
    | some refusal =>
      some ⟨some refusal, called.session.release .failed, called.outbox, called.steps⟩
    | none =>
      match called.outbox.deliver (.event (.complete called.session.transcript.text)) with
      | (some refusal, outbox) =>
        some ⟨some refusal, called.session.release .failed, outbox, called.steps⟩
      | (none, outbox) => some ⟨none, called.session.release .completed, outbox, called.steps⟩
  else some ⟨some session.notOpen, session, outbox, []⟩

def perform? (session : Session) (outbox : Outbox) : Call → Option Called
  | .feed chunk => session.feed? chunk outbox
  | .finish => session.finish? outbox
  | .abort fault => some (session.abort fault outbox)
  | .cancel => some ⟨none, session.cancel, outbox, []⟩

/-- As `performAll`: nothing if any access of any call was out of range. -/
def performAll? (session : Session) (outbox : Outbox) (calls : List Call) : Option Called :=
  calls.foldlM (fun called call => called.session.perform? called.outbox call)
    (session.uncalled outbox)

/-! ## A pass -/

def InOrder (session : Session) : Prop := session.lexer.InOrder session.buffer

section

variable {session : Session} {outbox : Outbox} {final : Bool}

theorem InOrder.lexed (order : session.InOrder) : session.lexed.InOrder := order.advance

theorem InOrder.add (order : session.InOrder) (chunk : Bytes) : (session.add chunk).InOrder :=
  order.append chunk

theorem inOrder_release (session : Session) (phase : Phase) : (session.release phase).InOrder :=
  .fresh session.lexer.tags

theorem InOrder.of_sameInput {other : Session} (order : session.InOrder)
    (same : SameInput session other) : other.InOrder := by
  rw [InOrder, same.lexer, same.buffer]
  exact order

theorem InOrder.frames (order : session.InOrder) :
    Frame.framesFrom? session.lexer session.buffer session.buffer.length
        session.lexer.firstHit? = some session.frames ∧
      ∀ frame ∈ session.frames, frame.Inside session.buffer := by
  have found := Frame.framesFrom?_eq order (Nat.sub_le session.buffer.length 0)
  rwa [Lexer.hitFrom?_zero, List.drop_zero] at found

theorem InOrder.consumed_le (order : session.InOrder) (final : Bool) :
    session.consumed final session.frames ≤ session.buffer.length := by
  have inside := order.frames.2
  rw [consumed]
  split
  · next frame found =>
    obtain ⟨tag, ordered, stop⟩ := inside frame (List.mem_of_find?_eq_some found)
    omega
  · split
    · exact Nat.le_refl _
    · split
      · next frame last => exact (inside frame (List.mem_of_getLast? last)).stop
      · rw [Lexer.preamble]
        split
        · next hit first =>
          have := Lexer.InOrder.end_le_length order (List.mem_of_mem_head? first)
          omega
        · exact Lexer.InOrder.inside order

theorem InOrder.consume (order : session.InOrder) {count : Nat}
    (within : count ≤ session.buffer.length) :
    session.consume? count = some (session.consume count) ∧ (session.consume count).InOrder := by
  refine ⟨?_, Lexer.InOrder.consume order within⟩
  have rest : (session.buffer.drop count).take (session.buffer.length - count) =
      session.buffer.drop count := List.take_of_length_le (List.length_drop ▸ Nat.le_refl _)
  rw [consume?, slice?_eq within (Nat.le_refl _), rest, Lexer.consume?_eq order]
  rfl

/-- A pass leaves the lexer in order, and no access of it is out of range. -/
theorem InOrder.drain (order : session.InOrder) (final : Bool) (outbox : Outbox) :
    session.drain? final outbox = some (session.drain final outbox) ∧
      (session.drain final outbox).session.InOrder := by
  have lexed := order.lexed
  have same := (handleAll_sameInput session.lexed outbox final
    (agenda final session.lexed.frames)).1
  have found : Frame.framesFrom? (session.lexer.advance session.buffer) session.buffer
      session.buffer.length (session.lexer.advance session.buffer).firstHit? =
        some session.lexed.frames := lexed.frames.1
  have within := lexed.consumed_le final
  rw [← same.buffer] at within
  obtain ⟨consumed, kept⟩ := (lexed.of_sameInput same).consume within
  have checked : session.drain? final outbox =
      let called := handleAll final outbox session.lexed (agenda final session.lexed.frames)
      match called.fault with
      | some _ => some called
      | none =>
        (called.session.consume? (session.lexed.consumed final session.lexed.frames)).bind
          fun next => some { called with session := next } := by
    rw [drain?, Lexer.advance?_eq, Option.bind_eq_bind, Option.bind_some]
    dsimp only
    rw [found]
    rfl
  rw [checked, Session.drain]
  dsimp only
  cases fault :
    (handleAll final outbox session.lexed (agenda final session.lexed.frames)).fault with
  | some refusal => exact ⟨rfl, lexed.of_sameInput same⟩
  | none =>
    dsimp only
    rw [consumed]
    exact ⟨rfl, kept⟩

end

/-! ## Calls -/

section

variable {session : Session}

theorem InOrder.abort (order : session.InOrder) (fault : Fault) (outbox : Outbox) :
    (session.abort fault outbox).session.InOrder := by
  rw [Session.abort]
  split
  · exact order
  · exact inOrder_release ..

theorem InOrder.cancel (order : session.InOrder) : session.cancel.InOrder := by
  rw [Session.cancel]
  split
  · exact order
  · exact inOrder_release ..

theorem InOrder.feed (order : session.InOrder) (chunk : Bytes) (outbox : Outbox) :
    session.feed? chunk outbox = some (session.feed chunk outbox) ∧
      (session.feed chunk outbox).session.InOrder := by
  by_cases receiving : session.phase = .receiving
  · obtain ⟨checked, kept⟩ := (order.add chunk).drain false outbox
    rw [feed?, Session.feed, if_pos receiving, if_pos receiving, checked]
    simp only [Option.bind_eq_bind, Option.bind_some]
    cases ((session.add chunk).drain false outbox).fault with
    | some refusal => exact ⟨rfl, inOrder_release ..⟩
    | none =>
      dsimp only
      by_cases beyond : ((session.add chunk).drain false outbox).session.maxBufferBytes <
          ((session.add chunk).drain false outbox).session.buffer.length
      · rw [if_pos beyond, if_pos beyond]
        exact ⟨rfl, kept.abort _ _⟩
      · rw [if_neg beyond, if_neg beyond]
        exact ⟨rfl, kept⟩
  · rw [feed?, Session.feed, if_neg receiving, if_neg receiving]
    exact ⟨rfl, order⟩

theorem InOrder.finish (order : session.InOrder) (outbox : Outbox) :
    session.finish? outbox = some (session.finish outbox) ∧
      (session.finish outbox).session.InOrder := by
  by_cases receiving : session.phase = .receiving
  · have draining : Session.InOrder { session with phase := .draining } := order
    obtain ⟨checked, kept⟩ := draining.drain true outbox
    rw [finish?, if_pos receiving, checked, finish_of_receiving receiving]
    simp only [Option.bind_eq_bind, Option.bind_some]
    generalize Session.drain { session with phase := .draining } true outbox = called
    cases called.fault with
    | some refusal => exact ⟨rfl, inOrder_release ..⟩
    | none =>
      dsimp only
      obtain ⟨refusal, outbox⟩ :=
        called.outbox.deliver (.event (.complete called.session.transcript.text))
      cases refusal with
      | some refusal => exact ⟨rfl, inOrder_release ..⟩
      | none => exact ⟨rfl, inOrder_release ..⟩
  · rw [finish?, Session.finish, if_neg receiving, if_neg receiving]
    exact ⟨rfl, order⟩

/-- No access of a call is out of range, and the lexer is in order after it. -/
theorem InOrder.perform (order : session.InOrder) (outbox : Outbox) (call : Call) :
    session.perform? outbox call = some (session.perform outbox call) ∧
      (session.perform outbox call).session.InOrder := by
  cases call with
  | feed chunk => exact order.feed chunk outbox
  | finish => exact order.finish outbox
  | abort fault => exact ⟨rfl, order.abort fault outbox⟩
  | cancel => exact ⟨rfl, order.cancel⟩

theorem InOrder.performAll (order : session.InOrder) (outbox : Outbox) (calls : List Call) :
    session.performAll? outbox calls = some (session.performAll outbox calls) ∧
      (session.performAll outbox calls).session.InOrder := by
  induction calls using List.reverseRecOn with
  | nil => exact ⟨rfl, order⟩
  | append_singleton calls call ih =>
    obtain ⟨checked, kept⟩ := ih
    obtain ⟨last, ordered⟩ := kept.perform (session.performAll outbox calls).outbox call
    rw [performAll_concat]
    refine ⟨?_, ordered⟩
    rw [performAll?] at checked ⊢
    rw [List.foldlM_append, checked, Option.bind_eq_bind, Option.bind_some, List.foldlM_cons, last]
    rfl

end

/-- What holds of a session and of every pass it may still go through. -/
structure Safe (session : Session) : Prop where
  between : session.InOrder
  /-- In the pass over the next chunk, when the lexer has read the buffer. -/
  next : ∀ chunk, (session.add chunk).lexed.InOrder
  /-- In the last pass. -/
  last : session.lexed.InOrder

/-- Whatever a session is called with, and whatever the consumer refuses, the run with every access
checked and with limits on the turns of the loops is the plain run: no slice, no difference and no
bounds are out of range, and all loops end. The lexer is in order then, and will be in whatever pass
comes next. -/
theorem runs_in_bounds {id : String} {settings : DemuxSettings} {session : Session}
    (started : start id settings = .ok session) (consumer : Consumer) (calls : List Call) :
    session.performAll? (.fresh consumer) calls =
        some (session.performAll (.fresh consumer) calls) ∧
      (session.performAll (.fresh consumer) calls).session.Safe := by
  have order : session.InOrder := by
    obtain ⟨phase, follows, -⟩ := (Receives.of_start started).2
    rw [InOrder, follows.buffer, follows.lexer, Lexer.after_nil, Lexer.consume_zero]
    exact .fresh _
  obtain ⟨checked, kept⟩ := order.performAll (.fresh consumer) calls
  exact ⟨checked, kept, fun chunk => (kept.add chunk).lexed, kept.lexed⟩

/-- A tag that arrives in two parts, a body that is cut off, and a call after the end. -/
theorem runs_in_bounds_of_cut_chunks :
    let calls := [Call.feed (Bytes.ofText "1Tool :2To"), .feed (Bytes.ofText "ly :[3,"), .finish,
      .cancel]
    (standard "s").performAll? (.fresh .accepting) calls =
        some ((standard "s").performAll (.fresh .accepting) calls) ∧
      ((standard "s").performAll (.fresh .accepting) calls).session.Safe :=
  runs_in_bounds (start_standard "s") .accepting _

end Unbraid.Session
