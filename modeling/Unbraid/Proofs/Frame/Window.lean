import Unbraid.Proofs.Frame.Boundary
import Unbraid.Proofs.Message
import Unbraid.Proofs.Tag.Lexer

/-!
# The messages of the bytes that have arrived

`window` lists the messages of the bytes that have arrived, from an offset on, by their offsets in
the stream: the message of the first tag from there on, then those from where it stops
(`window_of_some`). All of them but the last have ended, and the last runs to the end of the bytes
(`exists_last`, `messageAt_open`). Written one after the other, the messages are the bytes
themselves (`drop_eq_wires`).
-/

namespace Unbraid.Frame

def wire (tags : TagPair) (frame : Frame) : Bytes := frame.message.wire tags

/-- The messages of the bytes that have arrived, from an offset on, by their offsets in the stream.
A session that never consumed anything would see them in its buffer; one that did sees the same
ones, moved (`allFrom_buffer`). -/
def window (tags : TagPair) (received : Bytes) (done : Nat) : List Frame :=
  allFrom (.after tags received) (received.drop done) done (Lexer.after tags received).hits

section

variable {tags : TagPair} {received : Bytes} {done : Nat} {hit : Hit}

theorem apart_after (tags : TagPair) (received : Bytes) :
    (Lexer.after tags received).hits.Pairwise fun hit later =>
      hit.offset + tags.length ≤ later.offset :=
  TagPair.pairwise_occurrences received 0

theorem mem_of_hitFrom? (found : (Lexer.after tags received).hitFrom? done = some hit) :
    hit ∈ (Lexer.after tags received).hits ∧ done ≤ hit.offset :=
  Lexer.mem_of_hitFrom? found

theorem hitFrom?_zero (tags : TagPair) (received : Bytes) :
    (Lexer.after tags received).hitFrom? 0 = (Lexer.after tags received).hits.head? :=
  Lexer.hitFrom?_zero _

/-- From the offset of a recorded tag on, it is the first. -/
theorem hitFrom?_of_mem (recorded : hit ∈ (Lexer.after tags received).hits) :
    (Lexer.after tags received).hitFrom? hit.offset = some hit := by
  have apart := apart_after tags received
  have positive := tags.length_pos
  rw [Lexer.hitFrom?]
  generalize (Lexer.after tags received).hits = hits at recorded apart
  induction hits with
  | nil => cases recorded
  | cons first rest ih =>
    obtain ⟨after, apart⟩ := List.pairwise_cons.1 apart
    rcases List.mem_cons.1 recorded with rfl | later
    · exact List.find?_cons_of_pos (by simp)
    · have before := after hit later
      rw [List.find?_cons_of_neg (by simp only [decide_eq_true_eq]; omega)]
      exact ih later apart

theorem eq_of_offset {other : Hit} (recorded : hit ∈ (Lexer.after tags received).hits)
    (known : other ∈ (Lexer.after tags received).hits) (same : hit.offset = other.offset) :
    hit = other := by
  have first := hitFrom?_of_mem recorded
  rw [same, hitFrom?_of_mem known] at first
  exact (Option.some.inj first).symm

/-- The message of a tag, as far as its bytes have arrived. -/
def messageAt (tags : TagPair) (received : Bytes) (hit : Hit) : Frame :=
  extract received (Lexer.after tags received) hit

@[simp]
theorem messageAt_kind : (messageAt tags received hit).kind = hit.kind := ofTag_kind ..

@[simp]
theorem messageAt_tagOffset : (messageAt tags received hit).tagOffset = hit.offset :=
  ofTag_tagOffset ..

@[simp]
theorem messageAt_start : (messageAt tags received hit).start = hit.offset + tags.length :=
  ofTag_start ..

theorem messageAt_body :
    (messageAt tags received hit).body =
      (received.drop (hit.offset + tags.length)).take
        ((messageAt tags received hit).stop - (hit.offset + tags.length)) :=
  ofTag_body ..

theorem messageAt_complete (complete : (messageAt tags received hit).complete = true) :
    ∃ next ∈ (Lexer.after tags received).hits,
      next.offset = (messageAt tags received hit).stop ∧
        hit.offset + tags.length ≤ next.offset := by
  obtain ⟨next, present, stops⟩ := ofTag_complete _ _ _ _ complete
  obtain ⟨recorded, later⟩ := List.mem_filter.1 present
  exact ⟨next, recorded, stops, of_decide_eq_true later⟩

theorem end_le_length (recorded : hit ∈ (Lexer.after tags received).hits) :
    hit.offset + tags.length ≤ received.length :=
  Nat.le_trans (Lexer.end_le_position recorded) (Lexer.position_le_length received)

theorem messageAt_open (recorded : hit ∈ (Lexer.after tags received).hits)
    (growing : (messageAt tags received hit).complete = false) :
    (messageAt tags received hit).stop = received.length := by
  have stops := ofTag_open _ _ _ _ growing
  have inside := end_le_length recorded
  rw [List.length_drop, Lexer.after_tags] at stops
  exact stops.trans (Nat.add_sub_cancel' inside)

theorem start_le_stop (tags : TagPair) (received : Bytes) (hit : Hit) :
    hit.offset + tags.length ≤ (messageAt tags received hit).stop :=
  start_le_ofTag_stop (Lexer.after tags received) hit _
    ((Lexer.after tags received).hitsAfter hit.offset)
    fun _ present => of_decide_eq_true (List.mem_filter.1 present).2

theorem stop_le_position (complete : (messageAt tags received hit).complete = true) :
    (messageAt tags received hit).stop ≤ (Lexer.after tags received).position := by
  obtain ⟨next, recorded, stops, -⟩ := messageAt_complete complete
  have := Lexer.end_le_position recorded
  omega

theorem stop_le_length (recorded : hit ∈ (Lexer.after tags received).hits) :
    (messageAt tags received hit).stop ≤ received.length := by
  cases complete : (messageAt tags received hit).complete with
  | true => exact Nat.le_trans (stop_le_position complete) (Lexer.position_le_length received)
  | false => exact Nat.le_of_eq (messageAt_open recorded complete)

theorem length_messageAt_body (recorded : hit ∈ (Lexer.after tags received).hits) :
    (messageAt tags received hit).body.length =
      (messageAt tags received hit).stop - (hit.offset + tags.length) := by
  have := stop_le_length recorded
  rw [messageAt_body, List.length_take, List.length_drop]
  omega

theorem window_of_none (absent : (Lexer.after tags received).hitFrom? done = none) :
    window tags received done = [] := by
  rw [Lexer.hitFrom?] at absent
  rw [window, allFrom_eq _ _ (apart_after tags received), absent]

theorem window_of_some (found : (Lexer.after tags received).hitFrom? done = some hit) :
    window tags received done =
      messageAt tags received hit ::
        window tags received (messageAt tags received hit).stop := by
  rw [Lexer.hitFrom?] at found
  rw [window, allFrom_eq _ _ (apart_after tags received), found]
  rfl

/-- To prove something of an offset, prove it where no tag follows, and of an offset before a tag
from where the message of that tag stops. -/
theorem window_induction (tags : TagPair) (received : Bytes) {motive : Nat → Prop}
    (last : ∀ done, (Lexer.after tags received).hitFrom? done = none → motive done)
    (next : ∀ done hit, (Lexer.after tags received).hitFrom? done = some hit →
      motive (messageAt tags received hit).stop → motive done)
    (done : Nat) : motive done := by
  cases found : (Lexer.after tags received).hitFrom? done with
  | none => exact last done found
  | some hit => exact next done hit found (window_induction tags received last next _)
termination_by received.length - done
decreasing_by
  obtain ⟨recorded, later⟩ := mem_of_hitFrom? found
  have := end_le_length recorded
  have := start_le_stop tags received hit
  have := tags.length_pos
  omega

theorem of_mem_window {frame : Frame} (present : frame ∈ window tags received done) :
    ∃ hit ∈ (Lexer.after tags received).hits,
      done ≤ hit.offset ∧ frame = messageAt tags received hit := by
  induction done using window_induction tags received with
  | last done absent => simp [window_of_none absent] at present
  | next done hit found ih =>
    obtain ⟨recorded, later⟩ := mem_of_hitFrom? found
    rw [window_of_some found] at present
    rcases List.mem_cons.1 present with rfl | rest
    · exact ⟨hit, recorded, later, rfl⟩
    · obtain ⟨other, known, beyond, equal⟩ := ih rest
      have := start_le_stop tags received hit
      exact ⟨other, known, by omega, equal⟩

theorem window_of_length_le (past : received.length ≤ done) : window tags received done = [] := by
  refine window_of_none (List.find?_eq_none.2 fun hit recorded => ?_)
  have := end_le_length recorded
  have := tags.length_pos
  simp only [decide_eq_true_eq]
  omega

/-! ## Messages that have ended -/

/-- The messages of a window that have ended. -/
def ended (tags : TagPair) (received : Bytes) (done : Nat) : List Frame :=
  (window tags received done).filter (·.complete)

/-- The offset up to which a window is done with: that of the message that may still grow, or where
lexing stopped if there is no message. -/
def settled (tags : TagPair) (received : Bytes) (done : Nat) : Nat :=
  match (window tags received done).getLast? with
  | some frame => frame.tagOffset
  | none => (Lexer.after tags received).position

theorem ended_of_none (absent : (Lexer.after tags received).hitFrom? done = none) :
    ended tags received done = [] ∧
      settled tags received done = (Lexer.after tags received).position := by
  rw [ended, settled, window_of_none absent]
  exact ⟨rfl, rfl⟩

theorem ended_of_open (found : (Lexer.after tags received).hitFrom? done = some hit)
    (growing : (messageAt tags received hit).complete = false) :
    ended tags received done = [] ∧ settled tags received done = hit.offset ∧
      window tags received done = [messageAt tags received hit] := by
  have stops := messageAt_open (mem_of_hitFrom? found).1 growing
  have only : window tags received done = [messageAt tags received hit] := by
    rw [window_of_some found, stops, window_of_length_le (Nat.le_refl _)]
  refine ⟨?_, ?_, only⟩
  · rw [ended, only, List.filter_cons_of_neg (by rw [growing]; exact Bool.false_ne_true)]
    rfl
  · rw [settled, only]
    exact messageAt_tagOffset

theorem ended_of_complete (found : (Lexer.after tags received).hitFrom? done = some hit)
    (complete : (messageAt tags received hit).complete = true) :
    ended tags received done =
        messageAt tags received hit :: ended tags received (messageAt tags received hit).stop ∧
      settled tags received done = settled tags received (messageAt tags received hit).stop := by
  obtain ⟨next, recorded, stops, -⟩ := messageAt_complete complete
  refine ⟨?_, ?_⟩
  · rw [ended, window_of_some found, List.filter_cons_of_pos complete]
    rfl
  · have more := window_of_some (hitFrom?_of_mem recorded)
    rw [stops] at more
    rw [settled, window_of_some found, more, List.getLast?_cons_cons, ← more]
    rfl

theorem settled_le_position (tags : TagPair) (received : Bytes) (done : Nat) :
    settled tags received done ≤ (Lexer.after tags received).position := by
  induction done using window_induction tags received with
  | last done absent => exact Nat.le_of_eq (ended_of_none absent).2
  | next done hit found ih =>
    cases complete : (messageAt tags received hit).complete with
    | true =>
      rw [(ended_of_complete found complete).2]
      exact ih
    | false =>
      have := Lexer.end_le_position (mem_of_hitFrom? found).1
      rw [(ended_of_open found complete).2.1]
      omega

theorem settled_le_length (tags : TagPair) (received : Bytes) (done : Nat) :
    settled tags received done ≤ received.length :=
  Nat.le_trans (settled_le_position ..) (Lexer.position_le_length received)

/-- If there is a message, the window is done with up to a tag. -/
theorem exists_hit_at_settled (found : (Lexer.after tags received).hitFrom? done = some hit) :
    ∃ last ∈ (Lexer.after tags received).hits, last.offset = settled tags received done := by
  induction done using window_induction tags received generalizing hit with
  | last done absent => rw [absent] at found; cases found
  | next done first known ih =>
    cases complete : (messageAt tags received first).complete with
    | true =>
      obtain ⟨next, recorded, stops, -⟩ := messageAt_complete complete
      rw [(ended_of_complete known complete).2]
      exact ih (stops ▸ hitFrom?_of_mem recorded)
    | false =>
      exact ⟨first, (mem_of_hitFrom? known).1, (ended_of_open known complete).2.1.symm⟩

/-- If there is a message, all have ended but the last, which may still grow. A message ends only at
a tag, and that tag introduces the next one, so what comes last has no end. -/
theorem exists_last (found : (Lexer.after tags received).hitFrom? done = some hit) :
    ∃ last, last.complete = false ∧ last.tagOffset = settled tags received done ∧
      window tags received done = ended tags received done ++ [last] := by
  induction done using window_induction tags received generalizing hit with
  | last done absent => rw [absent] at found; cases found
  | next done first known ih =>
    cases complete : (messageAt tags received first).complete with
    | true =>
      obtain ⟨next, recorded, stops, -⟩ := messageAt_complete complete
      obtain ⟨last, growing, offset, whole⟩ := ih (stops ▸ hitFrom?_of_mem recorded)
      obtain ⟨head, settles⟩ := ended_of_complete known complete
      refine ⟨last, growing, offset.trans settles.symm, ?_⟩
      rw [window_of_some known, whole, head, List.cons_append]
    | false =>
      obtain ⟨none, settles, only⟩ := ended_of_open known complete
      refine ⟨messageAt tags received first, complete, ?_, ?_⟩
      · rw [settles]
        exact messageAt_tagOffset
      · rw [only, none, List.nil_append]

/-! ## The messages are the bytes -/

theorem drop_eq_wire_append (recorded : hit ∈ (Lexer.after tags received).hits) :
    received.drop hit.offset =
      wire tags (messageAt tags received hit) ++
        received.drop (messageAt tags received hit).stop := by
  obtain ⟨rest, stands⟩ := Lexer.stands_of_mem recorded
  have behind : received.drop (hit.offset + tags.length) = rest := by
    rw [← List.drop_drop, ← stands, ← tags.length_bytes hit.kind, List.drop_left]
  have beyond : received.drop (messageAt tags received hit).stop =
      (received.drop (hit.offset + tags.length)).drop
        ((messageAt tags received hit).stop - (hit.offset + tags.length)) := by
    rw [List.drop_drop, Nat.add_sub_cancel' (start_le_stop tags received hit)]
  rw [wire, Message.wire, message, messageAt_kind, messageAt_body, beyond, List.append_assoc,
    List.take_append_drop, behind, stands]

theorem drop_eq_ended_append (found : (Lexer.after tags received).hitFrom? done = some hit) :
    received.drop hit.offset =
      (ended tags received done).flatMap (wire tags) ++
        received.drop (settled tags received done) := by
  induction done using window_induction tags received generalizing hit with
  | last done absent => rw [absent] at found; cases found
  | next done first known ih =>
    obtain rfl : first = hit := Option.some.inj (known.symm.trans found)
    cases complete : (messageAt tags received first).complete with
    | true =>
      obtain ⟨next, recorded, stops, -⟩ := messageAt_complete complete
      have rest := ih (stops ▸ hitFrom?_of_mem recorded)
      obtain ⟨head, settles⟩ := ended_of_complete found complete
      rw [drop_eq_wire_append (mem_of_hitFrom? found).1, ← stops, rest, head, settles,
        List.flatMap_cons, List.append_assoc]
    | false =>
      obtain ⟨none, settles, -⟩ := ended_of_open found complete
      rw [none, settles]
      rfl

/-- From the first tag on, the bytes are the messages, one after the other. -/
theorem drop_eq_wires (found : (Lexer.after tags received).hitFrom? done = some hit) :
    received.drop hit.offset = (window tags received done).flatMap (wire tags) := by
  induction done using window_induction tags received generalizing hit with
  | last done absent => rw [absent] at found; cases found
  | next done first known ih =>
    obtain rfl : first = hit := Option.some.inj (known.symm.trans found)
    rw [window_of_some found, List.flatMap_cons, drop_eq_wire_append (mem_of_hitFrom? found).1]
    congr 1
    cases complete : (messageAt tags received first).complete with
    | true =>
      obtain ⟨next, recorded, stops, -⟩ := messageAt_complete complete
      have rest := ih (stops ▸ hitFrom?_of_mem recorded)
      rwa [stops] at rest
    | false =>
      rw [messageAt_open (mem_of_hitFrom? found).1 complete, window_of_length_le (Nat.le_refl _),
        List.drop_length]
      rfl

end

end Unbraid.Frame
