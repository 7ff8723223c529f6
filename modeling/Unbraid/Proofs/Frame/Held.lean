import Unbraid.Proofs.Frame.Segments

/-!
# What is held between two passes

After a pass a window is done with up to one message that may still grow, or there has been no tag
yet (`Held`). More bytes and another pass lead to such an offset again (`Held.next`), and a pass
without more bytes changes nothing (`Held.settled_eq`).
-/

namespace Unbraid

theorem Lexer.consume_hits_of_mem {tags : TagPair} {received : Bytes} {hit : Hit}
    (recorded : hit ∈ (after tags received).hits) :
    ((after tags received).consume hit.offset).hits =
      (hit :: (after tags received).hitsAfter hit.offset).map (Hit.back hit.offset) := by
  obtain ⟨before, rest, split⟩ := List.append_of_mem recorded
  have apart := Frame.apart_after tags received
  rw [split, List.pairwise_append] at apart
  rw [consume_hits, Frame.hitsAfter_of_split split, split, List.dropWhile_append_of_pos,
    List.dropWhile_cons_of_neg (by simp)]
  intro other present
  have := apart.2.2 other present hit List.mem_cons_self
  have := tags.length_pos
  simp only [decide_eq_true_eq]
  omega

namespace Frame

/-- The message of the tag may still grow. -/
def IsOpen (tags : TagPair) (received : Bytes) (hit : Hit) : Prop :=
  hit ∈ (Lexer.after tags received).hits ∧ (messageAt tags received hit).complete = false

/-- Up to this offset the bytes are done with: there has been no tag, and lexing stopped there, or a
message that may still grow begins there. -/
inductive Held (tags : TagPair) (received : Bytes) : Nat → Prop where
  | noTag (absent : (Lexer.after tags received).hits = []) :
      Held tags received (Lexer.after tags received).position
  | message {hit : Hit} (growing : IsOpen tags received hit) : Held tags received hit.offset

variable {tags : TagPair} {received : Bytes} {done : Nat} {hit : Hit}

theorem held_nil (tags : TagPair) : Held tags [] 0 := by
  have start : (Lexer.after tags []).position = 0 := by rw [Lexer.after_nil]; rfl
  have absent : (Lexer.after tags []).hits = [] := by rw [Lexer.after_nil]; rfl
  rw [← start]
  exact .noTag absent

theorem hitFrom?_of_noTag (absent : (Lexer.after tags received).hits = []) (done : Nat) :
    (Lexer.after tags received).hitFrom? done = none := by
  rw [Lexer.hitFrom?, absent]
  rfl

/-- A message that may still grow is all there is from its tag on. -/
theorem IsOpen.window (growing : IsOpen tags received hit) :
    ended tags received hit.offset = [] ∧ settled tags received hit.offset = hit.offset ∧
      Frame.window tags received hit.offset = [messageAt tags received hit] :=
  ended_of_open (hitFrom?_of_mem growing.1) growing.2

/-- The window of a message that is followed by a tag is done with up to a message that may still
grow. So what a session holds behind a tag is never just a piece of a message. -/
theorem exists_isOpen (found : (Lexer.after tags received).hitFrom? done = some hit) :
    ∃ last, IsOpen tags received last ∧ last.offset = settled tags received done := by
  obtain ⟨frame, growing, offset, whole⟩ := exists_last found
  have present : frame ∈ Frame.window tags received done := by
    rw [whole]
    exact List.mem_append_right _ List.mem_cons_self
  obtain ⟨last, recorded, -, rfl⟩ := of_mem_window present
  rw [messageAt_tagOffset] at offset
  exact ⟨last, ⟨recorded, growing⟩, offset⟩

theorem Held.le_position (held : Held tags received done) :
    done ≤ (Lexer.after tags received).position := by
  cases held with
  | noTag => exact Nat.le_refl _
  | message growing =>
    have := Lexer.end_le_position growing.1
    omega

theorem Held.next (held : Held tags received done) (chunk : Bytes) :
    Held tags (received ++ chunk) (settled tags (received ++ chunk) done) := by
  cases found : (Lexer.after tags (received ++ chunk)).hitFrom? done with
  | some hit =>
    obtain ⟨last, growing, offset⟩ := exists_isOpen found
    rw [← offset]
    exact .message growing
  | none =>
    rw [(ended_of_none found).2]
    refine .noTag ?_
    cases held with
    | message growing =>
      rw [hitFrom?_append chunk (hitFrom?_of_mem growing.1)] at found
      cases found
    | noTag absent =>
      -- What was found later stands from there on, where there is nothing.
      rw [Lexer.hitFrom?, List.find?_eq_none] at found
      rw [Lexer.after_append_hits, absent, List.nil_append] at found ⊢
      refine List.eq_nil_iff_forall_not_mem.2 fun hit recorded => ?_
      exact found hit recorded (decide_eq_true (TagPair.mem_occurrences recorded).1)

theorem Held.settled_eq (held : Held tags received done) :
    ended tags received done = [] ∧ settled tags received done = done := by
  cases held with
  | noTag absent => exact ended_of_none (hitFrom?_of_noTag absent _)
  | message growing => exact ⟨growing.window.1, growing.window.2.1⟩

end Frame

end Unbraid
