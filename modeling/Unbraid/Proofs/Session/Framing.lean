import Unbraid.Proofs.Session.Run

/-!
# Framing loses nothing

What a session handles of a stream, against the bytes of the stream. The messages are taken from the
log of the run, that is from the steps that its handlers went through, so the order in which they
were handled is the order of that log.

* In the order of the stream the messages are the bytes from the first tag on
  (`Frame.exists_preamble`): none is lost, handled twice or moved.
* Each call handles the next of them, its tool messages before its model messages, and each as one
  that cannot grow; none is deferred. The steps of all calls form one chain from the first session
  to the last, so nothing else was handled (`handled_messages_are_the_stream`).
-/

namespace Unbraid

namespace Frame

variable {tags : TagPair} {received : Bytes}

theorem hitFrom?_zero_eq_findFrom (tags : TagPair) (received : Bytes) :
    (Lexer.after tags received).hitFrom? 0 = tags.findFrom received 0 := by
  rw [hitFrom?_zero, Lexer.after_hits, TagPair.occurrences_eq]
  cases tags.findFrom received 0 <;> rfl

/-- A stream is what comes before its first tag, which holds no tag, and the messages of the passes
over it. -/
theorem exists_preamble (tags : TagPair) (chunks : List Bytes) :
    ∃ preamble,
      chunks.flatten = preamble ++ (passes tags [] 0 chunks).flatten.flatMap (wire tags) ∧
      ∀ kind, ¬ tags.bytes kind <:+: preamble := by
  cases found : (Lexer.after tags chunks.flatten).hitFrom? 0 with
  | none =>
    have none : (passes tags [] 0 chunks).flatten = [] :=
      passes_of_none (Nat.zero_le _) (by rw [List.nil_append]; exact found)
    rw [hitFrom?_zero_eq_findFrom] at found
    refine ⟨chunks.flatten, ?_, TagPair.not_infix_of_absent found⟩
    rw [none, List.flatMap_nil, List.append_nil]
  | some hit =>
    have inside : 0 ≤ (Lexer.after tags []).position := Nat.zero_le _
    rw [← List.nil_append chunks.flatten] at found
    have wires := drop_eq_passes inside found
    rw [List.nil_append] at wires found
    rw [hitFrom?_zero_eq_findFrom] at found
    refine ⟨chunks.flatten.take hit.offset, ?_, TagPair.not_infix_take found⟩
    rw [← wires, List.take_append_drop]

end Frame

namespace Session

/-- The stream is a preamble without a tag, and then messages, which are shared out among the calls
of the run in the order of the stream. Each call handles its share once, the tool messages and then
the model messages, each as one that cannot grow, and defers none of them; what the handlers deliver
is what the consumer is handed, before the whole text, and what they leave is what the run leaves:
what all messages amount to. -/
theorem handled_messages_are_the_stream {id : String} {settings : DemuxSettings}
    {session : Session} {chunks : List Bytes} (started : start id settings = .ok session)
    (taken : (session.receive (.fresh .accepting) chunks).fault = none) :
    ∃ preamble shares,
      chunks.flatten =
        preamble ++ shares.flatten.flatMap (Message.wire session.lexer.tags) ∧
      (∀ kind, ¬ session.lexer.tags.bytes kind <:+: preamble) ∧
      Shares session (.fresh .accepting) shares (session.receiveCalls (.fresh .accepting) chunks)
        (session.receive (.fresh .accepting) chunks).outbox ∧
      Completed settings.filter chunks.flatten.length shares.flatten
        (session.receive (.fresh .accepting) chunks) := by
  obtain ⟨preamble, whole, absent⟩ := Frame.exists_preamble session.lexer.tags chunks
  obtain ⟨completed, shares⟩ := receive_spec started taken
  refine ⟨preamble,
    (Frame.passes session.lexer.tags [] 0 chunks).map (List.map Frame.message), ?_, absent, shares,
    ?_⟩
  · rw [whole, ← List.map_flatten, List.flatMap_map]
    rfl
  · rw [← List.map_flatten]
    exact completed

/-- A model message and a tool message after a byte of preamble, cut inside the first tag. -/
def cutInTag : List Bytes := [Bytes.ofText "1To", Bytes.ofText "ly :2Tool :3"]

theorem handled_messages_of_a_cut_tag :
    ((standard "s").receive (.fresh .accepting) cutInTag).fault = none ∧
      ∃ preamble shares,
        cutInTag.flatten = preamble ++ shares.flatten.flatMap (Message.wire TagPair.standard) ∧
        (∀ kind, ¬ TagPair.standard.bytes kind <:+: preamble) ∧
        Shares (standard "s") (.fresh .accepting) shares
          ((standard "s").receiveCalls (.fresh .accepting) cutInTag)
          ((standard "s").receive (.fresh .accepting) cutInTag).outbox ∧
        Completed DemuxSettings.standard.filter cutInTag.flatten.length shares.flatten
          ((standard "s").receive (.fresh .accepting) cutInTag) :=
  ⟨by decide, handled_messages_are_the_stream (start_standard "s") (by decide)⟩

end Session

end Unbraid
