import Unbraid.Proofs.Frame.Arrival

/-!
# Messages pass by pass

A stream arrives in chunks. After each of them the messages that have ended are handed over, and at
the end those that are left. Pass by pass they are the bytes of the stream from the first tag on
(`drop_eq_passes`). They are the messages of the whole stream, kind by kind, if and only if no pass
closes a message inside a number that the stream carries on (`passes_eq_window_iff`).
-/

namespace Unbraid.Frame

/-- The messages that are handed over in each pass, the last of them being that of the end. Some
bytes have been received before, and those up to an offset are done with. -/
def passes (tags : TagPair) : (received : Bytes) → (done : Nat) → List Bytes → List (List Frame)
  | received, done, [] => [window tags received done]
  | received, done, chunk :: rest =>
    ended tags (received ++ chunk) done ::
      passes tags (received ++ chunk) (settled tags (received ++ chunk) done) rest

/-- Some pass closes a message inside a number that the stream carries on. -/
def TearsNumber (tags : TagPair) (stream : Bytes) :
    (received : Bytes) → (done : Nat) → List Bytes → Prop
  | _, _, [] => False
  | received, done, chunk :: rest =>
    Torn tags stream (received ++ chunk) done ∨
      TearsNumber tags stream (received ++ chunk) (settled tags (received ++ chunk) done) rest

section

variable {tags : TagPair} {received : Bytes} {done : Nat} {chunks : List Bytes}

theorem flatten_passes (inside : done ≤ (Lexer.after tags received).position)
    (whole : ¬ TearsNumber tags (received ++ chunks.flatten) received done chunks) :
    (passes tags received done chunks).flatten =
      window tags (received ++ chunks.flatten) done := by
  induction chunks generalizing received done with
  | nil => simp [passes]
  | cons chunk rest ih =>
    rw [List.flatten_cons, ← List.append_assoc] at whole ⊢
    rw [TearsNumber, not_or] at whole
    have within := Nat.le_trans inside (Lexer.position_mono received chunk)
    rw [passes, List.flatten_cons, ih (settled_le_position ..) whole.2]
    exact window_of_not_torn _ within whole.1

theorem exists_ofKind_ne (inside : done ≤ (Lexer.after tags received).position)
    (torn : TearsNumber tags (received ++ chunks.flatten) received done chunks) :
    ∃ kind, Message.ofKind kind ((passes tags received done chunks).flatten.map message) ≠
      Message.ofKind kind ((window tags (received ++ chunks.flatten) done).map message) := by
  induction chunks generalizing received done with
  | nil => cases torn
  | cons chunk rest ih =>
    rw [List.flatten_cons, ← List.append_assoc] at torn ⊢
    have within := Nat.le_trans inside (Lexer.position_mono received chunk)
    rw [passes, List.flatten_cons]
    -- The first pass that is torn tells; up to there the messages are those of the stream.
    by_cases here : Torn tags (received ++ chunk ++ rest.flatten) (received ++ chunk) done
    · obtain ⟨before, short, long, after, others, ends, whole, early⟩ :=
        of_torn rest.flatten within here
      have head : short.message.kind = short.kind := rfl
      have kind : long.message.kind = short.kind := early.kind
      refine ⟨short.kind, fun same => ?_⟩
      rw [ends, whole, List.map_append, List.map_append, List.map_append, List.append_assoc,
        List.map_cons, List.map_cons, List.cons_append, Message.ofKind_append,
        Message.ofKind_append, Message.ofKind_cons, Message.ofKind_cons, if_pos head,
        if_pos kind] at same
      have equal := (List.cons.inj (List.append_cancel_left same)).1
      have bodies : short.body = long.body := congrArg Message.body equal
      exact absurd early.shorter (by rw [bodies]; exact Nat.lt_irrefl _)
    · obtain ⟨kind, later⟩ := ih (settled_le_position ..) (torn.resolve_left here)
      refine ⟨kind, fun same => later ?_⟩
      rw [← window_of_not_torn _ within here, List.map_append, List.map_append,
        Message.ofKind_append, Message.ofKind_append] at same
      exact List.append_cancel_left same

/-- Pass by pass the messages of the stream are handed over, kind by kind, exactly if no pass closes
a message inside a number that the stream carries on. A torn pass is not made up for: what it closed
too early has been handed over, and is shorter than the message of the stream in its place. -/
theorem passes_eq_window_iff (inside : done ≤ (Lexer.after tags received).position) :
    (∀ kind, Message.ofKind kind ((passes tags received done chunks).flatten.map message) =
        Message.ofKind kind ((window tags (received ++ chunks.flatten) done).map message)) ↔
      ¬ TearsNumber tags (received ++ chunks.flatten) received done chunks := by
  constructor
  · intro same torn
    obtain ⟨kind, differ⟩ := exists_ofKind_ne inside torn
    exact differ (same kind)
  · intro whole kind
    rw [flatten_passes inside whole]

theorem passes_of_none (inside : done ≤ (Lexer.after tags received).position)
    (absent : (Lexer.after tags (received ++ chunks.flatten)).hitFrom? done = none) :
    (passes tags received done chunks).flatten = [] := by
  induction chunks generalizing received done with
  | nil =>
    rw [List.flatten_nil, List.append_nil] at absent
    simp [passes, window_of_none absent]
  | cons chunk rest ih =>
    rw [List.flatten_cons, ← List.append_assoc] at absent
    have within := Nat.le_trans inside (Lexer.position_mono received chunk)
    have here : (Lexer.after tags (received ++ chunk)).hitFrom? done = none := by
      cases found : (Lexer.after tags (received ++ chunk)).hitFrom? done with
      | none => rfl
      | some hit => rw [hitFrom?_append rest.flatten found] at absent; cases absent
    obtain ⟨none, stops⟩ := ended_of_none here
    rw [passes, List.flatten_cons, none, stops, List.nil_append]
    refine ih (Nat.le_refl _) ?_
    rw [hitFrom?_position _ within here, absent]

/-- From the first tag on, the stream is the messages that are handed over, one after the other.
This holds of torn passes as well: where a message was closed too early, its rest comes with the
next ones. -/
theorem drop_eq_passes {hit : Hit} (inside : done ≤ (Lexer.after tags received).position)
    (found : (Lexer.after tags (received ++ chunks.flatten)).hitFrom? done = some hit) :
    (received ++ chunks.flatten).drop hit.offset =
      (passes tags received done chunks).flatten.flatMap (wire tags) := by
  induction chunks generalizing received done hit with
  | nil =>
    rw [List.flatten_nil, List.append_nil] at found ⊢
    simpa [passes] using drop_eq_wires found
  | cons chunk rest ih =>
    rw [List.flatten_cons, ← List.append_assoc] at found ⊢
    have within := Nat.le_trans inside (Lexer.position_mono received chunk)
    rw [passes, List.flatten_cons, List.flatMap_append]
    cases here : (Lexer.after tags (received ++ chunk)).hitFrom? done with
    | none =>
      obtain ⟨none, stops⟩ := ended_of_none here
      rw [none, stops]
      refine ih (Nat.le_refl _) ?_
      rw [hitFrom?_position _ within here, found]
    | some first =>
      have same := hitFrom?_append rest.flatten here
      obtain rfl : first = hit := Option.some.inj (same.symm.trans found)
      have inside := end_le_length (mem_of_hitFrom? here).1
      -- The pass is done up to a tag, and the next one begins with that.
      obtain ⟨last, recorded, stops⟩ := exists_hit_at_settled here
      have later := ih (settled_le_position ..)
        (hitFrom?_append rest.flatten (stops ▸ hitFrom?_of_mem recorded))
      rw [stops] at later
      rw [List.drop_append_of_le_length (by omega), drop_eq_ended_append here, List.append_assoc,
        ← List.drop_append_of_le_length (settled_le_length ..), later]

end

end Unbraid.Frame
