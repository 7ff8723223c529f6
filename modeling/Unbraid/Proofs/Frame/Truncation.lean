import Unbraid.Proofs.Frame.Sent

/-!
# The messages in what was sent

The message of a tag is what was sent after it, unless its body was cut inside a string and nothing
of what follows tells so (`messageAt_sent`). Then all that follows is taken for its text, and no
long body is among it. However what was sent arrives, no number is torn (`not_tearsNumber_stream`).
-/

namespace Unbraid

namespace Sent

theorem stream_append (frames more : List Sent) :
    stream (frames ++ more) = stream frames ++ stream more :=
  List.flatMap_append

theorem length_stream_cons (sent : Sent) (rest : List Sent) :
    (stream (sent :: rest)).length =
      TagPair.standard.length + sent.body.length + (stream rest).length := by
  rw [stream_cons, List.length_append, List.length_append, TagPair.length_bytes, Nat.add_assoc]

theorem hits_append (offset : Nat) (frames more : List Sent) :
    hits offset (frames ++ more) =
      hits offset frames ++ hits (offset + (stream frames).length) more := by
  induction frames generalizing offset with
  | nil => rfl
  | cons sent rest ih =>
    have reached : offset + (stream (sent :: rest)).length =
        offset + TagPair.standard.length + sent.body.length + (stream rest).length := by
      rw [length_stream_cons]
      omega
    rw [List.cons_append, hits, hits, ih, reached, List.cons_append]

theorem le_offset_of_mem_hits {offset : Nat} {frames : List Sent} {hit : Hit}
    (present : hit ∈ hits offset frames) : offset ≤ hit.offset := by
  induction frames generalizing offset with
  | nil => cases present
  | cons sent rest ih =>
    rcases List.mem_cons.1 present with rfl | later
    · exact Nat.le_refl _
    · have := ih later
      omega

theorem split_of_hits {offset : Nat} {frames : List Sent} {before after : List Hit} {hit : Hit}
    (split : hits offset frames = before ++ hit :: after) :
    ∃ earlier sent rest, frames = earlier ++ sent :: rest ∧
      hit = ⟨offset + (stream earlier).length, sent.kind⟩ ∧
      after = hits (hit.offset + TagPair.standard.length + sent.body.length) rest := by
  induction before generalizing offset frames with
  | nil =>
    cases frames with
    | nil => cases split
    | cons sent rest =>
      rw [hits, List.nil_append, List.cons.injEq] at split
      obtain ⟨rfl, rfl⟩ := split
      exact ⟨[], sent, rest, rfl, rfl, rfl⟩
  | cons first before ih =>
    cases frames with
    | nil => cases split
    | cons sent rest =>
      rw [hits, List.cons_append, List.cons.injEq] at split
      obtain ⟨earlier, other, others, rfl, equal, behind⟩ := ih split.2
      refine ⟨sent :: earlier, other, others, rfl, ?_, behind⟩
      rw [equal, length_stream_cons]
      simp only [Hit.mk.injEq, and_true]
      omega

variable {sent : Sent} {before rest : List Sent}

theorem hits_after (frames : List Sent) :
    (Lexer.after .standard (stream frames)).hits = hits 0 frames :=
  occurrences_stream [] frames

theorem drop_stream (before : List Sent) (sent : Sent) (rest : List Sent) :
    (stream (before ++ sent :: rest)).drop
        ((stream before).length + TagPair.standard.length) = sent.body ++ stream rest := by
  rw [← List.drop_drop, stream_append, List.drop_left, stream_cons,
    ← TagPair.length_bytes _ sent.kind, List.drop_left]

end Sent

namespace Frame

/-- Where no tag that follows completes the body, it ends at the tag that was passed over, or runs
on. -/
theorem boundary_of_passed {bytes : Bytes} {start passed : Nat} {hits : List Hit}
    (never : ∀ hit ∈ hits, Json.probe (bytes.take (hit.offset - start)) ≠ .complete) :
    boundary bytes start (some passed) hits = .ends passed ∨
      boundary bytes start (some passed) hits = .runsOn (some passed) := by
  induction hits with
  | nil => exact .inr rfl
  | cons next rest ih =>
    rw [boundary]
    cases verdict : Json.probe (bytes.take (next.offset - start)) with
    | complete => exact absurd verdict (never next List.mem_cons_self)
    | malformed => exact .inl rfl
    | incomplete => exact ih fun hit later => never hit (List.mem_cons_of_mem _ later)

end Frame

namespace Sent

variable {sent : Sent} {before rest : List Sent} {received more : Bytes}

/-! ## Arrival -/

/-- Once the lexer has passed a body, it has passed that and a part of what was sent after it. -/
theorem exists_lexed (whole : received ++ more = stream (before ++ sent :: rest))
    (passed : (stream before).length + TagPair.standard.length + sent.body.length <
      (Lexer.after .standard received).position) :
    ∃ part, part <+: stream rest ∧ part ≠ [] ∧
      Frame.lexed .standard received ((stream before).length + TagPair.standard.length) =
        sent.body ++ part := by
  generalize start : (stream before).length + TagPair.standard.length = offset at passed ⊢
  have inside : (Lexer.after .standard received).position ≤ received.length :=
    Lexer.position_le_length received
  have begins : Frame.lexed .standard received offset <+: sent.body ++ stream rest := by
    have tail := drop_stream before sent rest
    rw [start, ← whole, List.drop_append_of_le_length (by omega)] at tail
    rw [← tail]
    exact (List.take_prefix _ _).trans (List.prefix_append _ _)
  have length : (Frame.lexed .standard received offset).length =
      (Lexer.after .standard received).position - offset := by
    rw [Frame.lexed, List.length_take, List.length_drop]
    omega
  obtain ⟨part, split⟩ : sent.body <+: Frame.lexed .standard received offset :=
    List.prefix_of_prefix_length_le (List.prefix_append _ _) begins (by omega)
  rw [← split, List.prefix_append_right_inj] at begins
  refine ⟨part, begins, ?_, split.symm⟩
  rintro rfl
  rw [← split, List.append_nil] at length
  omega

/-- A message that has ended did not end inside a number. -/
theorem not_torn_stream {frames : List Sent} (whole : received ++ more = stream frames)
    (done : Nat) : ¬ Frame.Torn .standard (received ++ more) received done := by
  rintro ⟨short, present, long, -, early⟩
  obtain ⟨hit, recorded, -, rfl⟩ := Frame.of_mem_window present
  obtain ⟨earlier, following, split⟩ := List.append_of_mem recorded
  cases following with
  | nil =>
    have growing := Frame.messageAt_of_last split
    rw [early.complete] at growing
    cases growing
  | cons next others =>
    have hits : (Lexer.after .standard (received ++ more)).hits =
        (Lexer.after .standard received).hits ++ TagPair.standard.occurrences (received ++ more)
          (Lexer.after .standard received).position := Lexer.after_append_hits received more
    rw [split, whole, hits_after, List.append_assoc, List.cons_append, List.cons_append] at hits
    obtain ⟨before, sent, rest, rfl, rfl, after⟩ := split_of_hits hits
    rw [Nat.zero_add] at after early
    have second : next.offset =
        (stream before).length + TagPair.standard.length + sent.body.length := by
      cases rest with
      | nil => cases after
      | cons _ _ =>
        rw [Sent.hits, List.cons.injEq] at after
        rw [after.1]
    have reached : next.offset + TagPair.standard.length ≤
        (Lexer.after .standard received).position := by
      refine Lexer.end_le_position ?_
      rw [split]
      exact List.mem_append_right _ (List.mem_cons_of_mem _ List.mem_cons_self)
    -- The second tag stands behind the body, so the lexer has passed the body and that tag.
    have positive := TagPair.standard.length_pos
    obtain ⟨part, begins, further, lexed⟩ := exists_lexed whole (by omega)
    have number := early.inNumber
    rw [Frame.messageAt_start, lexed] at number
    exact not_endsInNumber_body_append begins further number

/-- However what was sent arrives, no pass tears a number. -/
theorem not_tearsNumber_stream {frames : List Sent} {chunks : List Bytes} {done : Nat}
    (whole : received ++ chunks.flatten = stream frames) :
    ¬ Frame.TearsNumber .standard (received ++ chunks.flatten) received done chunks := by
  induction chunks generalizing received done with
  | nil => exact id
  | cons chunk rest ih =>
    rw [List.flatten_cons, ← List.append_assoc] at whole ⊢
    rintro (torn | later)
    · exact not_torn_stream whole done torn
    · exact ih whole later

/-! ## The message of a tag -/

/-- Looking for the end of a body among the tags of the messages after it: it ends where it was cut
or was whole, or, if it was cut, at none of them. -/
theorem boundary_stream (sent next : Sent) (rest : List Sent) (start : Nat) :
    let found := Frame.boundary (sent.body ++ stream (next :: rest)) start none
      (hits (start + sent.body.length) (next :: rest))
    found = .ends (start + sent.body.length) ∨
      sent.isWhole = false ∧ found = .runsOn (some (start + sent.body.length)) := by
  have first : (sent.body ++ stream (next :: rest)).take (start + sent.body.length - start) =
      sent.body := by
    rw [Nat.add_sub_cancel_left, List.take_left]
  simp only [hits, Frame.boundary, first]
  cases verdict : Json.probe sent.body with
  | complete => exact .inl rfl
  | malformed => exact .inl rfl
  | incomplete =>
    have cut : sent.isWhole = false := by
      cases whole : sent.isWhole with
      | false => rfl
      | true => rw [probe_of_isWhole whole] at verdict; cases verdict
    have never : ∀ hit ∈ hits (start + sent.body.length + TagPair.standard.length +
        next.body.length) rest, Json.probe ((sent.body ++ stream (next :: rest)).take
          (hit.offset - start)) ≠ .complete := by
      intro hit present
      have beyond := le_offset_of_mem_hits present
      have positive := TagPair.standard.length_pos
      rw [List.take_append, List.take_of_length_le (by omega)]
      refine probe_body_append (List.take_prefix _ _) fun none => ?_
      obtain ⟨more, head, -⟩ := exists_stream_cons next rest
      rw [head, List.take_eq_nil_iff] at none
      rcases none with zero | empty
      · omega
      · cases empty
    exact (Frame.boundary_of_passed never).imp_right fun runs => ⟨cut, runs⟩

theorem messageAt_stream (before : List Sent) (sent : Sent) (rest : List Sent) :
    Frame.messageAt .standard (stream (before ++ sent :: rest))
        ⟨(stream before).length, sent.kind⟩ =
      Frame.ofTag (.after .standard (stream (before ++ sent :: rest)))
        ⟨(stream before).length, sent.kind⟩ (sent.body ++ stream rest)
        (hits ((stream before).length + TagPair.standard.length + sent.body.length) rest) := by
  have split : (Lexer.after .standard (stream (before ++ sent :: rest))).hits =
      hits 0 before ++ ⟨(stream before).length, sent.kind⟩ ::
        hits ((stream before).length + TagPair.standard.length + sent.body.length) rest := by
    rw [hits_after, hits_append, Nat.zero_add, hits]
  rw [Frame.messageAt, Frame.extract, Frame.hitsAfter_of_split split, Lexer.after_tags, drop_stream]

/-- As long as all but the last bytes of what was sent may be taken for text, no long body is among
it. -/
theorem length_lt_of_probe_ne {frames : List Sent} {long : Sent} {count : Nat}
    (most : sent.body.length + (stream frames).length ≤ count + 5)
    (alive : Json.probe ((sent.body ++ stream frames).take count) ≠ .malformed)
    (present : long ∈ frames) (whole : long.isWhole = true) : long.meant.length < 8 := by
  by_contra length
  refine alive (Json.probe_eq_malformed_iff.2 (.inl ?_))
  have six : 6 ≤ (stream frames).length := by
    cases frames with
    | nil => cases present
    | cons next others =>
      obtain ⟨more, head, five⟩ := exists_stream_cons next others
      rw [head, List.length_cons]
      omega
  rw [List.take_append, List.take_of_length_le (by omega)]
  refine run?_body_append_eq_none present whole (Nat.le_of_not_lt length) (List.take_prefix _ _) ?_
  rw [List.length_take]
  omega

/-- The message of a tag is what was sent after it; or the body was cut, all that was sent later is
taken for its text, and no long body is among that. -/
theorem messageAt_sent (before : List Sent) (sent : Sent) (rest : List Sent) :
    let frame := Frame.messageAt .standard (stream (before ++ sent :: rest))
      ⟨(stream before).length, sent.kind⟩
    frame.message = sent.message ∧
        frame.stop = (stream before).length + TagPair.standard.length + sent.body.length ∨
      sent.isWhole = false ∧ frame.message = ⟨sent.kind, sent.body ++ stream rest⟩ ∧
        frame.stop = (stream (before ++ sent :: rest)).length ∧
        ∀ long ∈ rest, long.isWhole = true → long.meant.length < 8 := by
  intro frame
  have known : frame = _ := messageAt_stream before sent rest
  generalize begins : (stream before).length + TagPair.standard.length = start at known ⊢
  have total : (stream (before ++ sent :: rest)).length =
      start + sent.body.length + (stream rest).length := by
    rw [stream_append, List.length_append, length_stream_cons]
    omega
  have closed : Frame.closed ⟨(stream before).length, sent.kind⟩ start (start + sent.body.length)
      (sent.body ++ stream rest) =
        ⟨sent.kind, (stream before).length, start, start + sent.body.length, true, sent.body⟩ := by
    rw [Frame.closed, Nat.add_sub_cancel_left, List.take_left]
  cases rest with
  | nil =>
    left
    have growing : frame = ⟨sent.kind, (stream before).length, start,
        start + (sent.body ++ stream []).length, false, sent.body ++ stream []⟩ := by
      rw [known, hits, Frame.ofTag, Lexer.after_tags, begins]
      rfl
    have nothing : stream [] = [] := rfl
    rw [nothing, List.append_nil] at growing
    rw [growing]
    exact ⟨rfl, rfl⟩
  | cons next others =>
    rw [Frame.ofTag, Lexer.after_tags] at known
    simp only [begins] at known
    rcases boundary_stream sent next others start with ends | ⟨cut, runs⟩
    · left
      simp only [ends, closed] at known
      rw [known]
      exact ⟨rfl, rfl⟩
    · simp only [runs, closed] at known
      split at known
      · left
        rw [known]
        exact ⟨rfl, rfl⟩
      -- Nothing that was lexed rules the text out, so there is no long body whose quote would.
      · next alive =>
        right
        rw [known]
        refine ⟨cut, rfl, ?_, fun long present whole => ?_⟩
        · rw [total, Frame.growing, List.length_append, Nat.add_assoc]
        · refine length_lt_of_probe_ne ?_ alive present whole
          have most : (stream (before ++ sent :: next :: others)).length ≤
              (Lexer.after .standard (stream (before ++ sent :: next :: others))).position +
                (TagPair.standard.length - 1) := Lexer.length_le_position_add _
          have six : TagPair.standard.length = 6 := rfl
          omega

end Sent

end Unbraid
