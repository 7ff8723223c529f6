import Unbraid.Proofs.Frame.Window

/-!
# What stays when more bytes arrive

A message that has ended in the bytes that have arrived should end there in the whole stream. This
module proves that it does, with one exception.

* A message that has ended stays as it is, or it was closed at a tag that had been passed over,
  because the bytes that the lexer had passed ended inside a number, and it is longer in the stream
  (`messageAt_append`).
* `Torn` says that the second happens in a window. A window that is not torn shows the messages of
  the stream (`window_of_not_torn`); one that is torn does not (`of_torn`).
-/

namespace Unbraid.Frame

/-- The part of a body that the lexer has passed. -/
def lexed (tags : TagPair) (received : Bytes) (start : Nat) : Bytes :=
  (received.drop start).take ((Lexer.after tags received).position - start)

section

variable {tags : TagPair} {received more : Bytes} {done : Nat} {hit : Hit}

theorem hitsAfter_append (tags : TagPair) (received more : Bytes) (offset : Nat) :
    ∃ later, (Lexer.after tags (received ++ more)).hitsAfter offset =
        (Lexer.after tags received).hitsAfter offset ++ later ∧
      ∀ hit ∈ later, (Lexer.after tags received).position ≤ hit.offset := by
  refine ⟨(tags.occurrences (received ++ more) (Lexer.after tags received).position).filter
    fun hit => offset + tags.length ≤ hit.offset, ?_, ?_⟩
  · rw [Lexer.hitsAfter, Lexer.after_append_hits, List.filter_append]
    rfl
  · intro hit present
    exact (TagPair.mem_occurrences (List.mem_filter.1 present).1).1

theorem closed_append (bytes : Bytes) {start stop : Nat} (inside : stop - start ≤ bytes.length) :
    closed hit start stop (bytes ++ more) = closed hit start stop bytes := by
  rw [closed, closed, List.take_append_of_le_length inside]

/-- One message before and after more bytes have arrived: the bytes from where its body starts, the
tags that followed it and those found later, and the lexer at both times. -/
structure Grows (short long : Lexer) (start : Nat) (bytes : Bytes) (following later : List Hit) :
    Prop where
  tags : long.tags = short.tags
  inside : short.position ≤ start + bytes.length
  further : short.position ≤ long.position
  within : ∀ next ∈ following, next.offset < short.position
  beyond : ∀ next ∈ later, short.position ≤ next.offset

section

variable {short long : Lexer} {start first : Nat} {bytes : Bytes} {following later : List Hit}

theorem Grows.boundary (grows : Grows short long start bytes following later) (more : Bytes) :
    boundary (bytes ++ more) start none (following ++ later) =
      match boundary bytes start none following with
      | .ends stop => .ends stop
      | .runsOn passed => boundary (bytes ++ more) start passed later := by
  have same : Frame.boundary (bytes ++ more) start none following =
      Frame.boundary bytes start none following := by
    refine boundary_congr (fun next present => ?_) none
    have := grows.within next present
    have := grows.inside
    exact List.take_append_of_le_length (by omega)
  have split := boundary_append (bytes ++ more) start none following later
  rw [same] at split
  exact split

theorem Grows.passed (grows : Grows short long start bytes following later)
    (runs : Frame.boundary bytes start none following = .runsOn (some first)) :
    first < short.position := by
  obtain ⟨head, -⟩ := of_boundary_runsOn runs
  cases following with
  | nil => cases head
  | cons next _ =>
    obtain rfl : first = next.offset := Option.some.inj head
    exact grows.within next List.mem_cons_self

/-- Once the bytes that the lexer has passed cannot be carried on, a body that was passed over ends
at the first tag, whatever follows. -/
theorem Grows.ofTag_of_stopped (grows : Grows short long start bytes following later)
    (begins : hit.offset + short.tags.length = start)
    (runs : Frame.boundary bytes start none following = .runsOn (some first))
    (stopped : Json.State.start.run? (bytes.take (short.position - start)) = none) :
    ofTag long hit (bytes ++ more) (following ++ later) = closed hit start first bytes := by
  have inside := grows.inside
  have passed := grows.passed runs
  have malformed : ∀ length, short.position - start ≤ length →
      Json.probe ((bytes ++ more).take length) = .malformed := by
    intro length beyond
    obtain ⟨tail, whole⟩ := List.take_prefix_take_left (l := bytes ++ more) beyond
    rw [← whole, List.take_append_of_le_length (by omega)]
    exact Json.probe_append_of_stopped stopped tail
  have kept : closed hit start first (bytes ++ more) = closed hit start first bytes :=
    closed_append bytes (by omega)
  simp only [ofTag, grows.tags, begins, grows.boundary, runs]
  cases later with
  | nil =>
    have verdict := malformed (long.position - start) (Nat.sub_le_sub_right grows.further start)
    simp only [Frame.boundary, if_pos verdict]
    exact kept
  | cons next rest =>
    have beyond := grows.beyond next List.mem_cons_self
    have verdict := malformed (next.offset - start) (Nat.sub_le_sub_right beyond start)
    simp only [Frame.boundary, verdict, Option.getD_some]
    exact kept

/-- A body that was passed over ends at the first tag, or it ends later. -/
theorem Grows.ofTag_of_runsOn (grows : Grows short long start bytes following later)
    (begins : hit.offset + short.tags.length = start)
    (runs : Frame.boundary bytes start none following = .runsOn (some first)) :
    ofTag long hit (bytes ++ more) (following ++ later) = closed hit start first bytes ∨
      first < (ofTag long hit (bytes ++ more) (following ++ later)).stop := by
  have inside := grows.inside
  have passed := grows.passed runs
  have kept : closed hit start first (bytes ++ more) = closed hit start first bytes :=
    closed_append bytes (by omega)
  simp only [ofTag, grows.tags, begins, grows.boundary, runs]
  cases ends : Frame.boundary (bytes ++ more) start (some first) later with
  | ends stop =>
    rcases of_boundary_ends ends with same | ⟨next, present, equal⟩
    · obtain rfl : first = stop := Option.some.inj same
      exact .inl kept
    · have := grows.beyond next present
      right
      show first < stop
      omega
  | runsOn open' =>
    obtain ⟨still, -⟩ := of_boundary_runsOn ends
    obtain rfl : open' = some first := still
    simp only
    split
    · exact .inl kept
    · right
      show first < start + (bytes ++ more).length
      rw [List.length_append]
      omega

/-- A message that has ended stays, or it was closed inside a number and ends later. -/
theorem Grows.ofTag (grows : Grows short long start bytes following later)
    (begins : hit.offset + short.tags.length = start)
    (complete : (ofTag short hit bytes following).complete = true) :
    Frame.ofTag long hit (bytes ++ more) (following ++ later) =
        Frame.ofTag short hit bytes following ∨
      (Frame.ofTag short hit bytes following).stop <
          (Frame.ofTag long hit (bytes ++ more) (following ++ later)).stop ∧
        Json.EndsInNumber (bytes.take (short.position - start)) := by
  have inside := grows.inside
  cases ends : Frame.boundary bytes start none following with
  | ends stop =>
    left
    obtain none | ⟨next, present, equal⟩ := of_boundary_ends ends
    · cases none
    · have := grows.within next present
      have kept : closed hit start stop (bytes ++ more) = closed hit start stop bytes :=
        closed_append bytes (by omega)
      simp only [Frame.ofTag, grows.tags, begins, grows.boundary, ends, kept]
  | runsOn open' =>
    cases open' with
    | none =>
      simp only [Frame.ofTag, begins, ends] at complete
      cases complete
    | some first =>
      -- The message has ended because the bytes that the lexer has passed are malformed. They stay
      -- so, unless they end inside a number.
      by_cases malformed : Json.probe (bytes.take (short.position - start)) = .malformed
      · have now : Frame.ofTag short hit bytes following = closed hit start first bytes := by
          simp only [Frame.ofTag, begins, ends, if_pos malformed]
        rw [now]
        rcases Json.probe_eq_malformed_iff.1 malformed with stopped | number
        · exact .inl (grows.ofTag_of_stopped begins ends stopped)
        · rcases grows.ofTag_of_runsOn begins ends with same | longer
          · exact .inl same
          · exact .inr ⟨longer, number⟩
      · simp only [Frame.ofTag, begins, ends, if_neg malformed] at complete
        cases complete

end

theorem messageAt_append (more : Bytes) (recorded : hit ∈ (Lexer.after tags received).hits)
    (complete : (messageAt tags received hit).complete = true) :
    messageAt tags (received ++ more) hit = messageAt tags received hit ∨
      (messageAt tags received hit).stop < (messageAt tags (received ++ more) hit).stop ∧
        Json.EndsInNumber (lexed tags received (hit.offset + tags.length)) := by
  obtain ⟨later, whole, beyond⟩ := hitsAfter_append tags received more hit.offset
  have inside := end_le_length recorded
  have grows : Grows (Lexer.after tags received) (Lexer.after tags (received ++ more))
      (hit.offset + tags.length) (received.drop (hit.offset + tags.length))
      ((Lexer.after tags received).hitsAfter hit.offset) later := by
    refine ⟨rfl, ?_, Lexer.position_mono received more, fun next present => ?_, beyond⟩
    · rw [List.length_drop, Nat.add_sub_cancel' inside]
      exact Lexer.position_le_length received
    · have := Lexer.end_le_position (List.mem_filter.1 present).1
      have := tags.length_pos
      omega
  have long : messageAt tags (received ++ more) hit =
      ofTag (Lexer.after tags (received ++ more)) hit
        (received.drop (hit.offset + tags.length) ++ more)
        ((Lexer.after tags received).hitsAfter hit.offset ++ later) := by
    rw [← List.drop_append_of_le_length inside, ← whole]
    rfl
  rw [long]
  exact grows.ofTag rfl complete

theorem hitFrom?_append (more : Bytes)
    (found : (Lexer.after tags received).hitFrom? done = some hit) :
    (Lexer.after tags (received ++ more)).hitFrom? done = some hit := by
  rw [Lexer.hitFrom?] at found ⊢
  rw [Lexer.after_append_hits, List.find?_append, found, Option.some_or]

theorem hitFrom?_position (more : Bytes)
    (inside : done ≤ (Lexer.after tags received).position)
    (absent : (Lexer.after tags received).hitFrom? done = none) :
    (Lexer.after tags (received ++ more)).hitFrom? (Lexer.after tags received).position =
      (Lexer.after tags (received ++ more)).hitFrom? done := by
  -- A recorded tag ends where lexing stopped or before, so none stands from there on.
  have before : (Lexer.after tags received).hits.find?
      (fun hit => (Lexer.after tags received).position ≤ hit.offset) = none := by
    refine List.find?_eq_none.2 fun hit recorded => ?_
    have := Lexer.end_le_position recorded
    have := tags.length_pos
    simp only [decide_eq_true_eq]
    omega
  have first : ∀ offset ≤ (Lexer.after tags received).position,
      (tags.occurrences (received ++ more) (Lexer.after tags received).position).find?
          (fun hit => offset ≤ hit.offset) =
        (tags.occurrences (received ++ more) (Lexer.after tags received).position).head? := by
    intro offset within
    cases chain : tags.occurrences (received ++ more) (Lexer.after tags received).position with
    | nil => rfl
    | cons hit rest =>
      have known : hit ∈ tags.occurrences (received ++ more) _ :=
        chain ▸ List.mem_cons_self
      have := (TagPair.mem_occurrences known).1
      rw [List.find?_cons_of_pos (by simpa using Nat.le_trans within this), List.head?_cons]
  rw [Lexer.hitFrom?] at absent
  rw [Lexer.hitFrom?, Lexer.hitFrom?, Lexer.after_append_hits, List.find?_append,
    List.find?_append, absent, before, Option.none_or, Option.none_or, first _ (Nat.le_refl _),
    first _ inside]

theorem window_of_hitFrom?_eq {other : Nat}
    (same :
      (Lexer.after tags received).hitFrom? other = (Lexer.after tags received).hitFrom? done) :
    window tags received other = window tags received done := by
  cases found : (Lexer.after tags received).hitFrom? done with
  | none => rw [window_of_none found, window_of_none (same.trans found)]
  | some hit => rw [window_of_some found, window_of_some (same.trans found)]

/-- A message of a window closed too early: with more of the stream it is longer. The bytes that the
lexer had passed ended inside a number. -/
structure Early (tags : TagPair) (received : Bytes) (short long : Frame) : Prop where
  complete : short.complete = true
  kind : long.kind = short.kind
  tagOffset : long.tagOffset = short.tagOffset
  shorter : short.body.length < long.body.length
  inNumber : Json.EndsInNumber (lexed tags received short.start)

/-- In a window of the bytes that have arrived, a message is closed too early. -/
def Torn (tags : TagPair) (stream received : Bytes) (done : Nat) : Prop :=
  ∃ short ∈ window tags received done, ∃ long ∈ window tags stream done,
    Early tags received short long

/-- The messages that have ended are those of the stream, up to one that was closed too early. -/
theorem window_append (more : Bytes) (inside : done ≤ (Lexer.after tags received).position) :
    ended tags received done ++
        window tags (received ++ more) (settled tags received done) =
      window tags (received ++ more) done ∨
    ∃ before short long after rest,
      ended tags received done = before ++ short :: after ∧
      window tags (received ++ more) done = before ++ long :: rest ∧
      Early tags received short long := by
  induction done using window_induction tags received with
  | last done absent =>
    obtain ⟨none, stops⟩ := ended_of_none absent
    left
    rw [none, stops, List.nil_append]
    exact window_of_hitFrom?_eq (hitFrom?_position more inside absent)
  | next done hit found ih =>
    have recorded := (mem_of_hitFrom? found).1
    have later := hitFrom?_append more found
    cases complete : (messageAt tags received hit).complete with
    | false =>
      obtain ⟨none, stops, -⟩ := ended_of_open found complete
      left
      rw [none, stops, List.nil_append]
      refine window_of_hitFrom?_eq ?_
      rw [hitFrom?_append more (hitFrom?_of_mem recorded), later]
    | true =>
      obtain ⟨head, stops⟩ := ended_of_complete found complete
      -- Either the first message stays, and what follows it decides, or it was closed too early.
      rcases messageAt_append more recorded complete with same | ⟨longer, number⟩
      · rcases ih (stop_le_position complete) with
          whole | ⟨before, short, long, after, rest, here, there, early⟩
        · left
          rw [head, stops, List.cons_append, whole, window_of_some later, same]
        · right
          refine ⟨messageAt tags received hit :: before, short, long, after, rest, ?_, ?_, early⟩
          · rw [head, here]
            rfl
          · rw [window_of_some later, same, there]
            rfl
      · right
        have present := (mem_of_hitFrom? later).1
        have starts := start_le_stop tags received hit
        refine ⟨[], messageAt tags received hit, messageAt tags (received ++ more) hit, _, _, head,
          window_of_some later, complete, ?_, ?_, ?_, ?_⟩
        · rw [messageAt_kind, messageAt_kind]
        · rw [messageAt_tagOffset, messageAt_tagOffset]
        · rw [length_messageAt_body recorded, length_messageAt_body present]
          omega
        · rw [messageAt_start]
          exact number

theorem eq_of_tagOffset {frame other : Frame} {done from' : Nat}
    (present : frame ∈ window tags received done) (known : other ∈ window tags received from')
    (same : frame.tagOffset = other.tagOffset) : frame = other := by
  obtain ⟨hit, recorded, -, rfl⟩ := of_mem_window present
  obtain ⟨hit', recorded', -, rfl⟩ := of_mem_window known
  rw [messageAt_tagOffset, messageAt_tagOffset] at same
  rw [eq_of_offset recorded recorded' same]

/-- In a window that is not torn, the messages that have ended are those of the stream. What the
window is done with can be forgotten: the rest of the stream reads the same from there as from the
beginning. -/
theorem window_of_not_torn (more : Bytes) (inside : done ≤ (Lexer.after tags received).position)
    (whole : ¬ Torn tags (received ++ more) received done) :
    ended tags received done ++
        window tags (received ++ more) (settled tags received done) =
      window tags (received ++ more) done := by
  rcases window_append more inside with
    same | ⟨before, short, long, after, rest, here, there, early⟩
  · exact same
  · refine absurd ⟨short, ?_, long, ?_, early⟩ whole
    · have known : short ∈ ended tags received done := by
        rw [here]
        exact List.mem_append_right _ List.mem_cons_self
      exact List.mem_of_mem_filter known
    · rw [there]
      exact List.mem_append_right _ List.mem_cons_self

/-- In a torn window, one of the messages that have ended is not that of the stream in its place. -/
theorem of_torn (more : Bytes) (inside : done ≤ (Lexer.after tags received).position)
    (torn : Torn tags (received ++ more) received done) :
    ∃ before short long after rest,
      ended tags received done = before ++ short :: after ∧
      window tags (received ++ more) done = before ++ long :: rest ∧
      Early tags received short long := by
  rcases window_append more inside with same | early
  · obtain ⟨short, present, long, known, early⟩ := torn
    have kept : short ∈ window tags (received ++ more) done := by
      rw [← same]
      exact List.mem_append_left _ (List.mem_filter.2 ⟨present, early.complete⟩)
    have shorter := early.shorter
    rw [eq_of_tagOffset known kept early.tagOffset] at shorter
    exact absurd shorter (Nat.lt_irrefl _)
  · exact early

end

end Unbraid.Frame
