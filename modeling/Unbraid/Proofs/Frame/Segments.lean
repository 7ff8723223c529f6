import Unbraid.Proofs.Frame.Passes

/-!
# The plain splitter

The segments of a stream are what a splitter gives that looks at nothing but the tags: the bytes
from the end of each tag to the next tag, or to the end of the stream. If no segment before the last
is merely the beginning of a JSON value, no tag is ever passed over. Then the messages of the stream
are its segments (`window_eq_segments`), and no pass tears a number (`not_tearsNumber_of_settled`).
-/

namespace Unbraid

namespace TagPair

def segmentsOf (tags : TagPair) (stream : Bytes) : List Hit → List Message
  | [] => []
  | hit :: rest =>
    let start := hit.offset + tags.length
    let stop := (rest.head?.map Hit.offset).getD stream.length
    ⟨hit.kind, (stream.drop start).take (stop - start)⟩ :: tags.segmentsOf stream rest

/-- The bytes between the tags of a stream, and after the last of them. -/
def segments (tags : TagPair) (stream : Bytes) : List Message :=
  tags.segmentsOf stream (tags.occurrences stream 0)

/-- No segment before the last is the beginning of a JSON value that lacks its end. -/
def Settled (tags : TagPair) (stream : Bytes) : Prop :=
  ∀ segment ∈ (tags.segments stream).dropLast, Json.probe segment.body ≠ .incomplete

instance (tags : TagPair) (stream : Bytes) : Decidable (tags.Settled stream) :=
  inferInstanceAs (Decidable (∀ segment ∈ (tags.segments stream).dropLast, _))

variable {tags : TagPair} {stream : Bytes}

theorem Settled.probe_ne (settled : tags.Settled stream) {before rest : List Hit} {hit next : Hit}
    (split : tags.occurrences stream 0 = before ++ hit :: next :: rest) :
    Json.probe ((stream.drop (hit.offset + tags.length)).take
      (next.offset - (hit.offset + tags.length))) ≠ .incomplete := by
  have present : ∀ before : List Hit,
      (⟨hit.kind, (stream.drop (hit.offset + tags.length)).take
          (next.offset - (hit.offset + tags.length))⟩ : Message) ∈
        (tags.segmentsOf stream (before ++ hit :: next :: rest)).dropLast := by
    intro before
    induction before with
    | nil => exact List.mem_cons_self
    | cons first more ih =>
      rw [List.cons_append, segmentsOf, List.dropLast_cons_of_ne_nil]
      · exact List.mem_cons_of_mem _ ih
      · intro none
        rw [none] at ih
        cases ih
  refine settled ⟨hit.kind, _⟩ ?_
  rw [segments, split]
  exact present before

theorem segmentsOf_back {count : Nat} {hits : List Hit} (later : ∀ hit ∈ hits, count ≤ hit.offset) :
    tags.segmentsOf (stream.drop count) (hits.map (Hit.back count)) =
      tags.segmentsOf stream hits := by
  induction hits with
  | nil => rfl
  | cons hit rest ih =>
    have here := later hit List.mem_cons_self
    have start : count + ((hit.back count).offset + tags.length) = hit.offset + tags.length := by
      show count + (hit.offset - count + tags.length) = _
      omega
    have length : ((rest.map (Hit.back count)).head?.map Hit.offset).getD
          (stream.drop count).length - ((hit.back count).offset + tags.length) =
        (rest.head?.map Hit.offset).getD stream.length - (hit.offset + tags.length) := by
      cases rest with
      | nil =>
        show (stream.drop count).length - (hit.offset - count + tags.length) =
          stream.length - (hit.offset + tags.length)
        rw [List.length_drop]
        omega
      | cons next more =>
        have := later next (List.mem_cons_of_mem _ List.mem_cons_self)
        show next.offset - count - (hit.offset - count + tags.length) =
          next.offset - (hit.offset + tags.length)
        omega
    rw [List.map_cons, segmentsOf, segmentsOf,
      ih fun next present => later next (List.mem_cons_of_mem _ present)]
    simp only [List.drop_drop, start, length]
    rfl

theorem segments_drop {hit : Hit} (found : tags.findFrom stream 0 = some hit) :
    tags.segments (stream.drop hit.offset) = tags.segments stream := by
  have starts := startOf?_at_search found
  rw [List.drop_zero, Nat.sub_zero, startOf?_eq_some_iff] at starts
  have again : tags.findFrom stream hit.offset = some hit := findFrom_of_stands starts
  have same : tags.occurrences stream hit.offset = tags.occurrences stream 0 := by
    rw [occurrences_of_some again, occurrences_of_some found]
  have shifted : tags.occurrences (stream.drop hit.offset) (hit.offset - hit.offset) =
      (tags.occurrences stream hit.offset).map (Hit.back hit.offset) :=
    Lexer.occurrences_drop (Nat.le_refl hit.offset) stream
  rw [Nat.sub_self, same] at shifted
  rw [segments, shifted, segments]
  refine segmentsOf_back fun other present => ?_
  rw [← same] at present
  exact (mem_occurrences present).1

end TagPair

namespace Frame

variable {tags : TagPair} {received more : Bytes} {hit next : Hit} {before rest : List Hit}

theorem hitsAfter_of_split (split : (Lexer.after tags received).hits = before ++ hit :: rest) :
    (Lexer.after tags received).hitsAfter hit.offset = rest := by
  have apart := apart_after tags received
  have positive := tags.length_pos
  rw [split, List.pairwise_append] at apart
  obtain ⟨-, after, earlier⟩ := apart
  have first : before.filter (fun other => hit.offset + tags.length ≤ other.offset) = [] := by
    refine List.filter_eq_nil_iff.2 fun other present => ?_
    have := earlier other present hit List.mem_cons_self
    simp only [decide_eq_true_eq]
    omega
  have own : ¬ hit.offset + tags.length ≤ hit.offset := by omega
  rw [Lexer.hitsAfter, split, List.filter_append, Lexer.after_tags, first, List.nil_append,
    List.filter_cons_of_neg (by simpa using own)]
  refine List.filter_eq_self.2 fun other present => ?_
  simpa using (List.pairwise_cons.1 after).1 other present

theorem messageAt_of_last (split : (Lexer.after tags received).hits = before ++ [hit]) :
    (messageAt tags received hit).complete = false := by
  rw [messageAt, extract, hitsAfter_of_split split]
  rfl

/-- If the bytes up to the next tag are not the beginning of a value, the message ends there. -/
theorem messageAt_of_next (split : (Lexer.after tags received).hits = before ++ hit :: next :: rest)
    (settled : Json.probe ((received.drop (hit.offset + tags.length)).take
      (next.offset - (hit.offset + tags.length))) ≠ .incomplete) :
    (messageAt tags received hit).complete = true ∧
      (messageAt tags received hit).stop = next.offset := by
  rw [messageAt, extract, hitsAfter_of_split split, ofTag, Lexer.after_tags, boundary]
  cases verdict : Json.probe ((received.drop (hit.offset + tags.length)).take
      (next.offset - (hit.offset + tags.length))) with
  | complete => exact ⟨rfl, rfl⟩
  | malformed => exact ⟨rfl, rfl⟩
  | incomplete => exact absurd verdict settled

theorem window_eq_segmentsOf (settled : tags.Settled received) {done : Nat}
    (split : (Lexer.after tags received).hits = before ++ rest)
    (first : (Lexer.after tags received).hitFrom? done = rest.head?) :
    (window tags received done).map message = tags.segmentsOf received rest := by
  induction rest generalizing before done with
  | nil =>
    rw [window_of_none first]
    rfl
  | cons hit rest ih =>
    rw [List.head?_cons] at first
    have recorded := (mem_of_hitFrom? first).1
    rw [window_of_some first, List.map_cons, TagPair.segmentsOf, message, messageAt_kind,
      messageAt_body]
    cases rest with
    | nil =>
      have growing := messageAt_of_last split
      rw [messageAt_open recorded growing, window_of_length_le (Nat.le_refl _)]
      rfl
    | cons next rest =>
      have again : (Lexer.after tags received).hits = (before ++ [hit]) ++ next :: rest := by
        rw [List.append_assoc]
        exact split
      have known : next ∈ (Lexer.after tags received).hits := by
        rw [again]
        exact List.mem_append_right _ List.mem_cons_self
      obtain ⟨-, stops⟩ := messageAt_of_next split (settled.probe_ne split)
      rw [stops, ih again (hitFrom?_of_mem known)]
      rfl

/-- The messages of a settled stream are its segments. -/
theorem window_eq_segments (settled : tags.Settled received) :
    (window tags received 0).map message = tags.segments received := by
  have split : (Lexer.after tags received).hits = [] ++ tags.occurrences received 0 := rfl
  exact window_eq_segmentsOf settled split (hitFrom?_zero tags received)

/-- While a settled stream arrives, a message that has ended ends there in the whole stream. -/
theorem not_torn_of_settled (settled : tags.Settled (received ++ more)) (done : Nat) :
    ¬ Torn tags (received ++ more) received done := by
  rintro ⟨short, present, long, known, early⟩
  obtain ⟨hit, recorded, -, rfl⟩ := of_mem_window present
  obtain ⟨hit', recorded', -, rfl⟩ := of_mem_window known
  have same := early.tagOffset
  rw [messageAt_tagOffset, messageAt_tagOffset] at same
  have hits : (Lexer.after tags (received ++ more)).hits = (Lexer.after tags received).hits ++
      tags.occurrences (received ++ more) (Lexer.after tags received).position :=
    Lexer.after_append_hits received more
  have kept : hit ∈ (Lexer.after tags (received ++ more)).hits := by
    rw [hits]
    exact List.mem_append_left _ recorded
  obtain rfl : hit' = hit := eq_of_offset recorded' kept same
  obtain ⟨before, rest, split⟩ := List.append_of_mem recorded
  cases rest with
  | nil =>
    have growing := messageAt_of_last split
    rw [early.complete] at growing
    cases growing
  | cons next rest =>
    have whole : (Lexer.after tags (received ++ more)).hits = before ++ hit' :: next ::
        (rest ++ tags.occurrences (received ++ more) (Lexer.after tags received).position) := by
      rw [hits, split, List.append_assoc]
      rfl
    have settles := settled.probe_ne whole
    have ended := messageAt_of_next whole settles
    have inside : next.offset + tags.length ≤ received.length := by
      refine end_le_length ?_
      rw [split]
      exact List.mem_append_right _ (List.mem_cons_of_mem _ List.mem_cons_self)
    have within := end_le_length recorded
    rw [List.drop_append_of_le_length within,
      List.take_append_of_le_length (by rw [List.length_drop]; omega)] at settles
    have shorter := early.shorter
    rw [length_messageAt_body recorded, length_messageAt_body recorded', ended.2,
      (messageAt_of_next split settles).2] at shorter
    exact Nat.lt_irrefl _ shorter

/-- No pass over a settled stream tears a number, however it is cut. -/
theorem not_tearsNumber_of_settled {chunks : List Bytes} {done : Nat}
    (settled : tags.Settled (received ++ chunks.flatten)) :
    ¬ TearsNumber tags (received ++ chunks.flatten) received done chunks := by
  induction chunks generalizing received done with
  | nil => exact id
  | cons chunk rest ih =>
    rw [List.flatten_cons, ← List.append_assoc] at settled ⊢
    rintro (torn | later)
    · exact not_torn_of_settled settled done torn
    · exact ih settled later

end Frame

end Unbraid
