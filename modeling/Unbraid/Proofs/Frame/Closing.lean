import Unbraid.Proofs.Frame.Buffer
import Unbraid.Proofs.Frame.Held

/-!
# The last message before a tag

What becomes of a message that may still grow when the next thing to arrive is a tag. By the body
and the body with the tag (`IsOpen.messageAt_closed`),

* the message ends at the tag if its body is a whole value, or if no tag was passed over in it and
  it goes on like that to no value (`IsOpen.stops`);
* its body takes in the tag if a value can go on like that (`IsOpen.runs_on`);
* otherwise it ends at the tag that was passed over first, and the messages from there on are those
  of a stream that begins there (`IsOpen.goes_back`, `window_behind_drop`).

What is held between two passes is read like a stream of its own, whether a tag is held or not
(`window_behind_held`).
-/

namespace Unbraid

/-! ## A stream from one of its tags on -/

namespace TagPair

variable {tags : TagPair} {stream : Bytes} {start : Nat} {hit : Hit}

/-- Right behind the bytes, the tag of a kind is found, and those in the bytes are as before. -/
def StandsBehind (tags : TagPair) (stream : Bytes) (kind : TagKind) : Prop :=
  tags.occurrences (stream ++ tags.bytes kind) 0 =
    tags.occurrences stream 0 ++ [⟨stream.length, kind⟩]

instance (tags : TagPair) (stream : Bytes) (kind : TagKind) :
    Decidable (tags.StandsBehind stream kind) :=
  inferInstanceAs (Decidable (_ = _))

theorem occurrences_drop_of_nil (absent : tags.occurrences stream 0 = []) (done : Nat) :
    tags.occurrences (stream.drop done) 0 = [] := by
  have nowhere : tags.findFrom stream 0 = none := by
    cases found : tags.findFrom stream 0 with
    | none => rfl
    | some hit => rw [occurrences_of_some found] at absent; cases absent
  have passed : tags.findFrom stream (0 + done) = none :=
    (findFrom_add fun offset _ => startOf?_of_search_none nowhere offset).trans nowhere
  have shifted : tags.occurrences (stream.drop done) (done - done) =
      (tags.occurrences stream done).map (Hit.back done) :=
    Lexer.occurrences_drop (Nat.le_refl done) stream
  rw [Nat.zero_add] at passed
  rw [Nat.sub_self, occurrences_of_none passed] at shifted
  exact shifted

theorem StandsBehind.drop {kind : TagKind} {done : Nat} (stands : tags.StandsBehind stream kind)
    (absent : tags.occurrences stream 0 = []) (within : done ≤ stream.length) :
    tags.StandsBehind (stream.drop done) kind := by
  rw [StandsBehind, absent, List.nil_append] at stands
  have first : tags.findFrom (stream ++ tags.bytes kind) 0 = some ⟨stream.length, kind⟩ := by
    cases found : tags.findFrom (stream ++ tags.bytes kind) 0 with
    | none => rw [occurrences_of_none found] at stands; cases stands
    | some hit =>
      rw [occurrences_of_some found] at stands
      rw [(List.cons.inj stands).1]
  have reached : tags.findFrom (stream ++ tags.bytes kind) (0 + done) =
      some ⟨stream.length, kind⟩ :=
    (findFrom_add fun offset before =>
      startOf?_before_search first (by simpa using Nat.lt_of_lt_of_le before within)).trans first
  have shifted : tags.occurrences ((stream ++ tags.bytes kind).drop done) (done - done) =
      (tags.occurrences (stream ++ tags.bytes kind) done).map (Hit.back done) :=
    Lexer.occurrences_drop (Nat.le_refl done) (stream ++ tags.bytes kind)
  rw [Nat.zero_add] at reached
  rw [Nat.sub_self, occurrences_of_some reached, ← occurrences_of_some first, stands,
    List.drop_append_of_le_length within] at shifted
  rw [StandsBehind, occurrences_drop_of_nil absent, shifted, List.length_drop]
  rfl

/-- The chain of tags goes on from each of them. -/
theorem occurrences_suffix (recorded : hit ∈ tags.occurrences stream start) :
    ∃ before, tags.occurrences stream start = before ++ tags.occurrences stream hit.offset := by
  induction start using chain_induction tags stream with
  | last start absent => rw [occurrences_of_none absent] at recorded; cases recorded
  | next start first found ih =>
    rw [occurrences_of_some found] at recorded ⊢
    rcases List.mem_cons.1 recorded with rfl | later
    · have again := findFrom_of_stands (mem_occurrences (occurrences_of_some found ▸ recorded)).2.2
      exact ⟨[], by rw [List.nil_append, occurrences_of_some again]⟩
    · obtain ⟨before, whole⟩ := ih later
      exact ⟨first :: before, by rw [whole, List.cons_append]⟩

theorem occurrences_at (recorded : hit ∈ tags.occurrences stream start) :
    tags.occurrences stream hit.offset =
      hit :: tags.occurrences stream (hit.offset + tags.length) :=
  occurrences_of_some (findFrom_of_stands (mem_occurrences recorded).2.2)

end TagPair

namespace Lexer

variable {tags : TagPair} {received : Bytes} {hit : Hit}

theorem occurrences_of_mem (recorded : hit ∈ (after tags received).hits) :
    ∃ before, (after tags received).hits = before ++ tags.occurrences received hit.offset ∧
      tags.occurrences received hit.offset = hit :: (after tags received).hitsAfter hit.offset := by
  obtain ⟨before, whole⟩ := TagPair.occurrences_suffix (after_hits received ▸ recorded)
  have own := TagPair.occurrences_at (after_hits received ▸ recorded)
  have split := whole
  rw [own, ← after_hits] at split
  exact ⟨before, whole, by rw [Frame.hitsAfter_of_split split, own]⟩

/-- From a recorded tag on, the bytes are read like a stream of their own. -/
theorem after_drop (recorded : hit ∈ (after tags received).hits) :
    after tags (received.drop hit.offset) = (after tags received).consume hit.offset := by
  obtain ⟨before, whole, own⟩ := occurrences_of_mem recorded
  have shifted : tags.occurrences (received.drop hit.offset) (hit.offset - hit.offset) =
      (tags.occurrences received hit.offset).map (Hit.back hit.offset) :=
    occurrences_drop (Nat.le_refl hit.offset) received
  rw [Nat.sub_self] at shifted
  refine ext_iff'.2 ⟨rfl, ?_, ?_⟩
  · rw [after_hits, shifted, own, consume_hits_of_mem recorded]
  · have ends : tags.reach 0 ((tags.occurrences received hit.offset).map (Hit.back hit.offset)) =
        tags.reach 0 (tags.occurrences received 0) - hit.offset := by
      rw [← after_hits, whole, TagPair.reach_append, own, TagPair.reach, TagPair.reach,
        List.getLast?_map]
      cases last : (hit :: (after tags received).hitsAfter hit.offset).getLast? with
      | none => rw [List.getLast?_eq_none_iff] at last; cases last
      | some final =>
        have present := List.mem_of_getLast? last
        rw [← own] at present
        have := (TagPair.mem_occurrences present).1
        simp only [Option.map_some, Hit.back]
        omega
    rw [after_position, consume_position, after_position, shifted, ends, List.length_drop]
    omega

theorem hitsAfter_consume (recorded : hit ∈ (after tags received).hits) :
    ((after tags received).consume hit.offset).hitsAfter 0 =
      ((after tags received).hitsAfter hit.offset).map (Hit.back hit.offset) := by
  have positive := tags.length_pos
  rw [hitsAfter, consume_hits_of_mem recorded, List.map_cons,
    List.filter_cons_of_neg (by simpa [Hit.back] using Nat.pos_iff_ne_zero.1 positive)]
  refine List.filter_eq_self.2 fun other present => ?_
  obtain ⟨later, known, rfl⟩ := List.mem_map.1 present
  have beyond : hit.offset + tags.length ≤ later.offset :=
    of_decide_eq_true (List.mem_filter.1 known).2
  refine decide_eq_true ?_
  show 0 + tags.length ≤ later.offset - hit.offset
  omega

end Lexer

namespace Frame

variable {tags : TagPair} {received : Bytes} {hit next : Hit} {kind : TagKind}

theorem window_drop (recorded : hit ∈ (Lexer.after tags received).hits) :
    window tags (received.drop hit.offset) 0 =
      (window tags received hit.offset).map (back hit.offset) := by
  have seen := allFrom_buffer tags received hit.offset
  rw [← Lexer.after_drop recorded] at seen
  exact seen

/-- A pass and the end of the stream right after it hand over what the end alone would. -/
theorem flatten_passes_last (chunk : Bytes) {done : Nat}
    (inside : done ≤ (Lexer.after tags received).position) :
    (passes tags received done [chunk]).flatten = window tags (received ++ chunk) done := by
  have same : received ++ [chunk].flatten = received ++ chunk := by
    rw [List.flatten_cons, List.flatten_nil, List.append_nil]
  rw [flatten_passes inside, same]
  rw [same, TearsNumber, TearsNumber, or_false]
  rintro ⟨short, present, long, known, early⟩
  have shorter := early.shorter
  rw [eq_of_tagOffset known present early.tagOffset] at shorter
  exact Nat.lt_irrefl _ shorter

/-! ## The last message and the tag behind it -/

theorem IsOpen.runsOn (growing : IsOpen tags received hit) :
    let start := hit.offset + tags.length
    let following := (Lexer.after tags received).hitsAfter hit.offset
    boundary (received.drop start) start none following =
        .runsOn (following.head?.map Hit.offset) ∧
      ∀ next ∈ following,
        Json.probe ((received.drop start).take (next.offset - start)) = .incomplete := by
  intro start following
  have complete := growing.2
  cases ends : boundary (received.drop start) start none following with
  | ends stop =>
    have closed : messageAt tags received hit = closed hit start stop (received.drop start) := by
      rw [messageAt, extract, ofTag]
      simp only [Lexer.after_tags]
      rw [ends]
    rw [closed] at complete
    cases complete
  | runsOn passed =>
    obtain ⟨first, all⟩ := of_boundary_runsOn ends
    exact ⟨by rw [first, Option.none_or], all⟩

theorem IsOpen.body (growing : IsOpen tags received hit) :
    (messageAt tags received hit).body = received.drop (hit.offset + tags.length) := by
  rw [messageAt_body, messageAt_open growing.1 growing.2, ← List.length_drop, List.take_length]

section

variable (growing : IsOpen tags received hit) (stands : tags.StandsBehind received kind)

include stands in
theorem hit_behind_mem :
    ⟨received.length, kind⟩ ∈ (Lexer.after tags (received ++ tags.bytes kind)).hits := by
  rw [Lexer.after_hits, stands]
  exact List.mem_append_right _ List.mem_cons_self

include stands in
theorem position_behind :
    (Lexer.after tags (received ++ tags.bytes kind)).position =
      (received ++ tags.bytes kind).length := by
  have reached := Lexer.end_le_position (hit_behind_mem stands)
  have within : (Lexer.after tags (received ++ tags.bytes kind)).position ≤ _ :=
    Lexer.position_le_length _
  rw [List.length_append, TagPair.length_bytes] at within ⊢
  exact Nat.le_antisymm within reached

include stands in
theorem window_behind :
    (window tags (received ++ tags.bytes kind) received.length).map message = [⟨kind, []⟩] := by
  have recorded := hit_behind_mem stands
  have last : (messageAt tags (received ++ tags.bytes kind) ⟨received.length, kind⟩).complete =
      false := messageAt_of_last stands
  have own := (IsOpen.window ⟨recorded, last⟩).2.2
  have none : (received ++ tags.bytes kind).drop (received.length + tags.length) = [] := by
    rw [← TagPair.length_bytes tags kind, ← List.length_append, List.drop_length]
  rw [own, List.map_cons, message, messageAt_kind, IsOpen.body ⟨recorded, last⟩, none]
  rfl

include stands in
theorem window_behind_noTag (absent : (Lexer.after tags received).hits = []) {done : Nat}
    (within : done ≤ received.length) :
    (window tags (received ++ tags.bytes kind) done).map message = [⟨kind, []⟩] := by
  have first : (Lexer.after tags (received ++ tags.bytes kind)).hitFrom? done =
      some ⟨received.length, kind⟩ := by
    rw [Lexer.after_hits] at absent
    rw [Lexer.hitFrom?, Lexer.after_hits, stands, absent, List.nil_append]
    exact List.find?_cons_of_pos (decide_eq_true within)
  rw [← window_behind stands]
  congr 1
  exact window_of_hitFrom?_eq (first.trans (hitFrom?_of_mem (hit_behind_mem stands)).symm)

include growing stands in
theorem hitsAfter_behind :
    (Lexer.after tags (received ++ tags.bytes kind)).hitsAfter hit.offset =
      (Lexer.after tags received).hitsAfter hit.offset ++ [⟨received.length, kind⟩] := by
  have inside := end_le_length growing.1
  rw [Lexer.hitsAfter, Lexer.after_hits, stands, List.filter_append, Lexer.after_tags,
    List.filter_cons_of_pos (by simpa using inside)]
  rfl

include growing stands in
theorem messageAt_closed :
    let start := hit.offset + tags.length
    let body := received.drop start
    let passed := ((Lexer.after tags received).hitsAfter hit.offset).head?.map Hit.offset
    let longer := body ++ tags.bytes kind
    messageAt tags (received ++ tags.bytes kind) hit =
      match Json.probe body with
      | .complete => closed hit start received.length longer
      | .malformed => closed hit start (passed.getD received.length) longer
      | .incomplete =>
        if Json.probe longer = .malformed then
          closed hit start (passed.getD received.length) longer
        else Frame.growing hit start longer := by
  intro start body passed longer
  have inside := end_le_length growing.1
  have behind : (received ++ tags.bytes kind).drop start = longer :=
    List.drop_append_of_le_length inside
  have following := hitsAfter_behind growing stands
  have length : body.length = received.length - start := List.length_drop
  have all : longer.take (received.length - start) = body := by rw [← length, List.take_left]
  have whole : longer.take ((received ++ tags.bytes kind).length - start) = longer := by
    rw [← List.length_drop, behind, List.take_length]
  have before : boundary longer start none ((Lexer.after tags received).hitsAfter hit.offset) =
      .runsOn passed := by
    rw [← growing.runsOn.1]
    refine boundary_congr (fun next present => ?_) none
    have := end_le_length (List.mem_filter.1 present).1
    exact List.take_append_of_le_length (by omega)
  have ends : boundary longer start none
      ((Lexer.after tags received).hitsAfter hit.offset ++ [⟨received.length, kind⟩]) =
        boundary longer start passed [⟨received.length, kind⟩] := by
    rw [boundary_append, before]
  rw [messageAt, extract, following, Lexer.after_tags, behind, ofTag, Lexer.after_tags,
    position_behind stands]
  rw [ends, whole, boundary, all]
  cases Json.probe body with
  | complete => rfl
  | malformed => rfl
  | incomplete => cases passed <;> rfl

include stands in
theorem mem_behind (recorded : hit ∈ (Lexer.after tags received).hits) :
    hit ∈ (Lexer.after tags (received ++ tags.bytes kind)).hits := by
  rw [Lexer.after_hits, stands]
  exact List.mem_append_left _ recorded

include growing stands in
/-- When the tag has arrived, the message is the first one from its own tag on. -/
theorem IsOpen.window_cons :
    Frame.window tags (received ++ tags.bytes kind) hit.offset =
      messageAt tags (received ++ tags.bytes kind) hit ::
        Frame.window tags (received ++ tags.bytes kind)
          (messageAt tags (received ++ tags.bytes kind) hit).stop :=
  window_of_some (hitFrom?_of_mem (mem_behind stands growing.1))

include growing stands in
theorem IsOpen.stops
    (ends : Json.probe (messageAt tags received hit).body = .complete ∨
      (Lexer.after tags received).hitsAfter hit.offset = [] ∧
        (Json.probe (messageAt tags received hit).body = .incomplete →
          Json.probe ((messageAt tags received hit).body ++ tags.bytes kind) = .malformed)) :
    (Frame.window tags (received ++ tags.bytes kind) hit.offset).map message =
      [(messageAt tags received hit).message, ⟨kind, []⟩] := by
  have there : messageAt tags (received ++ tags.bytes kind) hit =
      closed hit (hit.offset + tags.length) received.length
        ((messageAt tags received hit).body ++ tags.bytes kind) := by
    rw [messageAt_closed growing stands, ← growing.body]
    rcases ends with complete | ⟨none, malformed⟩
    · rw [complete]
    · rw [none]
      cases verdict : Json.probe (messageAt tags received hit).body with
      | complete => rfl
      | malformed => rfl
      | incomplete => simp only [malformed verdict, if_pos]; rfl
  have length : received.length - (hit.offset + tags.length) =
      (messageAt tags received hit).body.length := by rw [growing.body, List.length_drop]
  have same : (messageAt tags (received ++ tags.bytes kind) hit).message =
      (messageAt tags received hit).message := by
    rw [there, message, closed, length, List.take_left, message, messageAt_kind]
  rw [growing.window_cons stands, List.map_cons, same, there]
  exact congrArg _ (window_behind stands)

include growing stands in
theorem IsOpen.runs_on (cut : Json.probe (messageAt tags received hit).body = .incomplete)
    (longer : Json.probe ((messageAt tags received hit).body ++ tags.bytes kind) ≠ .malformed) :
    (Frame.window tags (received ++ tags.bytes kind) hit.offset).map message =
      [⟨hit.kind, (messageAt tags received hit).body ++ tags.bytes kind⟩] := by
  have there : messageAt tags (received ++ tags.bytes kind) hit =
      Frame.growing hit (hit.offset + tags.length)
        ((messageAt tags received hit).body ++ tags.bytes kind) := by
    rw [messageAt_closed growing stands, ← growing.body, cut]
    simp only [if_neg longer]
  have still : (messageAt tags (received ++ tags.bytes kind) hit).complete = false := by
    rw [there]
    rfl
  rw [(IsOpen.window ⟨mem_behind stands growing.1, still⟩).2.2, there]
  rfl

include growing stands in
/-- The message goes back to the tag that was passed over first: the body before that tag is only
the beginning of a value, and the messages from that tag on follow. -/
theorem IsOpen.goes_back
    (ends : Json.probe (messageAt tags received hit).body = .malformed ∨
      Json.probe (messageAt tags received hit).body = .incomplete ∧
        Json.probe ((messageAt tags received hit).body ++ tags.bytes kind) = .malformed)
    (passed : ((Lexer.after tags received).hitsAfter hit.offset).head? = some next) :
    ∃ part, Json.probe part = .incomplete ∧
      (Frame.window tags (received ++ tags.bytes kind) hit.offset).map message =
        ⟨hit.kind, part⟩ ::
          (Frame.window tags (received ++ tags.bytes kind) next.offset).map message := by
  have present := List.mem_of_mem_head? passed
  have there : messageAt tags (received ++ tags.bytes kind) hit =
      closed hit (hit.offset + tags.length) next.offset
        ((messageAt tags received hit).body ++ tags.bytes kind) := by
    rw [messageAt_closed growing stands, ← growing.body, passed]
    rcases ends with malformed | ⟨cut, longer⟩
    · rw [malformed]
      rfl
    · rw [cut]
      simp only [if_pos longer]
      rfl
  have inside : next.offset - (hit.offset + tags.length) ≤
      (messageAt tags received hit).body.length := by
    have := end_le_length (List.mem_filter.1 present).1
    rw [growing.body, List.length_drop]
    omega
  refine ⟨_, growing.runsOn.2 next present, ?_⟩
  rw [growing.window_cons stands, List.map_cons, there, message, closed,
    List.take_append_of_le_length inside, growing.body]

include stands in
/-- The messages from a recorded tag on are those of a stream that begins there. -/
theorem window_behind_drop (recorded : next ∈ (Lexer.after tags received).hits) :
    (window tags (received.drop next.offset ++ tags.bytes kind) 0).map message =
      (window tags (received ++ tags.bytes kind) next.offset).map message := by
  have inside := end_le_length recorded
  rw [← List.drop_append_of_le_length (by omega), window_drop (mem_behind stands recorded),
    List.map_map]
  rfl

include stands in
/-- What is held between two passes is read like a stream of its own. -/
theorem window_behind_held {done : Nat} (held : Held tags received done) :
    (window tags (received.drop done ++ tags.bytes kind) 0).map message =
      (window tags (received ++ tags.bytes kind) done).map message := by
  cases held with
  | message growing => exact window_behind_drop stands growing.1
  | noTag absent =>
    have within : (Lexer.after tags received).position ≤ received.length :=
      Lexer.position_le_length received
    have nothing : tags.occurrences received 0 = [] := by rw [← Lexer.after_hits]; exact absent
    have behind := TagPair.StandsBehind.drop stands nothing within
    have rest : (Lexer.after tags
        (received.drop (Lexer.after tags received).position)).hits = [] := by
      rw [Lexer.after_hits]
      exact TagPair.occurrences_drop_of_nil nothing _
    rw [window_behind_noTag stands absent within, window_behind_noTag behind rest (Nat.zero_le _)]

end

end Frame

end Unbraid
