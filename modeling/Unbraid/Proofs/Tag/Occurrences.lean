import Mathlib.Data.List.Basic
import Unbraid.Tag.Lexer

/-!
# The tags of a stream that is still arriving

The occurrences of the tags form a chain: each one is the first that starts at or after the end of
the one before. The chain of a beginning of the stream is a beginning of the chain of the stream,
and the search goes on at the last bytes that may still be the beginning of a tag
(`occurrences_append`). The recorded tags stand where they are said to stand (`mem_occurrences`)
and do not overlap (`pairwise_occurrences`).
-/

namespace Unbraid

namespace TagPair

variable {tags : TagPair}

/-! ## Where a tag starts -/

theorem length_bytes (tags : TagPair) (kind : TagKind) :
    (tags.bytes kind).length = tags.length := by
  cases kind with
  | tool => rfl
  | model => exact tags.length_eq

/-- The tags have one length and differ, so bytes start with at most one of them. -/
theorem startOf?_eq_some_iff {bytes : Bytes} {kind : TagKind} :
    tags.startOf? bytes = some kind ↔ tags.bytes kind <+: bytes := by
  have apart : tags.tool <+: bytes → ¬ tags.model <+: bytes := by
    intro tool model
    have within := List.prefix_of_prefix_length_le tool model (Nat.le_of_eq tags.length_eq.symm)
    exact tags.tool_ne_model (within.eq_of_length tags.length_eq.symm)
  simp only [startOf?, List.isPrefixOf_iff_prefix]
  cases kind with
  | tool =>
    by_cases tool : tags.tool <+: bytes
    · simp [tool, TagPair.bytes]
    · by_cases model : tags.model <+: bytes <;> simp [tool, model, TagPair.bytes]
  | model =>
    by_cases tool : tags.tool <+: bytes
    · simp [tool, apart tool, TagPair.bytes]
    · by_cases model : tags.model <+: bytes <;> simp [tool, model, TagPair.bytes]

theorem startOf?_eq_none_iff {bytes : Bytes} :
    tags.startOf? bytes = none ↔ ∀ kind, ¬ tags.bytes kind <+: bytes := by
  constructor
  · intro none kind found
    rw [startOf?_eq_some_iff.2 found] at none
    cases none
  · intro absent
    cases starts : tags.startOf? bytes with
    | none => rfl
    | some kind => exact absurd (startOf?_eq_some_iff.1 starts) (absent kind)

theorem startOf?_append {bytes : Bytes} (long : tags.length ≤ bytes.length) (more : Bytes) :
    tags.startOf? (bytes ++ more) = tags.startOf? bytes := by
  have same : ∀ kind, tags.bytes kind <+: bytes ++ more ↔ tags.bytes kind <+: bytes := by
    intro kind
    refine ⟨fun found => ?_, fun found => found.trans (List.prefix_append _ _)⟩
    refine List.prefix_of_prefix_length_le found (List.prefix_append _ _) ?_
    rwa [length_bytes]
  simp only [startOf?, List.isPrefixOf_iff_prefix]
  simp only [show tags.tool = tags.bytes .tool from rfl,
    show tags.model = tags.bytes .model from rfl, same]

/-! ## The search in bytes to which more are added -/

theorem search_append_of_some {bytes : Bytes} {position : Nat} {hit : Hit}
    (found : tags.search position bytes = some hit) (more : Bytes) :
    tags.search position (bytes ++ more) = some hit := by
  induction bytes generalizing position with
  | nil => simp [search] at found
  | cons byte rest ih =>
    rw [search] at found
    rw [List.cons_append, search]
    cases starts : tags.startOf? (byte :: rest) with
    | some kind =>
      rw [starts] at found
      rw [← List.cons_append, startOf?_append (length_le_of_startOf? starts), starts]
      exact found
    | none =>
      rw [starts] at found
      have bounds := bounds_of_search found
      have long : tags.length ≤ (byte :: rest).length := by
        simp only [List.length_cons]
        omega
      rw [← List.cons_append, startOf?_append long, starts]
      exact ih found

/-- Where no tag was found, only the last bytes can still be the beginning of one. -/
theorem search_append_of_none {bytes : Bytes} {position : Nat}
    (absent : tags.search position bytes = none) (more : Bytes) :
    tags.search position (bytes ++ more) =
      tags.search (position + (bytes.length - (tags.length - 1)))
        ((bytes ++ more).drop (bytes.length - (tags.length - 1))) := by
  induction bytes generalizing position with
  | nil => simp
  | cons byte rest ih =>
    by_cases short : (byte :: rest).length < tags.length
    · have zero : (byte :: rest).length - (tags.length - 1) = 0 := by omega
      rw [zero, Nat.add_zero, List.drop_zero]
    · have step : (byte :: rest).length - (tags.length - 1) =
          rest.length - (tags.length - 1) + 1 := by
        have := tags.length_pos
        simp only [List.length_cons] at short ⊢
        omega
      rw [search] at absent
      cases starts : tags.startOf? (byte :: rest) with
      | some kind => rw [starts] at absent; cases absent
      | none =>
        rw [starts] at absent
        have later := startOf?_append (Nat.le_of_not_lt short) more
        rw [starts] at later
        rw [step, List.cons_append, search, ← List.cons_append, later, List.cons_append,
          List.drop_succ_cons, ← Nat.add_assoc, Nat.add_right_comm]
        exact ih absent

theorem findFrom_append_of_some {received : Bytes} {start : Nat} {hit : Hit}
    (found : tags.findFrom received start = some hit) (more : Bytes) :
    tags.findFrom (received ++ more) start = some hit := by
  have bounds := bounds_of_findFrom found
  rw [findFrom, List.drop_append_of_le_length (by omega)]
  exact search_append_of_some found more

theorem findFrom_append_of_none {received : Bytes} {start : Nat}
    (absent : tags.findFrom received start = none) (more : Bytes) :
    tags.findFrom (received ++ more) start =
      tags.findFrom (received ++ more) (max start (received.length - (tags.length - 1))) := by
  by_cases past : received.length < start
  · rw [Nat.max_eq_left (by omega)]
  · have inside : start ≤ received.length := by omega
    have skipped := search_append_of_none absent more
    rw [← List.drop_append_of_le_length inside, List.drop_drop, List.length_drop] at skipped
    have reached : start + (received.length - start - (tags.length - 1)) =
        max start (received.length - (tags.length - 1)) := by omega
    rw [reached] at skipped
    exact skipped

theorem startOf?_at_search {bytes : Bytes} {position : Nat} {hit : Hit}
    (found : tags.search position bytes = some hit) :
    tags.startOf? (bytes.drop (hit.offset - position)) = some hit.kind := by
  induction bytes generalizing position with
  | nil => simp [search] at found
  | cons byte rest ih =>
    rw [search] at found
    cases starts : tags.startOf? (byte :: rest) with
    | some kind =>
      rw [starts] at found
      obtain rfl : _ = hit := Option.some.inj found
      simpa using starts
    | none =>
      rw [starts] at found
      have bounds := bounds_of_search found
      have shift : hit.offset - position = hit.offset - (position + 1) + 1 := by omega
      rw [shift, List.drop_succ_cons]
      exact ih found

theorem startOf?_before_search {bytes : Bytes} {position offset : Nat} {hit : Hit}
    (found : tags.search position bytes = some hit) (before : position + offset < hit.offset) :
    tags.startOf? (bytes.drop offset) = none := by
  induction bytes generalizing position offset with
  | nil => simp [search] at found
  | cons byte rest ih =>
    rw [search] at found
    cases starts : tags.startOf? (byte :: rest) with
    | some kind =>
      rw [starts] at found
      obtain rfl : _ = hit := Option.some.inj found
      exact absurd before (by simp)
    | none =>
      rw [starts] at found
      cases offset with
      | zero => exact starts
      | succ offset => exact ih found (by omega)

theorem startOf?_of_search_none {bytes : Bytes} {position : Nat}
    (absent : tags.search position bytes = none) (offset : Nat) :
    tags.startOf? (bytes.drop offset) = none := by
  have nowhere : tags.startOf? [] = none := by
    rw [startOf?_eq_none_iff]
    intro kind found
    have short := found.length_le
    have := tags.length_pos
    rw [length_bytes] at short
    simp only [List.length_nil] at short
    omega
  induction bytes generalizing position offset with
  | nil => simpa using nowhere
  | cons byte rest ih =>
    rw [search] at absent
    cases starts : tags.startOf? (byte :: rest) with
    | some kind => rw [starts] at absent; cases absent
    | none =>
      rw [starts] at absent
      cases offset with
      | zero => exact starts
      | succ offset => exact ih absent offset

/-- The search passes over bytes at which no tag starts. -/
theorem findFrom_add {buffer : Bytes} {start count : Nat}
    (nowhere : ∀ offset < count, tags.startOf? ((buffer.drop start).drop offset) = none) :
    tags.findFrom buffer (start + count) = tags.findFrom buffer start := by
  have skipped : ∀ (count position : Nat) (bytes : Bytes),
      (∀ offset < count, tags.startOf? (bytes.drop offset) = none) →
      tags.search (position + count) (bytes.drop count) = tags.search position bytes := by
    intro count
    induction count with
    | zero => intro position bytes _; rfl
    | succ count ih =>
      intro position bytes nowhere
      cases bytes with
      | nil => rfl
      | cons byte rest =>
        have here := nowhere 0 (Nat.succ_pos count)
        rw [List.drop_zero] at here
        rw [search, here, List.drop_succ_cons, Nat.add_comm count, ← Nat.add_assoc]
        exact ih _ _ fun offset within => nowhere (offset + 1) (Nat.succ_lt_succ within)
  rw [findFrom, findFrom, ← List.drop_drop]
  exact skipped count start _ nowhere

/-- Where a tag stands, the search finds it. -/
theorem findFrom_of_stands {buffer : Bytes} {start : Nat} {kind : TagKind}
    (stands : tags.bytes kind <+: buffer.drop start) :
    tags.findFrom buffer start = some ⟨start, kind⟩ := by
  rw [findFrom]
  cases left : buffer.drop start with
  | nil =>
    rw [left] at stands
    have short := stands.length_le
    have := tags.length_pos
    rw [length_bytes, List.length_nil] at short
    omega
  | cons byte rest =>
    rw [left] at stands
    rw [search, startOf?_eq_some_iff.2 stands]

theorem not_infix_of_absent {buffer : Bytes} (absent : tags.findFrom buffer 0 = none)
    (kind : TagKind) : ¬ tags.bytes kind <:+: buffer := by
  rintro ⟨before, after, rfl⟩
  rw [findFrom, List.drop_zero] at absent
  have nothing := startOf?_of_search_none absent before.length
  rw [List.append_assoc, List.drop_left, startOf?_eq_none_iff] at nothing
  exact nothing kind (List.prefix_append _ _)

theorem not_infix_take {buffer : Bytes} {hit : Hit} (found : tags.findFrom buffer 0 = some hit)
    (kind : TagKind) : ¬ tags.bytes kind <:+: buffer.take hit.offset := by
  rintro ⟨before, after, equal⟩
  have within : before.length < hit.offset := by
    have length := congrArg List.length equal
    have := tags.length_pos
    rw [List.length_take, List.length_append, List.length_append, length_bytes] at length
    omega
  rw [findFrom, List.drop_zero] at found
  have nothing : tags.startOf? (buffer.drop before.length) = none :=
    startOf?_before_search found (by omega)
  rw [← List.take_append_drop hit.offset buffer, ← equal, List.append_assoc, List.append_assoc,
    List.drop_left, startOf?_eq_none_iff] at nothing
  exact nothing kind (List.prefix_append _ _)

/-! ## The chain of occurrences -/

/-- To prove something of a position, prove it where no tag follows, and of a position before a tag
from the position after that tag. This is the recursion of `occurrences`; it ends since a tag has at
least one byte. -/
theorem chain_induction (tags : TagPair) (buffer : Bytes) {motive : Nat → Prop}
    (last : ∀ start, tags.findFrom buffer start = none → motive start)
    (next : ∀ start hit, tags.findFrom buffer start = some hit →
      motive (hit.offset + tags.length) → motive start)
    (start : Nat) : motive start := by
  cases found : tags.findFrom buffer start with
  | none => exact last start found
  | some hit => exact next start hit found (chain_induction tags buffer last next _)
termination_by buffer.length - start
decreasing_by
  have := bounds_of_findFrom found
  have := tags.length_pos
  omega

theorem occurrences_of_none {buffer : Bytes} {start : Nat}
    (absent : tags.findFrom buffer start = none) : tags.occurrences buffer start = [] := by
  rw [occurrences_eq, absent]

theorem occurrences_of_some {buffer : Bytes} {start : Nat} {hit : Hit}
    (found : tags.findFrom buffer start = some hit) :
    tags.occurrences buffer start =
      hit :: tags.occurrences buffer (hit.offset + tags.length) := by
  rw [occurrences_eq, found]

/-- What is known of a recorded tag: where it stands, and that it is there. -/
theorem mem_occurrences {buffer : Bytes} {start : Nat} {hit : Hit}
    (recorded : hit ∈ tags.occurrences buffer start) :
    start ≤ hit.offset ∧ hit.offset + tags.length ≤ buffer.length ∧
      tags.bytes hit.kind <+: buffer.drop hit.offset := by
  induction start using chain_induction tags buffer with
  | last start absent => simp [occurrences_of_none absent] at recorded
  | next start first found ih =>
    have bounds := bounds_of_findFrom found
    rw [occurrences_of_some found, List.mem_cons] at recorded
    rcases recorded with rfl | later
    · refine ⟨bounds.1, bounds.2, ?_⟩
      have starts := startOf?_at_search found
      rw [List.drop_drop, Nat.add_sub_cancel' bounds.1] at starts
      exact startOf?_eq_some_iff.1 starts
    · obtain ⟨after, inside, stands⟩ := ih later
      exact ⟨by omega, inside, stands⟩

/-- No two recorded tags overlap, and they are in the order of the stream. -/
theorem pairwise_occurrences (buffer : Bytes) (start : Nat) :
    (tags.occurrences buffer start).Pairwise fun hit later =>
      hit.offset + tags.length ≤ later.offset := by
  induction start using chain_induction tags buffer with
  | last start absent => simp [occurrences_of_none absent]
  | next start first found ih =>
    rw [occurrences_of_some found, List.pairwise_cons]
    exact ⟨fun later recorded => (mem_occurrences recorded).1, ih⟩

/-- The end of the last recorded tag, or where the search began if there is none. -/
def reach (tags : TagPair) (start : Nat) (hits : List Hit) : Nat :=
  match hits.getLast? with
  | some last => last.offset + tags.length
  | none => start

theorem reach_nil (tags : TagPair) (start : Nat) : tags.reach start [] = start := rfl

theorem reach_cons (tags : TagPair) (start : Nat) (hit : Hit) (rest : List Hit) :
    tags.reach start (hit :: rest) = tags.reach (hit.offset + tags.length) rest := by
  rw [reach, reach, List.getLast?_cons]
  cases rest.getLast? <;> rfl

theorem reach_append (tags : TagPair) (start : Nat) (hits more : List Hit) :
    tags.reach start (hits ++ more) = tags.reach (tags.reach start hits) more := by
  induction hits generalizing start with
  | nil => rfl
  | cons hit rest ih => rw [List.cons_append, reach_cons, ih, reach_cons]

/-- The chain of a stream is that of the bytes that have arrived, and then the one that starts where
their lexing stopped: behind the last tag, or at the last bytes, as many as can be the beginning of
one. So no tag is ever taken back, and none turns up later that begins before that place. -/
theorem occurrences_append (tags : TagPair) (received more : Bytes) (start : Nat) :
    tags.occurrences (received ++ more) start =
      tags.occurrences received start ++
        tags.occurrences (received ++ more)
          (max (tags.reach start (tags.occurrences received start))
            (received.length - (tags.length - 1))) := by
  induction start using chain_induction tags received with
  | last start absent =>
    rw [occurrences_of_none absent, reach_nil, List.nil_append, occurrences_eq,
      findFrom_append_of_none absent, ← occurrences_eq]
  | next start hit found ih =>
    rw [occurrences_of_some found, occurrences_of_some (findFrom_append_of_some found more),
      reach_cons, List.cons_append, ← ih]

theorem le_reach_occurrences (tags : TagPair) (buffer : Bytes) (start : Nat) :
    start ≤ tags.reach start (tags.occurrences buffer start) := by
  induction start using chain_induction tags buffer with
  | last start absent =>
    have reached : tags.reach start (tags.occurrences buffer start) = start := by
      rw [occurrences_of_none absent, reach_nil]
    exact Nat.le_of_eq reached.symm
  | next start hit found ih =>
    have bounds := bounds_of_findFrom found
    rw [occurrences_of_some found, reach_cons]
    omega

theorem reach_occurrences_le (tags : TagPair) {buffer : Bytes} {start : Nat}
    (inside : start ≤ buffer.length) :
    tags.reach start (tags.occurrences buffer start) ≤ buffer.length := by
  induction start using chain_induction tags buffer with
  | last start absent => rwa [occurrences_of_none absent, reach_nil]
  | next start hit found ih =>
    rw [occurrences_of_some found, reach_cons]
    exact ih (bounds_of_findFrom found).2

theorem end_le_reach {buffer : Bytes} {start : Nat} {hit : Hit}
    (recorded : hit ∈ tags.occurrences buffer start) :
    hit.offset + tags.length ≤ tags.reach start (tags.occurrences buffer start) := by
  induction start using chain_induction tags buffer with
  | last start absent => simp [occurrences_of_none absent] at recorded
  | next start first found ih =>
    rw [occurrences_of_some found, List.mem_cons] at recorded
    rw [occurrences_of_some found, reach_cons]
    rcases recorded with rfl | later
    · exact tags.le_reach_occurrences buffer _
    · exact ih later

end TagPair

end Unbraid
