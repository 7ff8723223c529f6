import Mathlib.Order.Bounds.Basic
import Unbraid.Tag.Words
import Unbraid.Proofs.Tag.Windowed

/-!
# The search that leaps from byte to byte

The plain search looks at every position in turn. A program leaps instead to the next byte that
begins either tag, and counts in machine words. Here the search is written in that way; of the
search for a byte only what it promises is used (`FindsFirst`).

Where the end of a tag at the start is a word, the two searches agree: they give the first tag from
the start on, if there is any. Where it is not, there is no tag, but the program may stop instead of
saying so (`Overflow.Stops`). `Platform.searches` says when a search gives a tag, when it gives none
and when it stops; `Platform.stops_at_the_last_word` is a search that stops.
-/

namespace Unbraid

/-! ## What a search is to find -/

namespace TagPair

/-- The tag of a kind stands at a position, whole. -/
def StandsAt (tags : TagPair) (buffer : Bytes) (kind : TagKind) (position : Nat) : Prop :=
  ∃ before behind, buffer = before ++ tags.bytes kind ++ behind ∧ before.length = position

/-- The first tag from a start on: where it is, and of which kind. -/
structure IsFirst (tags : TagPair) (buffer : Bytes) (start : Nat) (hit : Hit) : Prop where
  least : IsLeast {position | start ≤ position ∧ ∃ kind, tags.StandsAt buffer kind position}
    hit.offset
  stands : tags.StandsAt buffer hit.kind hit.offset

variable {tags : TagPair} {buffer : Bytes} {start position : Nat} {kind : TagKind} {hit : Hit}

theorem bytes_ne_nil (tags : TagPair) (kind : TagKind) : tags.bytes kind ≠ [] := by
  rw [← List.length_pos_iff, length_bytes]
  exact tags.length_pos

theorem StandsAt.end_le_length (stands : tags.StandsAt buffer kind position) :
    position + tags.length ≤ buffer.length := by
  obtain ⟨before, behind, rfl, rfl⟩ := stands
  simp only [List.length_append, length_bytes]
  omega

theorem standsAt_iff : tags.StandsAt buffer kind position ↔
    tags.bytes kind <+: buffer.drop position := by
  constructor
  · rintro ⟨before, behind, rfl, rfl⟩
    rw [List.append_assoc, List.drop_left]
    exact List.prefix_append _ _
  · rintro ⟨behind, begins⟩
    have inside : position ≤ buffer.length := by
      have positive := tags.length_pos
      have length := congrArg List.length begins
      rw [List.length_append, length_bytes, List.length_drop] at length
      omega
    refine ⟨buffer.take position, behind, ?_, List.length_take_of_le inside⟩
    rw [List.append_assoc, begins, List.take_append_drop]

theorem startOf?_eq_none_iff_standsAt :
    tags.startOf? (buffer.drop position) = none ↔
      ∀ kind, ¬ tags.StandsAt buffer kind position := by
  simp only [startOf?_eq_none_iff, standsAt_iff]

theorem isFirst_of_findFrom (found : tags.findFrom buffer start = some hit) :
    tags.IsFirst buffer start hit := by
  have after := (bounds_of_findFrom found).1
  have stands : tags.StandsAt buffer hit.kind hit.offset := by
    have starts := startOf?_at_search found
    rw [List.drop_drop, Nat.add_sub_cancel' after] at starts
    exact standsAt_iff.2 (startOf?_eq_some_iff.1 starts)
  refine ⟨⟨⟨after, hit.kind, stands⟩, ?_⟩, stands⟩
  rintro position ⟨reached, kind, other⟩
  refine Nat.le_of_not_lt fun before => ?_
  have early : start + (position - start) < hit.offset := by omega
  have nothing := startOf?_before_search found early
  rw [List.drop_drop, Nat.add_sub_cancel' reached] at nothing
  exact startOf?_eq_none_iff_standsAt.1 nothing kind other

theorem findFrom_eq_some_iff :
    tags.findFrom buffer start = some hit ↔ tags.IsFirst buffer start hit := by
  refine ⟨isFirst_of_findFrom, fun first => ?_⟩
  obtain ⟨⟨⟨after, -⟩, least⟩, stands⟩ := first
  have passed : tags.findFrom buffer (start + (hit.offset - start)) =
      tags.findFrom buffer start := by
    refine findFrom_add fun offset before => ?_
    rw [List.drop_drop, startOf?_eq_none_iff_standsAt]
    intro kind other
    have := least ⟨Nat.le_add_right start offset, kind, other⟩
    omega
  rw [← passed, Nat.add_sub_cancel' after]
  exact findFrom_of_stands (standsAt_iff.1 stands)

theorem findFrom_eq_none_iff : tags.findFrom buffer start = none ↔
    ∀ position, start ≤ position → ∀ kind, ¬ tags.StandsAt buffer kind position := by
  constructor
  · intro absent position reached
    have nothing := startOf?_of_search_none absent (position - start)
    rw [List.drop_drop, Nat.add_sub_cancel' reached] at nothing
    exact startOf?_eq_none_iff_standsAt.1 nothing
  · intro nowhere
    cases found : tags.findFrom buffer start with
    | none => rfl
    | some hit =>
      have first := isFirst_of_findFrom found
      exact absurd first.stands (nowhere hit.offset first.least.1.1 hit.kind)

def firstByte (tags : TagPair) (kind : TagKind) : UInt8 :=
  (tags.bytes kind).head (tags.bytes_ne_nil kind)

theorem getElem?_firstByte (tags : TagPair) (kind : TagKind) :
    (tags.bytes kind)[0]? = some (tags.firstByte kind) := by
  rw [← List.head?_eq_getElem?]
  exact List.head?_eq_some_head _

end TagPair

/-! ## The search for a byte -/

/-- A search for either of two bytes: an index into the bytes that are searched, or none. How it
finds it is not said; a machine may look at many bytes at a time. -/
abbrev ByteSearch := UInt8 → UInt8 → (bytes : Bytes) → Option (Fin bytes.length)

/-- What such a search promises: it gives the first index of either byte. -/
structure FindsFirst (find : ByteSearch) : Prop where
  either {first other : UInt8} {bytes : Bytes} {index : Fin bytes.length} :
    find first other bytes = some index → bytes[index] = first ∨ bytes[index] = other
  least {first other : UInt8} {bytes : Bytes} {index : Fin bytes.length} :
    find first other bytes = some index →
      ∀ earlier < index, bytes[earlier] ≠ first ∧ bytes[earlier] ≠ other
  absent {first other : UInt8} {bytes : Bytes} :
    find first other bytes = none → first ∉ bytes ∧ other ∉ bytes

theorem FindsFirst.map_val {find : ByteSearch} (sound : FindsFirst find) (first other : UInt8)
    (bytes : Bytes) : (find first other bytes).map Fin.val =
      bytes.findIdx? fun byte => byte = first || byte = other := by
  cases found : find first other bytes with
  | none =>
    obtain ⟨noFirst, noOther⟩ := sound.absent found
    refine (List.findIdx?_eq_none_iff.2 fun byte present => ?_).symm
    rw [Bool.or_eq_false_iff, decide_eq_false_iff_not, decide_eq_false_iff_not]
    exact ⟨fun same => noFirst (same ▸ present), fun same => noOther (same ▸ present)⟩
  | some index =>
    refine (List.findIdx?_eq_some_iff_getElem.2 ⟨index.isLt, ?_, fun earlier before => ?_⟩).symm
    · rw [Bool.or_eq_true, decide_eq_true_iff, decide_eq_true_iff]
      exact sound.either found
    · have apart := sound.least found ⟨earlier, by omega⟩ before
      rw [Bool.or_eq_true, decide_eq_true_iff, decide_eq_true_iff, not_or]
      exact apart

def findEither : ByteSearch := fun first other bytes =>
  bytes.findFinIdx? fun byte => byte = first || byte = other

theorem findsFirst_findEither : FindsFirst findEither where
  either found := by simpa using (List.findFinIdx?_eq_some_iff.1 found).1
  least found earlier before := by
    simpa using (List.findFinIdx?_eq_some_iff.1 found).2 earlier before
  absent none := by
    have nowhere := List.findFinIdx?_eq_none_iff.1 none
    exact ⟨fun present => by simpa using nowhere _ present,
      fun present => by simpa using nowhere _ present⟩

/-! ## The search in words -/

def Overflow.difference? (overflow : Overflow) (n m : Nat) : Option Nat :=
  if m ≤ n then some (n - m)
  else match overflow with
    | stops => none
    | wraps => some (n + UInt64.size - m)

theorem Overflow.difference?_eq {n m : Nat} (overflow : Overflow) (below : m ≤ n) :
    overflow.difference? n m = some (n - m) := if_pos below

open Checked

/-- What the search takes from the machine it runs on. -/
structure Platform where
  overflow : Overflow
  find : ByteSearch

namespace Platform

variable (platform : Platform) (tags : TagPair) (buffer : Bytes)

def matchAt (position : Nat) : Option (Option TagKind) := do
  let stop ← platform.overflow.sum? position tags.length
  some <| match slice? buffer position stop with
    | none => none
    | some window =>
      if window = tags.tool then some .tool
      else if window = tags.model then some .model
      else none

/-- The first tag from a position on. Each turn goes to the next byte that begins either tag, no
further than where the last tag could start. Nothing if the program stops.

The sums that are not checked are positions in the buffer, and so they are words. -/
def findFrom (position : Nat) : Option (Option Hit) := do
  let stop ← platform.overflow.sum? position tags.length
  if stop ≤ buffer.length then
    let last ← platform.overflow.difference? buffer.length tags.length
    match _within : slice? buffer position (last + 1) with
    | none => none
    | some window =>
      match platform.find (tags.firstByte .tool) (tags.firstByte .model) window with
      | none => some none
      | some skipped =>
        match ← platform.matchAt tags buffer (position + skipped) with
        | some kind => some (some ⟨position + skipped, kind⟩)
        | none => findFrom (position + skipped + 1)
  else some none
termination_by buffer.length - position
decreasing_by
  have := length_le_of_slice? _within
  omega

variable {platform tags buffer}

theorem matchAt_eq {position : Nat} (word : position + tags.length < UInt64.size) :
    platform.matchAt tags buffer position = some (tags.kindAt? buffer position) := by
  rw [← TagPair.matchAt?_eq, matchAt, platform.overflow.sum?_eq word]
  rfl

/-- As long as the end of a tag at the position is a word, the search gives what the plain one
gives. -/
theorem findFrom_eq (sound : FindsFirst platform.find) (fits : 2 * buffer.length < UInt64.size)
    {position : Nat} (word : position + tags.length < UInt64.size) :
    platform.findFrom tags buffer position = some (tags.findFrom buffer position) := by
  have positive := tags.length_pos
  have tool := tags.getElem?_firstByte .tool
  have model := tags.getElem?_firstByte .model
  -- The induction is on the turns: each of them begins behind the byte that the last one leapt to.
  induction position using findFrom.induct buffer with
  | case1 position ih =>
    rw [findFrom, platform.overflow.sum?_eq word, Option.bind_eq_bind, Option.bind_some]
    by_cases room : position + tags.length ≤ buffer.length
    · have last := platform.overflow.difference?_eq (show tags.length ≤ buffer.length by omega)
      have inside := slice?_eq (show position ≤ buffer.length - tags.length + 1 by omega)
        (show buffer.length - tags.length + 1 ≤ buffer.length by omega)
      rw [if_pos room, last, Option.bind_eq_bind, Option.bind_some]
      split
      · next outside =>
        rw [inside] at outside
        cases outside
      · next window within =>
        obtain rfl := Option.some.inj (inside.symm.trans within)
        have leap := sound.map_val (tags.firstByte .tool) (tags.firstByte .model)
          ((buffer.drop position).take (buffer.length - tags.length + 1 - position))
        split
        · next absent =>
          rw [absent] at leap
          rw [TagPair.findFrom_of_no_first tool model leap.symm]
        · next skipped found =>
          have bound := skipped.isLt
          simp only [List.length_take, List.length_drop] at bound
          rw [found] at leap
          rw [matchAt_eq (by omega), Option.bind_some, TagPair.findFrom_leap tool model leap.symm]
          cases tags.kindAt? buffer (position + skipped) with
          | some kind => rfl
          | none => exact ih (position + tags.length) _ _ within skipped (by omega)
    · rw [if_neg room, TagPair.findFrom_of_length_lt (Nat.lt_of_not_le room)]

end Platform

/-! ## Where the program stops -/

/-- The end of a tag at the start is no word, and the program stops at that: it checks its sums, or
the sum leads back into the buffer. -/
def Overflow.Stops (overflow : Overflow) (tags : TagPair) (buffer : Bytes)
    (start : UInt64) : Prop :=
  UInt64.size ≤ start.toNat + tags.length ∧
    (overflow = .stops ∨ (start.toNat + tags.length) % UInt64.size ≤ buffer.length)

instance (overflow : Overflow) (tags : TagPair) (buffer : Bytes) (start : UInt64) :
    Decidable (overflow.Stops tags buffer start) := inferInstanceAs (Decidable (_ ∧ _))

section

variable {tags : TagPair} {buffer : Bytes} {start : UInt64}

/-- No buffer reaches a start at which the program stops. -/
theorem Overflow.Stops.nowhere {overflow : Overflow} (stops : overflow.Stops tags buffer start)
    (fits : 2 * buffer.length < UInt64.size) {position : Nat} (reached : start.toNat ≤ position)
    (kind : TagKind) : ¬ tags.StandsAt buffer kind position := by
  intro stands
  have := stands.end_le_length
  have := stops.1
  omega

theorem Overflow.wraps_stops_iff (exceeds : UInt64.size ≤ start.toNat + tags.length) :
    wraps.Stops tags buffer start ↔ (start.toNat + tags.length) % UInt64.size ≤ buffer.length := by
  rw [Stops, and_iff_right exceeds, or_iff_right nofun]

theorem TagPair.findFromWord?_eq (overflow : Overflow) (short : 2 * tags.length < UInt64.size) :
    tags.findFromWord? overflow buffer start =
      if overflow.Stops tags buffer start then none
      else some (tags.findFrom buffer start.toNat) := by
  have isWord := start.toNat_lt_size
  rw [findFromWord?]
  rcases Nat.lt_or_ge (start.toNat + tags.length) (UInt64.size) with word | exceeds
  · have goes : ¬ overflow.Stops tags buffer start := fun stops => absurd stops.1 (by omega)
    rw [overflow.sum?_eq word, Option.bind_eq_bind, Option.bind_some, if_neg (by omega),
      if_neg goes]
  · cases overflow with
    | stops =>
      rw [Overflow.sum?_stops exceeds, if_pos ⟨exceeds, .inl rfl⟩]
      rfl
    | wraps =>
      have before : (start.toNat + tags.length) % UInt64.size < start.toNat := by
        simp only [UInt64.size] at *
        omega
      rw [Overflow.sum?_wraps exceeds, Option.bind_eq_bind, Option.bind_some]
      simp only [before, true_and, Overflow.wraps_stops_iff exceeds]

namespace Platform

variable {platform : Platform}

/-- Behind a sum that is no word there is nothing to read: the program stops or gives up. -/
theorem findFrom_of_overflow (fits : 2 * buffer.length < UInt64.size)
    (short : 2 * tags.length < UInt64.size)
    (exceeds : UInt64.size ≤ start.toNat + tags.length) :
    platform.findFrom tags buffer start.toNat =
      if platform.overflow.Stops tags buffer start then none else some none := by
  have isWord := start.toNat_lt_size
  rw [findFrom]
  cases platform.overflow with
  | stops =>
    rw [Overflow.sum?_stops exceeds, if_pos ⟨exceeds, .inl rfl⟩]
    rfl
  | wraps =>
    rw [Overflow.sum?_wraps exceeds, Option.bind_eq_bind, Option.bind_some]
    simp only [Overflow.wraps_stops_iff exceeds]
    split
    · -- The start is behind the buffer, and no slice begins there.
      refine Option.bind_eq_none_iff.2 fun last _ => ?_
      split
      · rfl
      · next window within =>
        rw [slice?_eq_none (by omega)] at within
        cases within
    · rfl

/-- The search in words is the plain one but where the program stops. -/
theorem findFrom_eq_word (sound : FindsFirst platform.find) (fits : 2 * buffer.length < UInt64.size)
    (short : 2 * tags.length < UInt64.size) :
    platform.findFrom tags buffer start.toNat =
      tags.findFromWord? platform.overflow buffer start := by
  rw [TagPair.findFromWord?_eq platform.overflow short]
  rcases Nat.lt_or_ge (start.toNat + tags.length) (UInt64.size) with word | exceeds
  · have goes : ¬ platform.overflow.Stops tags buffer start :=
      fun stops => absurd stops.1 (Nat.not_le_of_lt word)
    rw [findFrom_eq sound fits word, if_neg goes]
  · rw [findFrom_of_overflow fits short exceeds, TagPair.findFrom_of_length_lt (by omega)]

end Platform

end

/-! ## What the search finds -/

namespace Platform

/-- What a search gives, from any start. -/
structure Searches (platform : Platform) (tags : TagPair) (buffer : Bytes) (start : UInt64) :
    Prop where
  /-- It gives a tag if and only if that is the first one from the start on. -/
  found (hit : Hit) : platform.findFrom tags buffer start.toNat = some (some hit) ↔
    tags.IsFirst buffer start.toNat hit
  /-- It finds none if and only if there is none from the start on, unless it stops. -/
  absent : platform.findFrom tags buffer start.toNat = some none ↔
    (∀ position, start.toNat ≤ position → ∀ kind, ¬ tags.StandsAt buffer kind position) ∧
      ¬ platform.overflow.Stops tags buffer start
  /-- It stops at a sum that is no word, and at nothing else. -/
  stopped : platform.findFrom tags buffer start.toNat = none ↔
    platform.overflow.Stops tags buffer start
  /-- Unless it stops, it gives what the plain search gives. -/
  plain : ¬ platform.overflow.Stops tags buffer start →
    platform.findFrom tags buffer start.toNat = some (tags.findFrom buffer start.toNat)

/-- Whatever the tags, the bytes and the start, and whatever the machine does about sums that do not
fit: the search gives the first tag from the start on, or none where there is none, and it stops
exactly where the end of a tag at the start is no word and the machine minds (`Overflow.Stops`). No
bytes in memory are as many as half of the words, and no more is assumed of the buffer and of the
tags. -/
theorem searches (platform : Platform) (tags : TagPair) (buffer : Bytes) (start : UInt64)
    (sound : FindsFirst platform.find) (fits : 2 * buffer.length < UInt64.size)
    (short : 2 * tags.length < UInt64.size) : platform.Searches tags buffer start := by
  have result : platform.findFrom tags buffer start.toNat = _ := findFrom_eq_word sound fits short
  rw [TagPair.findFromWord?_eq platform.overflow short] at result
  by_cases stops : platform.overflow.Stops tags buffer start
  · rw [if_pos stops] at result
    refine ⟨fun hit => ?_, ?_, ?_, fun goes => absurd stops goes⟩
    · rw [result]
      refine iff_of_false (fun found => nomatch found) fun first => ?_
      exact absurd first.stands (stops.nowhere fits first.least.1.1 hit.kind)
    · simp only [result, reduceCtorEq, stops, not_true, and_false]
    · simp only [result, stops]
  · rw [if_neg stops] at result
    refine ⟨fun hit => ?_, ?_, ?_, fun _ => result⟩
    · rw [result, Option.some_inj, TagPair.findFrom_eq_some_iff]
    · rw [result, Option.some_inj, TagPair.findFrom_eq_none_iff]
      exact (and_iff_left stops).symm
    · simp only [result, reduceCtorEq, stops]

/-- Both tags begin with one byte, the buffer repeats it, and the tag ends where the buffer ends. -/
theorem searches_repeated_bytes :
    let platform : Platform := ⟨.wraps, findEither⟩
    let tags : TagPair := ⟨[1, 1, 2], [1, 2, 1], by decide, by decide, rfl⟩
    let buffer : Bytes := [1, 1, 1, 1, 2]
    FindsFirst platform.find ∧ 2 * buffer.length < UInt64.size ∧ 2 * tags.length < UInt64.size ∧
      platform.Searches tags buffer 1 ∧
      platform.findFrom tags buffer 1 = some (some ⟨2, .tool⟩) := by
  intro platform tags buffer
  have fits : 2 * buffer.length < UInt64.size := by decide
  have short : 2 * tags.length < UInt64.size := by decide
  have searched := searches platform tags buffer 1 findsFirst_findEither fits short
  have goes : ¬ platform.overflow.Stops tags buffer 1 := by decide
  exact ⟨findsFirst_findEither, fits, short, searched, searched.plain goes⟩

/-- No buffer reaches the last word, so from there on there is no tag. The search does not say so,
but stops: if its sums are checked, at the end of the tag, and if they wrap, at the bytes it asks
for behind the remainder. -/
theorem stops_at_the_last_word :
    let buffer := Bytes.ofText "Tool :"
    let start : UInt64 := 0xFFFFFFFFFFFFFFFF
    (∀ position, start.toNat ≤ position →
      ∀ kind, ¬ TagPair.standard.StandsAt buffer kind position) ∧
    (Platform.mk .stops findEither).findFrom .standard buffer start.toNat = none ∧
    (Platform.mk .wraps findEither).findFrom .standard buffer start.toNat = none := by
  intro buffer start
  have fits : 2 * buffer.length < UInt64.size := by decide
  have short : 2 * TagPair.standard.length < UInt64.size := by decide
  have checked : Overflow.stops.Stops .standard buffer start := by decide
  have wrapped : Overflow.wraps.Stops .standard buffer start := by decide
  refine ⟨fun position reached => checked.nowhere fits reached, ?_, ?_⟩
  · exact (findFrom_of_overflow fits short checked.1).trans (if_pos checked)
  · exact (findFrom_of_overflow fits short wrapped.1).trans (if_pos wrapped)

end Platform

end Unbraid
