import Unbraid.Proofs.Tag.Lexer

/-!
# The search window by window

The search for a tag jumps from one byte that may begin a tag to the next. Here it is written with
every access to the buffer checked, and with a limit on the turns of its loop: it gives nothing if
an access is out of range or the turns run out. Neither happens (`TagPair.findFrom?_eq`). The same
goes for the loop of the lexer, wherever it starts (`Lexer.advance?_eq`).
-/

namespace Unbraid

/-! ## Checked operations -/

namespace Checked

/-- The bytes from one position up to another, if these are in order and inside. -/
def slice? (bytes : Bytes) (start stop : Nat) : Option Bytes :=
  if start ≤ stop ∧ stop ≤ bytes.length then some ((bytes.drop start).take (stop - start)) else none

def minus? (n m : Nat) : Option Nat := if m ≤ n then some (n - m) else none

/-- What is nearest to a number within bounds, if these are in order. -/
def clamp? (n low high : Nat) : Option Nat :=
  if low ≤ high then some (max low (min n high)) else none

theorem slice?_eq {bytes : Bytes} {start stop : Nat} (ordered : start ≤ stop)
    (inside : stop ≤ bytes.length) :
    slice? bytes start stop = some ((bytes.drop start).take (stop - start)) :=
  if_pos ⟨ordered, inside⟩

theorem slice?_eq_none {bytes : Bytes} {start stop : Nat}
    (outside : ¬ (start ≤ stop ∧ stop ≤ bytes.length)) : slice? bytes start stop = none :=
  if_neg outside

theorem length_le_of_slice? {bytes window : Bytes} {start stop : Nat}
    (within : slice? bytes start stop = some window) :
    start + window.length ≤ bytes.length := by
  rw [slice?] at within
  split at within
  · obtain rfl := Option.some.inj within
    simp only [List.length_take, List.length_drop]
    omega
  · cases within

theorem minus?_eq {n m : Nat} (below : m ≤ n) : minus? n m = some (n - m) := if_pos below

theorem clamp?_eq (n : Nat) {low high : Nat} (ordered : low ≤ high) :
    clamp? n low high = some (max low (min n high)) := if_pos ordered

end Checked

open Checked

/-! ## The search -/

namespace TagPair

variable {tags : TagPair} {buffer : Bytes}

def matchAt? (tags : TagPair) (buffer : Bytes) (position : Nat) : Option TagKind :=
  match slice? buffer position (position + tags.length) with
  | none => none
  | some window =>
    if window = tags.tool then some .tool
    else if window = tags.model then some .model
    else none

/-- The first tag from a position on, found in so many turns. Each of them goes to the next byte
that is the first byte of either tag, no further than where the last tag could start. -/
def findFrom? (tags : TagPair) (buffer : Bytes) : (turns position : Nat) → Option (Option Hit)
  | 0, _ => none
  | turns + 1, position =>
    if position + tags.length ≤ buffer.length then do
      let first ← tags.tool[0]?
      let other ← tags.model[0]?
      let last ← minus? buffer.length tags.length
      let window ← slice? buffer position (last + 1)
      match window.findIdx? fun byte => byte = first || byte = other with
      | none => some none
      | some skipped =>
        match tags.matchAt? buffer (position + skipped) with
        | some kind => some (some ⟨position + skipped, kind⟩)
        | none => tags.findFrom? buffer turns (position + skipped + 1)
    else some none

theorem matchAt?_eq (tags : TagPair) (buffer : Bytes) (position : Nat) :
    tags.matchAt? buffer position = tags.kindAt? buffer position := by
  rw [matchAt?, kindAt?]
  by_cases room : position + tags.length ≤ buffer.length
  · rw [slice?_eq (Nat.le_add_right _ _) room, Nat.add_sub_cancel_left]
    have stands : ∀ kind, (buffer.drop position).take tags.length = tags.bytes kind ↔
        tags.bytes kind <+: buffer.drop position := by
      intro kind
      rw [List.prefix_iff_eq_take, length_bytes, eq_comm]
    have tool := stands .tool
    have model := stands .model
    simp only [startOf?, List.isPrefixOf_iff_prefix]
    simp only [bytes] at tool model
    simp only [tool, model]
  · rw [slice?_eq_none fun inside => room inside.2]
    cases starts : tags.startOf? (buffer.drop position) with
    | none => rfl
    | some kind =>
      have := length_le_of_startOf? starts
      have := tags.length_pos
      rw [List.length_drop] at *
      omega

theorem exists_first {bytes : Bytes} {kind : TagKind} (starts : tags.startOf? bytes = some kind) :
    ∃ byte, bytes[0]? = some byte ∧ (tags.tool[0]? = some byte ∨ tags.model[0]? = some byte) := by
  have stands := startOf?_eq_some_iff.1 starts
  have first : 0 < (tags.bytes kind).length := by
    rw [length_bytes]
    exact tags.length_pos
  have same := stands.getElem first
  have inside := Nat.lt_of_lt_of_le first stands.length_le
  refine ⟨(tags.bytes kind)[0], ?_, ?_⟩
  · rw [List.getElem?_eq_getElem inside, same]
  · cases kind with
    | tool => exact .inl (List.getElem?_eq_getElem first)
    | model => exact .inr (List.getElem?_eq_getElem first)

section

variable {first other : UInt8} {position : Nat}

/-- The window holds the first byte of every tag from the position on. -/
theorem exists_in_window (tool : tags.tool[0]? = some first) (model : tags.model[0]? = some other)
    {offset : Nat} {kind : TagKind}
    (starts : tags.startOf? (buffer.drop (position + offset)) = some kind) :
    ∃ byte, ((buffer.drop position).take (buffer.length - tags.length + 1 - position))[offset]? =
      some byte ∧ (byte = first || byte = other) = true := by
  obtain ⟨byte, at', known⟩ := exists_first starts
  have room := length_le_of_startOf? starts
  have := tags.length_pos
  rw [List.length_drop] at room
  refine ⟨byte, ?_, ?_⟩
  · rw [List.getElem?_take_of_lt (by omega), List.getElem?_drop]
    rwa [List.getElem?_drop, Nat.add_zero] at at'
  · rw [tool, model] at known
    rw [Bool.or_eq_true, decide_eq_true_iff, decide_eq_true_iff]
    rcases known with same | same
    · exact .inl (Option.some.inj same).symm
    · exact .inr (Option.some.inj same).symm

theorem findFrom_of_no_first (tool : tags.tool[0]? = some first)
    (model : tags.model[0]? = some other)
    (none : ((buffer.drop position).take (buffer.length - tags.length + 1 - position)).findIdx?
      (fun byte => byte = first || byte = other) = none) :
    tags.findFrom buffer position = .none := by
  cases found : tags.findFrom buffer position with
  | none => rfl
  | some hit =>
    have starts := startOf?_at_search found
    rw [List.drop_drop] at starts
    obtain ⟨byte, within, begins⟩ := exists_in_window tool model starts
    have absent := List.findIdx?_eq_none_iff.1 none byte (List.mem_of_getElem? within)
    rw [begins] at absent
    cases absent

theorem findFrom_of_first (tool : tags.tool[0]? = some first)
    (model : tags.model[0]? = some other) {skipped : Nat}
    (found : ((buffer.drop position).take (buffer.length - tags.length + 1 - position)).findIdx?
      (fun byte => byte = first || byte = other) = some skipped) :
    tags.findFrom buffer (position + skipped) = tags.findFrom buffer position := by
  obtain ⟨inside, -, least⟩ := List.findIdx?_eq_some_iff_getElem.1 found
  refine findFrom_add fun offset before => ?_
  cases starts : tags.startOf? ((buffer.drop position).drop offset) with
  | none => rfl
  | some kind =>
    rw [List.drop_drop] at starts
    obtain ⟨byte, within, begins⟩ := exists_in_window tool model starts
    obtain ⟨_, same⟩ := List.getElem?_eq_some_iff.1 within
    have absent := least offset before
    rw [same] at absent
    exact absurd begins absent

/-- Where the first such byte is, a tag stands, or the search goes on behind it. -/
theorem findFrom_leap (tool : tags.tool[0]? = some first) (model : tags.model[0]? = some other)
    {skipped : Nat}
    (found : ((buffer.drop position).take (buffer.length - tags.length + 1 - position)).findIdx?
      (fun byte => byte = first || byte = other) = some skipped) :
    tags.findFrom buffer position =
      match tags.kindAt? buffer (position + skipped) with
      | some kind => some ⟨position + skipped, kind⟩
      | none => tags.findFrom buffer (position + skipped + 1) := by
  rw [← findFrom_of_first tool model found]
  split
  · next kind starts => exact findFrom_of_stands (startOf?_eq_some_iff.1 starts)
  · next nothing =>
    refine (findFrom_add fun offset before => ?_).symm
    rw [Nat.lt_one_iff.1 before, List.drop_zero]
    exact nothing

end

theorem findFrom_of_length_lt {position : Nat} (short : buffer.length < position + tags.length) :
    tags.findFrom buffer position = none := by
  cases found : tags.findFrom buffer position with
  | none => rfl
  | some hit =>
    have := bounds_of_findFrom found
    omega

/-- With a turn for each byte that is left, and one more, the search never runs out of turns, and it
never leaves the buffer: every slice it asks for is there, and it gives what the plain search
gives. -/
theorem findFrom?_eq {turns position : Nat} (enough : buffer.length - position < turns) :
    tags.findFrom? buffer turns position = some (tags.findFrom buffer position) := by
  have positive := tags.length_pos
  induction turns generalizing position with
  | zero => exact absurd enough (Nat.not_lt_zero _)
  | succ turns ih =>
    rw [findFrom?]
    by_cases room : position + tags.length ≤ buffer.length
    · have tool := List.getElem?_eq_getElem positive
      have model :=
        List.getElem?_eq_getElem (tags.length_eq.symm ▸ positive : 0 < tags.model.length)
      have last := minus?_eq (show tags.length ≤ buffer.length by omega)
      have window := slice?_eq (show position ≤ buffer.length - tags.length + 1 by omega)
        (show buffer.length - tags.length + 1 ≤ buffer.length by omega)
      simp only [if_pos room, tool, model, last, window, Option.bind_eq_bind, Option.bind_some]
      split
      · next none => rw [findFrom_of_no_first tool model none]
      · next skipped found =>
        rw [matchAt?_eq, findFrom_leap tool model found]
        split
        · rfl
        · exact ih (by omega)
    · rw [if_neg room, findFrom_of_length_lt (Nat.lt_of_not_le room)]

end TagPair

/-! ## The lexer -/

namespace Lexer

/-- The tags from a position on, found in so many turns, and the end of the last of them. -/
def gather? (tags : TagPair) (buffer : Bytes) : (turns position : Nat) → Option (List Hit × Nat)
  | 0, _ => none
  | turns + 1, position => do
    match ← tags.findFrom? buffer (buffer.length + 1) position with
    | none => some ([], position)
    | some hit =>
      let (found, reached) ← gather? tags buffer turns (hit.offset + tags.length)
      some (hit :: found, reached)

/-- As `advance`, with a turn of the loop for each byte, and one more. -/
def advance? (lexer : Lexer) (buffer : Bytes) : Option Lexer := do
  let (found, reached) ← gather? lexer.tags buffer (buffer.length + 1) lexer.position
  let held ← minus? lexer.tags.length 1
  some { lexer with hits := lexer.hits ++ found, position := max reached (buffer.length - held) }

theorem gather?_eq (tags : TagPair) {buffer : Bytes} {turns position : Nat}
    (enough : buffer.length - position < turns) :
    gather? tags buffer turns position =
      some (tags.occurrences buffer position,
        tags.reach position (tags.occurrences buffer position)) := by
  have positive := tags.length_pos
  induction turns generalizing position with
  | zero => exact absurd enough (Nat.not_lt_zero _)
  | succ turns ih =>
    rw [gather?, TagPair.findFrom?_eq (by omega)]
    cases found : tags.findFrom buffer position with
    | none => rw [TagPair.occurrences_of_none found]; rfl
    | some hit =>
      have bounds := TagPair.bounds_of_findFrom found
      have rest := @ih (hit.offset + tags.length) (by omega)
      rw [TagPair.occurrences_of_some found, TagPair.reach_cons]
      simp only [Option.bind_eq_bind, Option.bind_some, rest]

/-- The lexer reads any buffer from any position without an access out of range. -/
theorem advance?_eq (lexer : Lexer) (buffer : Bytes) :
    lexer.advance? buffer = some (lexer.advance buffer) := by
  have gathered := gather?_eq lexer.tags (show buffer.length - lexer.position < buffer.length + 1 by
    omega)
  rw [advance?, gathered, minus?_eq (Nat.succ_le_of_lt lexer.tags.length_pos)]
  rfl

end Lexer

end Unbraid
