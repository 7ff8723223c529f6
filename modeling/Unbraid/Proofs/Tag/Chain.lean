import Unbraid.Proofs.Tag.Lexer

/-!
# The chain of tags

The tags of a stream form a chain: the first tag, and after each tag the first one behind its end
(`TagPair.Chain`). Two tags of the stream may overlap, and then only the earlier is in the chain.

Beside a buffer that grows at its end and loses bytes at its beginning, the lexer records this
chain. Whatever order bytes arrive, are read and are removed in, it has every tag of the chain that
starts in what is left, and no others (`Lexer.records_of_steps`). A removal may cut through a
recorded tag; the tags that overlap with it do not come to light by that
(`Lexer.records_behind_a_cut_tag`).
-/

namespace Unbraid

def Hit.ahead (count : Nat) (hit : Hit) : Hit := { hit with offset := hit.offset + count }

theorem Hit.ahead_back {count : Nat} {hit : Hit} (within : count ≤ hit.offset) :
    (hit.back count).ahead count = hit := by
  rw [ahead, back, Nat.sub_add_cancel within]

namespace TagPair

/-- The tags of a stream from a first one on, each the first behind the end of the one before. -/
inductive Chain (tags : TagPair) (stream : Bytes) : Option Hit → List Hit → Prop where
  | nil : Chain tags stream none []
  | cons {hit : Hit} {rest : List Hit}
      (later : Chain tags stream (tags.findNext stream hit.offset) rest) :
      Chain tags stream (some hit) (hit :: rest)

theorem chain_occurrences (tags : TagPair) (stream : Bytes) (start : Nat) :
    tags.Chain stream (tags.findFrom stream start) (tags.occurrences stream start) := by
  induction start using chain_induction tags stream with
  | last start absent =>
    rw [absent, occurrences_of_none absent]
    exact .nil
  | next start hit found ih =>
    rw [found, occurrences_of_some found]
    exact .cons ih

end TagPair

namespace Lexer

/-- A lexer beside its buffer. -/
structure Buffered where
  lexer : Lexer
  buffer : Bytes
  /-- All bytes that were ever added to the buffer. -/
  arrived : Bytes
  /-- How many of them were removed. -/
  removed : Nat

inductive Step where
  /-- Bytes are added to the buffer. -/
  | arrive (bytes : Bytes)
  /-- The lexer reads the buffer. -/
  | advance
  /-- Bytes are removed that the lexer has passed. -/
  | remove (count : Nat)

namespace Buffered

def start (tags : TagPair) : Buffered := ⟨fresh tags, [], [], 0⟩

/-- The buffer and the lexer after a step; nothing if bytes would be removed that the lexer has not
passed. -/
def step? (held : Buffered) : Step → Option Buffered
  | .arrive bytes =>
    some { held with buffer := held.buffer ++ bytes, arrived := held.arrived ++ bytes }
  | .advance => some { held with lexer := held.lexer.advance held.buffer }
  | .remove count =>
    if count ≤ held.lexer.position then
      some { held with
        lexer := held.lexer.consume count
        buffer := held.buffer.drop count
        removed := held.removed + count }
    else none

def steps? (held : Buffered) (steps : List Step) : Option Buffered := steps.foldlM step? held

/-- The lexer is where it stood when it last read the buffer, less what was removed since. -/
structure Follows (tags : TagPair) (read : Bytes) (held : Buffered) : Prop where
  arrived : read <+: held.arrived
  lexer : held.lexer = (after tags read).consume held.removed
  buffer : held.buffer = held.arrived.drop held.removed
  inside : held.removed ≤ (after tags read).position

section

variable {tags : TagPair} {read : Bytes} {held next : Buffered}

theorem follows_start (tags : TagPair) : Follows tags [] (start tags) := by
  refine ⟨List.prefix_rfl, ?_, rfl, Nat.zero_le _⟩
  rw [after_nil, start, consume_zero]

theorem Follows.removed_le (follows : Follows tags read held) :
    held.removed ≤ held.arrived.length :=
  Nat.le_trans follows.inside
    (Nat.le_trans (position_le_length read) follows.arrived.length_le)

theorem Follows.advance (follows : Follows tags read held) :
    Follows tags held.arrived { held with lexer := held.lexer.advance held.buffer } := by
  obtain ⟨⟨more, arrived⟩, lexer, buffer, inside⟩ := follows
  have passed := @position_mono tags read more
  rw [arrived] at passed
  refine ⟨List.prefix_rfl, ?_, buffer, Nat.le_trans inside passed⟩
  show held.lexer.advance held.buffer = _
  rw [lexer, buffer, advance_consume inside, ← arrived, after_advance]

theorem Follows.step {step : Step} (follows : Follows tags read held)
    (taken : held.step? step = some next) : ∃ read, Follows tags read next := by
  cases step with
  | arrive bytes =>
    obtain rfl := Option.some.inj taken
    refine ⟨read, follows.arrived.trans (List.prefix_append _ _), follows.lexer, ?_, follows.inside⟩
    show held.buffer ++ bytes = (held.arrived ++ bytes).drop held.removed
    rw [follows.buffer, List.drop_append_of_le_length follows.removed_le]
  | advance =>
    obtain rfl := Option.some.inj taken
    exact ⟨_, follows.advance⟩
  | remove count =>
    rw [step?] at taken
    split at taken
    · next passed =>
      obtain rfl := Option.some.inj taken
      have inside := follows.inside
      rw [follows.lexer, consume_position] at passed
      refine ⟨read, follows.arrived, ?_, ?_, ?_⟩
      · show held.lexer.consume count = _
        rw [follows.lexer, consume_consume]
      · show held.buffer.drop count = _
        rw [follows.buffer, List.drop_drop]
      · show held.removed + count ≤ _
        omega
    · cases taken

theorem Follows.steps {steps : List Step} (follows : Follows tags read held)
    (taken : held.steps? steps = some next) : ∃ read, Follows tags read next := by
  induction steps generalizing held read with
  | nil =>
    obtain rfl := Option.some.inj taken
    exact ⟨read, follows⟩
  | cons step rest ih =>
    rw [steps?, List.foldlM_cons] at taken
    obtain ⟨between, first, others⟩ := Option.bind_eq_some_iff.1 taken
    obtain ⟨read, follows⟩ := follows.step first
    exact ih follows others

end

end Buffered

/-- What the lexer has recorded of the bytes that have arrived. -/
structure Records (tags : TagPair) (held : Buffered) : Prop where
  /-- The buffer is what has arrived, less what was removed. -/
  buffer : ∃ gone, held.arrived = gone ++ held.buffer ∧ gone.length = held.removed
  /-- The recorded tags are those of the chain that start behind what was removed. -/
  hits : ∃ chain, tags.Chain held.arrived (tags.findFrom held.arrived 0) chain ∧
    held.lexer.hits.map (Hit.ahead held.removed) =
      chain.filter fun hit => held.removed ≤ hit.offset

/-- Tags in the order of the stream: to skip those that start early is to filter them out. -/
theorem dropWhile_hits {hits : List Hit} {length : Nat}
    (apart : hits.Pairwise fun hit later => hit.offset + length ≤ later.offset) (count : Nat) :
    (hits.dropWhile fun hit => hit.offset < count) = hits.filter fun hit => count ≤ hit.offset := by
  induction hits with
  | nil => rfl
  | cons hit rest ih =>
    obtain ⟨after, apart⟩ := List.pairwise_cons.1 apart
    by_cases early : hit.offset < count
    · rw [List.dropWhile_cons_of_pos (by simpa using early), ih apart,
        List.filter_cons_of_neg (by simpa using early)]
    · rw [List.dropWhile_cons_of_neg (by simpa using early), eq_comm, List.filter_eq_self]
      intro other present
      rcases List.mem_cons.1 present with rfl | later
      · simpa using early
      · have := after other later
        simp only [decide_eq_true_eq]
        omega

theorem Buffered.Follows.records {tags : TagPair} {held : Buffered}
    (follows : Follows tags held.arrived held) : Records tags held := by
  refine ⟨⟨held.arrived.take held.removed, ?_, ?_⟩, _,
    tags.chain_occurrences held.arrived 0, ?_⟩
  · rw [follows.buffer, List.take_append_drop]
  · exact List.length_take_of_le follows.removed_le
  · have apart := @TagPair.pairwise_occurrences tags held.arrived 0
    rw [follows.lexer, consume_hits, after_hits, dropWhile_hits apart, List.map_map]
    refine (List.map_congr_left fun hit kept => ?_).trans (List.map_id _)
    exact Hit.ahead_back (of_decide_eq_true (List.mem_filter.1 kept).2)

/-- Bytes arrive, are read and are removed in any order, as long as none is removed that the lexer
has not passed. A lexer that has just read the buffer has then recorded the chain of all that has
ever arrived, but for the tags that begin in what was removed, even where a removal cut through a
tag. -/
theorem records_of_steps {tags : TagPair} {steps : List Step} {held : Buffered}
    (taken : (Buffered.start tags).steps? (steps ++ [.advance]) = some held) :
    Records tags held := by
  rw [Buffered.steps?, List.foldlM_append] at taken
  obtain ⟨before, earlier, last⟩ := Option.bind_eq_some_iff.1 taken
  obtain ⟨read, follows⟩ := (Buffered.follows_start tags).steps earlier
  obtain rfl := Option.some.inj last
  exact follows.advance.records

/-- Tags that overlap, and a removal that cuts through a recorded one. -/
theorem records_behind_a_cut_tag :
    let tags : TagPair := ⟨[1, 1], [1, 2], by decide, by decide, rfl⟩
    let steps : List Step :=
      [.arrive [0, 1], .advance, .arrive [1, 1], .advance, .remove 2, .arrive [2]]
    let held : Buffered := ⟨⟨tags, [⟨1, .model⟩], 3⟩, [1, 1, 2], [0, 1, 1, 1, 2], 2⟩
    (Buffered.start tags).steps? (steps ++ [.advance]) = some held ∧ Records tags held := by
  intro tags steps held
  have taken : (Buffered.start tags).steps? (steps ++ [.advance]) = some held := rfl
  exact ⟨taken, records_of_steps taken⟩

end Lexer

end Unbraid
