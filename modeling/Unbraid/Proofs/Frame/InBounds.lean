import Unbraid.Proofs.Frame.Boundary
import Unbraid.Proofs.Tag.InOrder

/-!
# Messages inside the buffer

How the messages of a buffer are found when every slice of the buffer is checked, and with a limit
on the turns of the loop. With a lexer in order no slice is out of range: a body starts where a tag
ends and stops at a tag behind it or at the end of the buffer (`Frame.extract?_eq`). Each message
stops behind its tag, so the loop ends (`Frame.framesFrom?_eq`).
-/

namespace Unbraid.Frame

open Checked

/-! ## One message -/

/-- As `boundary`, with the whole buffer and checked slices of it. -/
def boundary? (buffer : Bytes) (start : Nat) (passed : Option Nat) : List Hit → Option Boundary
  | [] => some (.runsOn passed)
  | next :: rest => do
    let body ← slice? buffer start next.offset
    match Json.probe body with
    | .complete => some (.ends next.offset)
    | .malformed => some (.ends (passed.getD next.offset))
    | .incomplete => boundary? buffer start (passed.or (some next.offset)) rest

def between? (buffer : Bytes) (hit : Hit) (start stop : Nat) (complete : Bool) : Option Frame :=
  (slice? buffer start stop).map fun body => ⟨hit.kind, hit.offset, start, stop, complete, body⟩

/-- As `extract`, with checked slices; the settled bytes are those up to the position of the lexer,
which is kept within the bounds of the body. -/
def extract? (buffer : Bytes) (lexer : Lexer) (hit : Hit) : Option Frame := do
  let start := hit.offset + lexer.tags.length
  match ← boundary? buffer start none (lexer.hitsAfter hit.offset) with
  | .ends stop => between? buffer hit start stop true
  | .runsOn passed =>
    let lexed ← clamp? lexer.position start buffer.length
    match passed with
    | none => between? buffer hit start buffer.length false
    | some first =>
      let settled ← slice? buffer start lexed
      if Json.probe settled = .malformed then between? buffer hit start first true
      else between? buffer hit start buffer.length false

/-- The body of a message is a part of the buffer, and so is what stands before the message. -/
structure Inside (buffer : Bytes) (frame : Frame) : Prop where
  tag : frame.tagOffset < frame.start
  ordered : frame.start ≤ frame.stop
  stop : frame.stop ≤ buffer.length

section

variable {lexer : Lexer} {buffer : Bytes} {hit : Hit}

theorem boundary?_eq {start : Nat} (passed : Option Nat) {hits : List Hit}
    (behind : ∀ next ∈ hits, start ≤ next.offset ∧ next.offset ≤ buffer.length) :
    boundary? buffer start passed hits =
      some (boundary (buffer.drop start) start passed hits) := by
  induction hits generalizing passed with
  | nil => rfl
  | cons next rest ih =>
    obtain ⟨⟨ordered, inside⟩, later⟩ := List.forall_mem_cons.1 behind
    rw [boundary?, boundary, slice?_eq ordered inside]
    simp only [Option.bind_eq_bind, Option.bind_some]
    cases Json.probe ((buffer.drop start).take (next.offset - start)) with
    | complete => rfl
    | malformed => rfl
    | incomplete => exact ih _ later

theorem between?_closed {start stop : Nat} (ordered : start ≤ stop)
    (inside : stop ≤ buffer.length) :
    between? buffer hit start stop true = some (closed hit start stop (buffer.drop start)) := by
  rw [between?, slice?_eq ordered inside]
  rfl

theorem between?_growing {start : Nat} (inside : start ≤ buffer.length) :
    between? buffer hit start buffer.length false =
      some (growing hit start (buffer.drop start)) := by
  have all : (buffer.drop start).take (buffer.length - start) = buffer.drop start :=
    List.take_of_length_le (List.length_drop ▸ Nat.le_refl _)
  have stop : start + (buffer.drop start).length = buffer.length := by
    rw [List.length_drop]
    omega
  rw [between?, slice?_eq inside (Nat.le_refl _), all, growing, stop]
  rfl

/-- The tags after a recorded one are behind its end and inside the buffer. -/
theorem bounds_of_hitsAfter (order : lexer.InOrder buffer) {next : Hit}
    (follows : next ∈ lexer.hitsAfter hit.offset) :
    hit.offset + lexer.tags.length ≤ next.offset ∧ next.offset ≤ buffer.length := by
  obtain ⟨recorded, later⟩ := List.mem_filter.1 follows
  have := order.end_le_length recorded
  exact ⟨of_decide_eq_true later, by omega⟩

theorem extract?_eq (order : lexer.InOrder buffer) (recorded : hit ∈ lexer.hits) :
    extract? buffer lexer hit = some (extract buffer lexer hit) := by
  have passed := order.passed hit recorded
  have inside := order.inside
  have behind : ∀ next ∈ lexer.hitsAfter hit.offset,
      hit.offset + lexer.tags.length ≤ next.offset ∧ next.offset ≤ buffer.length :=
    fun _ follows => bounds_of_hitsAfter order follows
  rw [extract?, extract, ofTag, boundary?_eq none behind,
    clamp?_eq lexer.position (show hit.offset + lexer.tags.length ≤ buffer.length by omega)]
  simp only [Option.bind_eq_bind, Option.bind_some]
  cases found : boundary (buffer.drop (hit.offset + lexer.tags.length))
      (hit.offset + lexer.tags.length) none (lexer.hitsAfter hit.offset) with
  | ends stop =>
    rcases of_boundary_ends found with impossible | ⟨next, follows, rfl⟩
    · cases impossible
    · exact between?_closed (behind next follows).1 (behind next follows).2
  | runsOn open' =>
    cases open' with
    | none => exact between?_growing (by omega)
    | some first =>
      obtain ⟨known, -⟩ := of_boundary_runsOn found
      obtain ⟨next, follows, rfl⟩ := Option.map_eq_some_iff.1 known.symm
      have follows := behind next (List.mem_of_mem_head? follows)
      -- The position is behind the tag and inside the buffer, so it stays as it is.
      have lexed : max (hit.offset + lexer.tags.length) (min lexer.position buffer.length) =
          lexer.position := by omega
      simp only [lexed, slice?_eq passed inside, Option.bind_some]
      split
      · exact between?_closed follows.1 follows.2
      · exact between?_growing (by omega)

theorem extract_inside (order : lexer.InOrder buffer) (recorded : hit ∈ lexer.hits) :
    (extract buffer lexer hit).Inside buffer := by
  have positive := lexer.tags.length_pos
  have ends := order.end_le_length recorded
  refine ⟨?_, ?_, ?_⟩
  · rw [extract, ofTag_tagOffset, ofTag_start]
    omega
  · rw [extract, ofTag_start]
    exact start_le_ofTag_stop lexer hit _ _
      fun next follows => (bounds_of_hitsAfter order follows).1
  · rw [extract]
    cases complete : (ofTag lexer hit (buffer.drop (hit.offset + lexer.tags.length))
        (lexer.hitsAfter hit.offset)).complete with
    | true =>
      obtain ⟨next, follows, stops⟩ := ofTag_complete _ _ _ _ complete
      rw [← stops]
      exact (bounds_of_hitsAfter order follows).2
    | false =>
      rw [ofTag_open _ _ _ _ complete, List.length_drop]
      omega

end

/-! ## All messages -/

/-- The messages from a recorded tag on, in so many turns. -/
def framesFrom? (lexer : Lexer) (buffer : Bytes) : (turns : Nat) → Option Hit → Option (List Frame)
  | _, none => some []
  | 0, some _ => none
  | turns + 1, some hit => do
    let frame ← extract? buffer lexer hit
    let rest ← framesFrom? lexer buffer turns (lexer.hitFrom? frame.stop)
    some (frame :: rest)

/-- With a turn for each byte that is left the loop ends, since every message stops behind its tag.
It gives the messages of the buffer, and all of them are inside it. -/
theorem framesFrom?_eq {lexer : Lexer} {buffer : Bytes} (order : lexer.InOrder buffer)
    {turns done : Nat} (enough : buffer.length - done ≤ turns) :
    framesFrom? lexer buffer turns (lexer.hitFrom? done) =
        some (allFrom lexer (buffer.drop done) done lexer.hits) ∧
      ∀ frame ∈ allFrom lexer (buffer.drop done) done lexer.hits, frame.Inside buffer := by
  have positive := lexer.tags.length_pos
  induction turns generalizing done with
  | zero =>
    rw [allFrom_eq lexer buffer order.apart, ← Lexer.hitFrom?]
    cases found : lexer.hitFrom? done with
    | none => exact ⟨rfl, List.forall_mem_nil _⟩
    | some hit =>
      obtain ⟨recorded, later⟩ := Lexer.mem_of_hitFrom? found
      have := order.end_le_length recorded
      omega
  | succ turns ih =>
    rw [allFrom_eq lexer buffer order.apart, ← Lexer.hitFrom?]
    cases found : lexer.hitFrom? done with
    | none => exact ⟨rfl, List.forall_mem_nil _⟩
    | some hit =>
      obtain ⟨recorded, later⟩ := Lexer.mem_of_hitFrom? found
      have inside := extract_inside order recorded
      have start : (extract buffer lexer hit).start = hit.offset + lexer.tags.length :=
        ofTag_start ..
      have ordered := inside.ordered
      have stop := inside.stop
      obtain ⟨rest, bounds⟩ := @ih (extract buffer lexer hit).stop (by omega)
      refine ⟨?_, List.forall_mem_cons.2 ⟨inside, bounds⟩⟩
      rw [framesFrom?, extract?_eq order recorded, Option.bind_eq_bind, Option.bind_some, rest]
      rfl

end Unbraid.Frame
