import Unbraid.Proofs.Tag.Chain
import Unbraid.Proofs.Tag.Windowed

/-!
# A lexer in order

What holds of a lexer beside its buffer, whatever was added, read and removed (`Lexer.InOrder`): the
recorded tags stand in the buffer, one behind the other, and the lexer has passed them and is still
inside. It holds at the start, and bytes that are added, a reading and a removal of any bytes of the
buffer keep it. So no offset is smaller than what is removed before it (`Lexer.consume?_eq`).
-/

namespace Unbraid.Lexer

/-- The recorded tags stand where they are said to stand, and the lexer is behind the last of them
and not behind the end of the buffer. -/
structure InOrder (lexer : Lexer) (buffer : Bytes) : Prop where
  stands : ∀ hit ∈ lexer.hits, lexer.tags.bytes hit.kind <+: buffer.drop hit.offset
  ascending : lexer.hits.Pairwise fun hit later => hit.offset < later.offset
  apart : lexer.hits.Pairwise fun hit later => hit.offset + lexer.tags.length ≤ later.offset
  passed : ∀ hit ∈ lexer.hits, hit.offset + lexer.tags.length ≤ lexer.position
  inside : lexer.position ≤ buffer.length

section

variable {lexer : Lexer} {buffer : Bytes}

/-- Tags that do not overlap ascend, since none is empty. -/
theorem InOrder.of_apart
    (stands : ∀ hit ∈ lexer.hits, lexer.tags.bytes hit.kind <+: buffer.drop hit.offset)
    (apart : lexer.hits.Pairwise fun hit later =>
      hit.offset + lexer.tags.length ≤ later.offset)
    (passed : ∀ hit ∈ lexer.hits, hit.offset + lexer.tags.length ≤ lexer.position)
    (inside : lexer.position ≤ buffer.length) : lexer.InOrder buffer := by
  refine ⟨stands, apart.imp fun {hit later} behind => ?_, apart, passed, inside⟩
  have := lexer.tags.length_pos
  omega

theorem InOrder.fresh (tags : TagPair) : (fresh tags).InOrder [] :=
  .of_apart (List.forall_mem_nil _) .nil (List.forall_mem_nil _) (Nat.le_refl 0)

theorem InOrder.end_le_length (order : lexer.InOrder buffer) {hit : Hit}
    (recorded : hit ∈ lexer.hits) : hit.offset + lexer.tags.length ≤ buffer.length :=
  Nat.le_trans (order.passed hit recorded) order.inside

theorem InOrder.append (order : lexer.InOrder buffer) (more : Bytes) :
    lexer.InOrder (buffer ++ more) := by
  refine .of_apart (fun hit recorded => ?_) order.apart order.passed ?_
  · have := order.end_le_length recorded
    rw [List.drop_append_of_le_length (by omega)]
    exact (order.stands hit recorded).trans (List.prefix_append _ _)
  · exact Nat.le_trans order.inside (List.length_append ▸ Nat.le_add_right _ _)

theorem InOrder.advance (order : lexer.InOrder buffer) :
    (lexer.advance buffer).InOrder buffer := by
  have goesOn := lexer.tags.le_reach_occurrences buffer lexer.position
  have reached := lexer.tags.reach_occurrences_le order.inside
  refine .of_apart (fun hit recorded => ?_) ?_ (fun hit recorded => ?_) ?_
  · rcases List.mem_append.1 recorded with before | found
    · exact order.stands hit before
    · exact (TagPair.mem_occurrences found).2.2
  · refine List.pairwise_append.2
      ⟨order.apart, TagPair.pairwise_occurrences buffer lexer.position, ?_⟩
    intro hit before later found
    exact Nat.le_trans (order.passed hit before) (TagPair.mem_occurrences found).1
  · rw [advance_position, advance_tags]
    rcases List.mem_append.1 recorded with before | found
    · have := order.passed hit before
      omega
    · have := TagPair.end_le_reach found
      omega
  · rw [advance_position]
    omega

theorem InOrder.consume (order : lexer.InOrder buffer) {count : Nat}
    (within : count ≤ buffer.length) : (lexer.consume count).InOrder (buffer.drop count) := by
  have kept : ∀ {hit}, hit ∈ lexer.hits.dropWhile (fun hit => hit.offset < count) →
      hit ∈ lexer.hits ∧ count ≤ hit.offset := by
    intro hit present
    rw [dropWhile_hits order.apart] at present
    obtain ⟨recorded, behind⟩ := List.mem_filter.1 present
    exact ⟨recorded, of_decide_eq_true behind⟩
  refine .of_apart (fun hit recorded => ?_) ?_ (fun hit recorded => ?_) ?_
  · rw [consume_hits] at recorded
    obtain ⟨source, present, rfl⟩ := List.mem_map.1 recorded
    obtain ⟨recorded, behind⟩ := kept present
    rw [List.drop_drop, Hit.back, Nat.add_sub_cancel' behind]
    exact order.stands source recorded
  · rw [consume_hits]
    refine List.pairwise_map.2 (List.Pairwise.imp_of_mem ?_
      (order.apart.sublist (List.dropWhile_sublist _)))
    intro hit later present present' apart
    have := (kept present).2
    simp only [Hit.back, consume_tags]
    omega
  · rw [consume_hits] at recorded
    obtain ⟨source, present, rfl⟩ := List.mem_map.1 recorded
    obtain ⟨recorded, behind⟩ := kept present
    have := order.passed source recorded
    show source.offset - count + lexer.tags.length ≤ lexer.position - count
    omega
  · rw [consume_position, List.length_drop]
    have := order.inside
    omega

/-- As `consume`, with each offset checked not to be smaller than what is removed. -/
def consume? (lexer : Lexer) (count : Nat) : Option Lexer := do
  let hits ← (lexer.hits.dropWhile fun hit => hit.offset < count).mapM fun hit =>
    (Checked.minus? hit.offset count).map fun offset => { hit with offset }
  some { lexer with hits, position := lexer.position - count }

theorem consume?_eq (order : lexer.InOrder buffer) (count : Nat) :
    lexer.consume? count = some (lexer.consume count) := by
  have shifted : ∀ hits : List Hit, (∀ hit ∈ hits, count ≤ hit.offset) →
      (hits.mapM fun hit => (Checked.minus? hit.offset count).map fun offset =>
        { hit with offset }) = some (hits.map (Hit.back count)) := by
    intro hits behind
    induction hits with
    | nil => rfl
    | cons hit rest ih =>
      obtain ⟨first, later⟩ := List.forall_mem_cons.1 behind
      rw [List.mapM_cons, Checked.minus?_eq first, ih later]
      rfl
  rw [consume?, shifted]
  · rfl
  · intro hit present
    rw [dropWhile_hits order.apart] at present
    exact of_decide_eq_true (List.mem_filter.1 present).2

end

end Unbraid.Lexer
