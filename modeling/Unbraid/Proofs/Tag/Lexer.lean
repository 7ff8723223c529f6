import Unbraid.Proofs.Tag.Occurrences

/-!
# The lexer as a function of the bytes that have arrived

However a stream is cut, the lexer records the tags of all bytes that have arrived
(`advance_append`). Bytes that it has passed may be removed before or after it goes on
(`advance_consume`), all at once or one part after the other (`consume_consume`). So after any
course of arrivals and removals it is `after` of the bytes that have arrived, less those removed.
-/

namespace Unbraid

/-- The same tag in a buffer from whose beginning some bytes were removed. -/
def Hit.back (count : Nat) (hit : Hit) : Hit := { hit with offset := hit.offset - count }

namespace Lexer

/-- The lexer that has read some bytes, from the first byte of the stream on. -/
def after (tags : TagPair) (received : Bytes) : Lexer := (fresh tags).advance received

section

variable {tags : TagPair}

@[simp]
theorem after_tags (received : Bytes) : (after tags received).tags = tags := rfl

theorem after_hits (received : Bytes) :
    (after tags received).hits = tags.occurrences received 0 := rfl

theorem after_position (received : Bytes) :
    (after tags received).position =
      max (tags.reach 0 (tags.occurrences received 0)) (received.length - (tags.length - 1)) :=
  rfl

@[simp]
theorem advance_tags (lexer : Lexer) (buffer : Bytes) : (lexer.advance buffer).tags = lexer.tags :=
  rfl

theorem advance_hits (lexer : Lexer) (buffer : Bytes) :
    (lexer.advance buffer).hits =
      lexer.hits ++ lexer.tags.occurrences buffer lexer.position := rfl

theorem advance_position (lexer : Lexer) (buffer : Bytes) :
    (lexer.advance buffer).position =
      max (lexer.tags.reach lexer.position (lexer.tags.occurrences buffer lexer.position))
        (buffer.length - (lexer.tags.length - 1)) := rfl

theorem ext_iff' {a b : Lexer} :
    a = b ↔ a.tags = b.tags ∧ a.hits = b.hits ∧ a.position = b.position := by
  cases a
  cases b
  simp

theorem after_nil (tags : TagPair) : after tags [] = fresh tags := by
  refine ext_iff'.2 ⟨rfl, rfl, ?_⟩
  rw [after_position, List.length_nil, Nat.zero_sub]
  rfl

theorem mem_of_hitFrom? {lexer : Lexer} {offset : Nat} {hit : Hit}
    (found : lexer.hitFrom? offset = some hit) : hit ∈ lexer.hits ∧ offset ≤ hit.offset :=
  ⟨List.mem_of_find?_eq_some found, by simpa using List.find?_some found⟩

theorem hitFrom?_zero (lexer : Lexer) : lexer.hitFrom? 0 = lexer.firstHit? := by
  rw [hitFrom?, firstHit?]
  cases lexer.hits with
  | nil => rfl
  | cons hit rest => exact List.find?_cons_of_pos (decide_eq_true (Nat.zero_le _))

/-! ## Arrivals -/

/-- Bytes that arrive in two parts are read like bytes that arrive at once. So what the lexer has
recorded depends on the bytes that have arrived, and not on the chunks they came in. -/
theorem advance_append (lexer : Lexer) (buffer more : Bytes) :
    (lexer.advance buffer).advance (buffer ++ more) = lexer.advance (buffer ++ more) := by
  -- The second part of the chain starts exactly at the position after the first bytes.
  have chain := lexer.tags.occurrences_append buffer more lexer.position
  rw [← advance_position] at chain
  refine ext_iff'.2 ⟨rfl, ?_, ?_⟩
  · rw [advance_hits, advance_hits, advance_hits, advance_tags, chain, List.append_assoc]
  · rw [advance_position, advance_position lexer (buffer ++ more), chain, TagPair.reach_append,
      advance_tags]
    cases lexer.tags.occurrences (buffer ++ more) (lexer.advance buffer).position with
    | nil =>
      rw [TagPair.reach_nil, TagPair.reach_nil, advance_position, List.length_append]
      omega
    | cons hit rest => rw [TagPair.reach_cons, TagPair.reach_cons]

theorem after_advance (received more : Bytes) :
    (after tags received).advance (received ++ more) = after tags (received ++ more) :=
  advance_append _ _ _

/-- The tags of what has arrived stay recorded, and those recorded later start no earlier than where
lexing stopped. -/
theorem after_append_hits (received more : Bytes) :
    (after tags (received ++ more)).hits =
      (after tags received).hits ++
        tags.occurrences (received ++ more) (after tags received).position := by
  rw [← after_advance, advance_hits, after_tags]

theorem position_le_length (received : Bytes) :
    (after tags received).position ≤ received.length := by
  have := tags.reach_occurrences_le (Nat.zero_le received.length)
  rw [after_position]
  omega

theorem position_mono (received more : Bytes) :
    (after tags received).position ≤ (after tags (received ++ more)).position := by
  have := tags.le_reach_occurrences (received ++ more)
    (after tags received).position
  rw [← after_advance, advance_position, after_tags]
  omega

theorem end_le_position {received : Bytes} {hit : Hit}
    (recorded : hit ∈ (after tags received).hits) :
    hit.offset + tags.length ≤ (after tags received).position := by
  have := TagPair.end_le_reach (after_hits received ▸ recorded)
  rw [after_position]
  omega

theorem stands_of_mem {received : Bytes} {hit : Hit}
    (recorded : hit ∈ (after tags received).hits) :
    tags.bytes hit.kind <+: received.drop hit.offset :=
  (TagPair.mem_occurrences recorded).2.2

/-- Only bytes that may be the beginning of a tag are left unread. -/
theorem length_le_position_add (received : Bytes) :
    received.length ≤ (after tags received).position + (tags.length - 1) := by
  rw [after_position]
  omega

/-! ## Removals -/

theorem consume_hits (lexer : Lexer) (count : Nat) :
    (lexer.consume count).hits =
      (lexer.hits.dropWhile fun hit => hit.offset < count).map (Hit.back count) := rfl

@[simp]
theorem consume_tags (lexer : Lexer) (count : Nat) : (lexer.consume count).tags = lexer.tags := rfl

@[simp]
theorem consume_position (lexer : Lexer) (count : Nat) :
    (lexer.consume count).position = lexer.position - count := rfl

theorem scan_add (tags : TagPair) (count skipped position : Nat) (bytes : Bytes) :
    (tags.scan skipped (position + count) bytes).map (Hit.back count) =
      tags.scan skipped position bytes := by
  induction bytes generalizing skipped position with
  | nil => cases skipped <;> rfl
  | cons byte rest ih =>
    cases skipped with
    | succ skipped =>
      rw [TagPair.scan, TagPair.scan, Nat.add_right_comm]
      exact ih skipped (position + 1)
    | zero =>
      rw [TagPair.scan, TagPair.scan]
      cases tags.startOf? (byte :: rest) with
      | none =>
        rw [Nat.add_right_comm]
        exact ih 0 (position + 1)
      | some kind =>
        rw [List.map_cons, Nat.add_right_comm, ih, Hit.back, Nat.add_sub_cancel]

theorem occurrences_drop {count position : Nat} (passed : count ≤ position) (buffer : Bytes) :
    tags.occurrences (buffer.drop count) (position - count) =
      (tags.occurrences buffer position).map (Hit.back count) := by
  have reached : count + (position - count) = position := by omega
  rw [TagPair.occurrences, TagPair.occurrences, List.drop_drop, reached, ← scan_add tags count,
    Nat.sub_add_cancel passed]

/-- Bytes that the lexer has passed may be removed before or after it goes on. A session removes
them in between; its offsets are those of the stream all the same, less the number of bytes that are
gone. -/
theorem advance_consume {lexer : Lexer} {count : Nat} (passed : count ≤ lexer.position)
    (buffer : Bytes) :
    (lexer.consume count).advance (buffer.drop count) = (lexer.advance buffer).consume count := by
  have later : ∀ hit ∈ lexer.tags.occurrences buffer lexer.position, count ≤ hit.offset :=
    fun hit recorded => Nat.le_trans passed (TagPair.mem_occurrences recorded).1
  refine ext_iff'.2 ⟨rfl, ?_, ?_⟩
  · rw [advance_hits, consume_hits, consume_hits, advance_hits, consume_tags, consume_position,
      occurrences_drop passed, ← List.map_append, List.dropWhile_append]
    have kept : (lexer.tags.occurrences buffer lexer.position).dropWhile
        (fun hit => hit.offset < count) = lexer.tags.occurrences buffer lexer.position := by
      cases found : lexer.tags.occurrences buffer lexer.position with
      | nil => rfl
      | cons hit rest =>
        have := later hit (by rw [found]; exact List.mem_cons_self)
        exact List.dropWhile_cons_of_neg (by simpa using this)
    rw [kept]
    split
    · next empty => rw [List.isEmpty_iff.1 empty, List.nil_append]
    · rfl
  · rw [advance_position, consume_position, consume_position, advance_position, consume_tags,
      occurrences_drop passed, List.length_drop]
    have ends : lexer.tags.reach (lexer.position - count)
        ((lexer.tags.occurrences buffer lexer.position).map (Hit.back count)) =
          lexer.tags.reach lexer.position (lexer.tags.occurrences buffer lexer.position) -
            count := by
      rw [TagPair.reach, TagPair.reach, List.getLast?_map]
      cases last : (lexer.tags.occurrences buffer lexer.position).getLast? with
      | none => rfl
      | some hit =>
        have := later hit (List.mem_of_getLast? last)
        simp only [Option.map_some, Hit.back]
        omega
    rw [ends]
    omega

theorem consume_zero (lexer : Lexer) : lexer.consume 0 = lexer := by
  refine ext_iff'.2 ⟨rfl, ?_, rfl⟩
  rw [consume_hits]
  have all : lexer.hits.dropWhile (fun hit => hit.offset < 0) = lexer.hits := by
    cases lexer.hits <;> simp
  rw [all]
  exact List.map_id _

theorem consume_consume (lexer : Lexer) (first second : Nat) :
    (lexer.consume first).consume second = lexer.consume (first + second) := by
  cases second with
  | zero => rw [consume_zero, Nat.add_zero]
  | succ second =>
    refine ext_iff'.2 ⟨rfl, ?_, Nat.sub_sub ..⟩
    have removed : ∀ hits : List Hit,
        (hits.dropWhile fun hit => hit.offset < first).dropWhile
            ((fun hit => hit.offset < second + 1) ∘ Hit.back first) =
          hits.dropWhile fun hit => hit.offset < first + (second + 1) := by
      intro hits
      have same : ((fun hit : Hit => decide (hit.offset < second + 1)) ∘ Hit.back first) =
          fun hit : Hit => decide (hit.offset < first + (second + 1)) := by
        funext hit
        show decide (hit.offset - first < second + 1) = decide (hit.offset < first + (second + 1))
        rw [decide_eq_decide]
        omega
      rw [same]
      induction hits with
      | nil => rfl
      | cons hit rest ih =>
        by_cases early : hit.offset < first
        · have within : hit.offset < first + (second + 1) := by omega
          rw [List.dropWhile_cons_of_pos (by simpa using early),
            List.dropWhile_cons_of_pos (by simpa using within), ih]
        · rw [List.dropWhile_cons_of_neg (by simpa using early)]
    rw [consume_hits, consume_hits, consume_hits, List.dropWhile_map, List.map_map, removed]
    congr 1
    funext hit
    simp only [Function.comp_apply, Hit.back, Nat.sub_sub]

end

end Lexer

end Unbraid
