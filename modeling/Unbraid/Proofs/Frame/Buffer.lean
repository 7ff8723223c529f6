import Unbraid.Proofs.Frame.Window

namespace Unbraid.Frame

/-- The same message in a buffer from whose beginning some bytes were removed. -/
def back (count : Nat) (frame : Frame) : Frame :=
  { frame with
    tagOffset := frame.tagOffset - count
    start := frame.start - count
    stop := frame.stop - count }

def Boundary.back (count : Nat) : Boundary → Boundary
  | ends offset => .ends (offset - count)
  | runsOn passed => .runsOn (passed.map (· - count))

variable {count start : Nat} {hit : Hit} {hits : List Hit}

theorem boundary_back (bytes : Bytes) (inside : count ≤ start)
    (later : ∀ hit ∈ hits, count ≤ hit.offset) (passed : Option Nat) :
    boundary bytes (start - count) (passed.map (· - count)) (hits.map (Hit.back count)) =
      (boundary bytes start passed hits).back count := by
  induction hits generalizing passed with
  | nil => rfl
  | cons next rest ih =>
    have beyond := later next List.mem_cons_self
    have length : (Hit.back count next).offset - (start - count) = next.offset - start := by
      show next.offset - count - (start - count) = _
      omega
    rw [List.map_cons, boundary, boundary, length]
    cases Json.probe (bytes.take (next.offset - start)) with
    | complete => rfl
    | malformed => cases passed <;> rfl
    | incomplete =>
      have rest := ih (fun hit present => later hit (List.mem_cons_of_mem _ present))
        (passed.or (some next.offset))
      rw [← rest]
      cases passed <;> rfl

theorem closed_back (bytes : Bytes) {stop : Nat} (inside : count ≤ start) :
    closed (hit.back count) (start - count) (stop - count) bytes =
      (closed hit start stop bytes).back count := by
  have length : stop - count - (start - count) = stop - start := by omega
  rw [closed, closed, length]
  rfl

theorem growing_back (bytes : Bytes) (inside : count ≤ start) :
    growing (hit.back count) (start - count) bytes = (growing hit start bytes).back count := by
  have stop : start - count + bytes.length = start + bytes.length - count := by omega
  rw [growing, growing, stop]
  rfl

theorem ofTag_consume (lexer : Lexer) (bytes : Bytes) (inside : count ≤ hit.offset)
    (later : ∀ next ∈ hits, count ≤ next.offset) :
    ofTag (lexer.consume count) (hit.back count) bytes (hits.map (Hit.back count)) =
      (ofTag lexer hit bytes hits).back count := by
  have start : (hit.back count).offset + (lexer.consume count).tags.length =
      hit.offset + lexer.tags.length - count := by
    show hit.offset - count + lexer.tags.length = _
    omega
  have within : count ≤ hit.offset + lexer.tags.length := by omega
  have moved := boundary_back bytes within later none
  have length : lexer.position - count - (hit.offset + lexer.tags.length - count) =
      lexer.position - (hit.offset + lexer.tags.length) := by omega
  rw [Option.map_none] at moved
  simp only [ofTag, start, moved, Lexer.consume_position, length]
  cases boundary bytes (hit.offset + lexer.tags.length) none hits with
  | ends stop => exact closed_back bytes within
  | runsOn passed =>
    cases passed with
    | none => exact growing_back bytes within
    | some passed =>
      simp only [Boundary.back, Option.map_some]
      split
      · exact closed_back bytes within
      · exact growing_back bytes within

theorem le_ofTag_stop (lexer : Lexer) (bytes : Bytes) (inside : count ≤ hit.offset)
    (later : ∀ next ∈ hits, count ≤ next.offset) : count ≤ (ofTag lexer hit bytes hits).stop := by
  cases complete : (ofTag lexer hit bytes hits).complete with
  | true =>
    obtain ⟨next, present, stops⟩ := ofTag_complete lexer hit bytes hits complete
    rw [← stops]
    exact later next present
  | false =>
    rw [ofTag_open lexer hit bytes hits complete]
    omega

theorem allFrom_consume (lexer : Lexer) (bytes : Bytes) {offset : Nat} (inside : count ≤ offset)
    (later : ∀ hit ∈ hits, count ≤ hit.offset) :
    allFrom (lexer.consume count) bytes (offset - count) (hits.map (Hit.back count)) =
      (allFrom lexer bytes offset hits).map (back count) := by
  induction hits generalizing bytes offset with
  | nil => rfl
  | cons hit rest ih =>
    have here := later hit List.mem_cons_self
    have later : ∀ next ∈ rest, count ≤ next.offset :=
      fun next present => later next (List.mem_cons_of_mem _ present)
    rw [List.map_cons, allFrom, allFrom]
    by_cases early : hit.offset < offset
    · rw [if_pos early, if_pos (by show hit.offset - count < offset - count; omega)]
      exact ih bytes inside later
    · rw [if_neg early, if_neg (by show ¬ hit.offset - count < offset - count; omega)]
      have start : (hit.back count).offset + (lexer.consume count).tags.length =
          hit.offset + lexer.tags.length - count := by
        show hit.offset - count + lexer.tags.length = _
        omega
      have shift : hit.offset + lexer.tags.length - count - (offset - count) =
          hit.offset + lexer.tags.length - offset := by omega
      have following : (rest.map (Hit.back count)).dropWhile
          (fun next => next.offset < hit.offset + lexer.tags.length - count) =
            (rest.dropWhile fun next =>
              next.offset < hit.offset + lexer.tags.length).map (Hit.back count) := by
        have positive := lexer.tags.length_pos
        rw [List.dropWhile_map]
        congr 2
        funext next
        show decide (next.offset - count < _) = decide _
        rw [decide_eq_decide]
        omega
      have kept : ∀ next ∈ rest.dropWhile
          (fun next => next.offset < hit.offset + lexer.tags.length), count ≤ next.offset :=
        fun next present => later next ((List.dropWhile_sublist _).mem present)
      simp only [start, shift, following, ofTag_consume lexer _ here kept]
      have stops := le_ofTag_stop lexer
        (bytes.drop (hit.offset + lexer.tags.length - offset)) here kept
      generalize ofTag lexer hit (bytes.drop (hit.offset + lexer.tags.length - offset))
        (rest.dropWhile fun next => next.offset < hit.offset + lexer.tags.length) = frame at stops ⊢
      have taken : frame.stop - count - (offset - count) = frame.stop - offset := by omega
      show frame.back count :: allFrom (lexer.consume count)
        (bytes.drop (frame.stop - count - (offset - count))) (frame.stop - count) _ = _
      rw [List.map_cons, taken, ih _ stops later]

/-- What a session sees in its buffer is the window of the stream. -/
theorem allFrom_buffer (tags : TagPair) (received : Bytes) (done : Nat) :
    allFrom ((Lexer.after tags received).consume done) (received.drop done) 0
        ((Lexer.after tags received).consume done).hits =
      (window tags received done).map (back done) := by
  have later : ∀ hit ∈ (Lexer.after tags received).hits.dropWhile
      (fun hit => hit.offset < done), done ≤ hit.offset := by
    have apart := apart_after tags received
    generalize (Lexer.after tags received).hits = hits at apart
    induction hits with
    | nil => intro hit present; cases present
    | cons first rest ih =>
      obtain ⟨after, apart⟩ := List.pairwise_cons.1 apart
      by_cases early : first.offset < done
      · rw [List.dropWhile_cons_of_pos (by simpa using early)]
        exact ih apart
      · rw [List.dropWhile_cons_of_neg (by simpa using early)]
        intro hit present
        rcases List.mem_cons.1 present with rfl | beyond
        · exact Nat.le_of_not_lt early
        · have := after hit beyond
          omega
  -- Tags before the offset are removed with the bytes; in the stream they are skipped.
  have skipped : ∀ (lexer : Lexer) (bytes : Bytes) (hits : List Hit),
      allFrom lexer bytes done (hits.dropWhile fun hit => hit.offset < done) =
        allFrom lexer bytes done hits := by
    intro lexer bytes hits
    induction hits with
    | nil => rfl
    | cons first rest ih =>
      by_cases early : first.offset < done
      · rw [List.dropWhile_cons_of_pos (by simpa using early), ih, allFrom.eq_def _ _ _ (_ :: _)]
        simp only [if_pos early]
      · rw [List.dropWhile_cons_of_neg (by simpa using early)]
  have seen := allFrom_consume (Lexer.after tags received) (received.drop done)
    (Nat.le_refl done) later
  rw [Nat.sub_self, skipped] at seen
  exact seen

end Unbraid.Frame
