import Unbraid.Frame
import Unbraid.Proofs.Json.Reading

/-!
# Where a message ends

What `boundary` and `ofTag` say of a message: a message with an end stops at one of the tags that
follow (`ofTag_complete`), any other takes all bytes there are (`ofTag_open`). More tags are looked
at only if none of those before ended the body (`boundary_append`). The messages of a buffer begin
at the first tag from an offset on, and go on where the message of that tag stops (`allFrom_eq`).
-/

namespace Unbraid.Frame

/-! ## Where a body ends -/

theorem boundary_append (bytes : Bytes) (start : Nat) (passed : Option Nat)
    (hits more : List Hit) :
    boundary bytes start passed (hits ++ more) =
      match boundary bytes start passed hits with
      | .ends offset => .ends offset
      | .runsOn passed => boundary bytes start passed more := by
  induction hits generalizing passed with
  | nil => rfl
  | cons next rest ih =>
    rw [List.cons_append, boundary, boundary]
    cases Json.probe (bytes.take (next.offset - start)) with
    | complete => rfl
    | malformed => rfl
    | incomplete => exact ih _

theorem boundary_congr {bytes others : Bytes} {start : Nat} {hits : List Hit}
    (same : ∀ hit ∈ hits, bytes.take (hit.offset - start) = others.take (hit.offset - start))
    (passed : Option Nat) :
    boundary bytes start passed hits = boundary others start passed hits := by
  induction hits generalizing passed with
  | nil => rfl
  | cons next rest ih =>
    rw [boundary, boundary, same next List.mem_cons_self]
    cases Json.probe (others.take (next.offset - start)) with
    | complete => rfl
    | malformed => rfl
    | incomplete => exact ih (fun hit later => same hit (List.mem_cons_of_mem _ later)) _

/-- A body ends at a tag: at the one that was passed over first, or at one that is looked at. -/
theorem of_boundary_ends {bytes : Bytes} {start offset : Nat} {passed : Option Nat}
    {hits : List Hit} (ends : boundary bytes start passed hits = .ends offset) :
    passed = some offset ∨ ∃ hit ∈ hits, hit.offset = offset := by
  induction hits generalizing passed with
  | nil => cases ends
  | cons next rest ih =>
    rw [boundary] at ends
    cases verdict : Json.probe (bytes.take (next.offset - start)) with
    | complete =>
      simp only [verdict, Boundary.ends.injEq] at ends
      exact .inr ⟨next, List.mem_cons_self, ends⟩
    | malformed =>
      simp only [verdict, Boundary.ends.injEq] at ends
      cases passed with
      | none => exact .inr ⟨next, List.mem_cons_self, ends⟩
      | some first => exact .inl (congrArg some ends)
    | incomplete =>
      simp only [verdict] at ends
      rcases ih ends with known | ⟨hit, later, equal⟩
      · cases passed with
        | none => exact .inr ⟨next, List.mem_cons_self, Option.some.inj known⟩
        | some first => exact .inl known
      · exact .inr ⟨hit, List.mem_cons_of_mem _ later, equal⟩

/-- A body that runs on was only the beginning of a value at every tag, and the first of them is
the one that was passed over first. -/
theorem of_boundary_runsOn {bytes : Bytes} {start : Nat} {passed first : Option Nat}
    {hits : List Hit} (runs : boundary bytes start passed hits = .runsOn first) :
    first = passed.or (hits.head?.map Hit.offset) ∧
      ∀ hit ∈ hits, Json.probe (bytes.take (hit.offset - start)) = .incomplete := by
  induction hits generalizing passed with
  | nil =>
    simp only [boundary, Boundary.runsOn.injEq] at runs
    simp [runs]
  | cons next rest ih =>
    rw [boundary] at runs
    cases verdict : Json.probe (bytes.take (next.offset - start)) with
    | complete => simp [verdict] at runs
    | malformed => simp [verdict] at runs
    | incomplete =>
      simp only [verdict] at runs
      obtain ⟨equal, all⟩ := ih runs
      refine ⟨?_, ?_⟩
      · rw [equal]
        cases passed <;> simp
      · intro hit present
        rcases List.mem_cons.1 present with rfl | later
        · exact verdict
        · exact all hit later

/-! ## One message -/

section

variable (lexer : Lexer) (hit : Hit) (bytes : Bytes) (following : List Hit)

@[simp]
theorem ofTag_kind : (ofTag lexer hit bytes following).kind = hit.kind := by
  rw [ofTag]
  split
  · rfl
  · rfl
  · split <;> rfl

@[simp]
theorem ofTag_tagOffset : (ofTag lexer hit bytes following).tagOffset = hit.offset := by
  rw [ofTag]
  split
  · rfl
  · rfl
  · split <;> rfl

@[simp]
theorem ofTag_start :
    (ofTag lexer hit bytes following).start = hit.offset + lexer.tags.length := by
  rw [ofTag]
  split
  · rfl
  · rfl
  · split <;> rfl

theorem ofTag_body :
    (ofTag lexer hit bytes following).body =
      bytes.take ((ofTag lexer hit bytes following).stop - (hit.offset + lexer.tags.length)) := by
  have all : ∀ start, bytes = bytes.take (start + bytes.length - start) := by
    intro start
    rw [Nat.add_sub_cancel_left, List.take_length]
  rw [ofTag]
  split
  · rfl
  · exact all _
  · split
    · rfl
    · exact all _

theorem ofTag_complete (complete : (ofTag lexer hit bytes following).complete = true) :
    ∃ next ∈ following, next.offset = (ofTag lexer hit bytes following).stop := by
  rw [ofTag] at complete ⊢
  split at complete
  · next stop ends =>
    rcases of_boundary_ends ends with impossible | found
    · cases impossible
    · exact found
  · cases complete
  · next passed runs =>
    obtain ⟨first, -⟩ := of_boundary_runsOn runs
    split at complete
    · next malformed =>
      simp only [malformed, if_pos]
      cases following with
      | nil => cases first
      | cons next rest => exact ⟨next, List.mem_cons_self, (Option.some.inj first).symm⟩
    · cases complete

theorem ofTag_open (growing : (ofTag lexer hit bytes following).complete = false) :
    (ofTag lexer hit bytes following).stop = hit.offset + lexer.tags.length + bytes.length := by
  rw [ofTag] at growing ⊢
  split at growing
  · cases growing
  · rfl
  · next passed runs =>
    split at growing
    · cases growing
    · next alive => simp only [alive, if_false, Frame.growing]

theorem start_le_ofTag_stop
    (later : ∀ next ∈ following, hit.offset + lexer.tags.length ≤ next.offset) :
    hit.offset + lexer.tags.length ≤ (ofTag lexer hit bytes following).stop := by
  cases complete : (ofTag lexer hit bytes following).complete with
  | true =>
    obtain ⟨next, present, stops⟩ := ofTag_complete lexer hit bytes following complete
    rw [← stops]
    exact later next present
  | false =>
    rw [ofTag_open lexer hit bytes following complete]
    exact Nat.le_add_right _ _

end

/-! ## Message after message -/

/-- The messages begin at the first tag from the offset on, and go on where the message of that tag
stops. -/
theorem allFrom_eq (lexer : Lexer) (received : Bytes) {hits : List Hit}
    (apart : hits.Pairwise fun hit later => hit.offset + lexer.tags.length ≤ later.offset)
    (done : Nat) :
    allFrom lexer (received.drop done) done hits =
      match hits.find? fun hit => done ≤ hit.offset with
      | none => []
      | some hit =>
        let frame := ofTag lexer hit (received.drop (hit.offset + lexer.tags.length))
          (hits.filter fun later => hit.offset + lexer.tags.length ≤ later.offset)
        frame :: allFrom lexer (received.drop frame.stop) frame.stop hits := by
  have positive := lexer.tags.length_pos
  induction hits with
  | nil => rfl
  | cons hit rest ih =>
    obtain ⟨after, apart⟩ := List.pairwise_cons.1 apart
    rw [allFrom]
    by_cases early : hit.offset < done
    · rw [if_pos early, ih apart, List.find?_cons_of_neg (by simpa using early)]
      cases found : rest.find? fun hit => decide (done ≤ hit.offset) with
      | none => rfl
      | some next =>
        have start := after next (List.mem_of_find?_eq_some found)
        have skipped : ¬ next.offset + lexer.tags.length ≤ hit.offset := by omega
        simp only [List.filter_cons, decide_eq_true_eq, if_neg skipped]
        congr 1
        -- The message of a later tag stops behind this one, so going on passes it by again.
        rw [allFrom, if_pos]
        have stops := start_le_ofTag_stop lexer next
          (received.drop (next.offset + lexer.tags.length))
          (rest.filter fun later => decide (next.offset + lexer.tags.length ≤ later.offset))
          (fun later present => by simpa using (List.mem_filter.1 present).2)
        omega
    · rw [if_neg early, List.find?_cons_of_pos (by simpa using early)]
      have following : (hit :: rest).filter
          (fun later => hit.offset + lexer.tags.length ≤ later.offset) = rest := by
        have own : ¬ hit.offset + lexer.tags.length ≤ hit.offset := by omega
        rw [List.filter_cons_of_neg (by simpa using own)]
        exact List.filter_eq_self.2 fun later present => by simpa using after later present
      have none : rest.dropWhile
          (fun later => later.offset < hit.offset + lexer.tags.length) = rest := by
        cases rest with
        | nil => rfl
        | cons next more =>
          refine List.dropWhile_cons_of_neg ?_
          simpa using after next List.mem_cons_self
      have reached : done + (hit.offset + lexer.tags.length - done) =
          hit.offset + lexer.tags.length := by omega
      simp only [following, none, List.drop_drop, reached]
      have stops := start_le_ofTag_stop lexer hit
        (received.drop (hit.offset + lexer.tags.length)) rest after
      congr 1
      rw [allFrom.eq_def _ _ _ (hit :: rest)]
      simp only
      rw [if_pos (by omega), Nat.add_sub_cancel' (by omega)]

end Unbraid.Frame
