import Mathlib.Data.List.TakeWhile
import Unbraid.Proofs.Json.Reading

/-!
# Blanks around a value

JSON knows fewer blanks than are removed around a body: the form feed is not among them. So a body
that reads as a value once it is trimmed is malformed if it loses a form feed, and else it is a
whole value (`probe_of_trimmed`). It is never the beginning of one (`probe_of_trimAscii`).
-/

namespace Unbraid

namespace Bytes

theorem exists_blanks_behind (bytes : Bytes) :
    ∃ after, bytes.dropWhile isAsciiBlank = trimAscii bytes ++ after ∧
      ∀ byte ∈ after, isAsciiBlank byte = true := by
  have back := List.takeWhile_append_dropWhile (p := isAsciiBlank)
    (l := (bytes.dropWhile isAsciiBlank).reverse)
  refine ⟨((bytes.dropWhile isAsciiBlank).reverse.takeWhile isAsciiBlank).reverse, ?_,
    fun byte present => List.mem_takeWhile_imp (List.mem_reverse.1 present)⟩
  rw [trimAscii, ← List.reverse_append, back, List.reverse_reverse]

theorem exists_blanks (bytes : Bytes) :
    ∃ before after, bytes = before ++ trimAscii bytes ++ after ∧
      (∀ byte ∈ before, isAsciiBlank byte = true) ∧ ∀ byte ∈ after, isAsciiBlank byte = true := by
  obtain ⟨after, behind, blank⟩ := exists_blanks_behind bytes
  refine ⟨bytes.takeWhile isAsciiBlank, after, ?_,
    fun byte present => List.mem_takeWhile_imp present,
    blank⟩
  rw [List.append_assoc, ← behind, List.takeWhile_append_dropWhile]

/-- There is a form feed among the blanks around the body. -/
def LosesFormFeed (bytes : Bytes) : Prop := bytes.trimAscii.count 0x0C < bytes.count 0x0C

instance (bytes : Bytes) : Decidable bytes.LosesFormFeed := Nat.decLt _ _

theorem losesFormFeed_iff {bytes before after : Bytes}
    (split : bytes = before ++ trimAscii bytes ++ after) :
    bytes.LosesFormFeed ↔ 0x0C ∈ before ∨ 0x0C ∈ after := by
  have count := congrArg (List.count 0x0C) split
  rw [List.count_append, List.count_append] at count
  rw [LosesFormFeed, count, ← List.count_pos_iff, ← List.count_pos_iff]
  omega

end Bytes

namespace Json

theorem asciiBlank_cases {byte : UInt8} (blank : Bytes.isAsciiBlank byte = true) :
    byte = 0x20 ∨ byte = 0x09 ∨ byte = 0x0A ∨ byte = 0x0C ∨ byte = 0x0D := by
  simpa [Bytes.isAsciiBlank, or_assoc] using blank

/-- The form feed is the only one of these blanks that JSON does not know. -/
theorem blank_cases {byte : UInt8} (blank : Bytes.isAsciiBlank byte = true) :
    State.isBlank byte = true ∧ byte ≠ 0x0C ∨ State.isBlank byte = false ∧ byte = 0x0C := by
  rcases asciiBlank_cases blank with rfl | rfl | rfl | rfl | rfl
  all_goals decide

theorem next?_blank {byte : UInt8} (blank : Bytes.isAsciiBlank byte = true) (part : NumberPart) :
    part.next? byte = none := by
  rcases asciiBlank_cases blank with rfl | rfl | rfl | rfl | rfl
  all_goals cases part <;> rfl

namespace State

variable {blanks : Bytes}

/-- Before a value blanks change nothing, but a form feed is ruled out. -/
theorem run?_start_blanks (blank : ∀ byte ∈ blanks, Bytes.isAsciiBlank byte = true) :
    start.run? blanks = if 0x0C ∈ blanks then none else some start := by
  induction blanks with
  | nil => rfl
  | cons byte rest ih =>
    have later := ih fun other present => blank other (List.mem_cons_of_mem _ present)
    rcases blank_cases (blank byte List.mem_cons_self) with ⟨known, other⟩ | ⟨-, rfl⟩
    · have moved : start.step byte = some (start, []) := if_pos known
      rw [run?_cons, moved, Option.bind_some, later]
      simp only [List.mem_cons, Ne.symm other, false_or]
    · rw [if_pos List.mem_cons_self]
      rfl

theorem step_blank {state : State} {byte : UInt8} (whole : state.ending = .whole)
    (blank : Bytes.isAsciiBlank byte = true) :
    byte ≠ 0x0C ∧ (∃ marks, state.step byte = some (⟨.after, []⟩, marks)) ∨
      byte = 0x0C ∧ state.step byte = none := by
  have after : byte ≠ 0x0C ∧ stepAfter [] byte = some (⟨.after, []⟩, []) ∨
      byte = 0x0C ∧ stepAfter [] byte = none := by
    rcases blank_cases blank with ⟨known, other⟩ | ⟨-, rfl⟩
    · exact .inl ⟨other, if_pos known⟩
    · exact .inr ⟨rfl, rfl⟩
  rcases whole_cases whole with rfl | ⟨part, rfl, ends⟩
  · exact after.imp (fun ⟨other, moved⟩ => ⟨other, [], moved⟩) id
  · simp only [step, next?_blank blank, ends, if_true]
    rcases after with ⟨other, moved⟩ | ⟨feed, stops⟩
    · exact .inl ⟨other, [.numberEnd], by rw [moved]; rfl⟩
    · exact .inr ⟨feed, by rw [stops]; rfl⟩

theorem run?_blanks {state : State} (whole : state.ending = .whole)
    (blank : ∀ byte ∈ blanks, Bytes.isAsciiBlank byte = true) :
    0x0C ∉ blanks ∧ (∃ last, state.run? blanks = some last ∧ last.ending = .whole) ∨
      0x0C ∈ blanks ∧ state.run? blanks = none := by
  induction blanks generalizing state with
  | nil => exact .inl ⟨List.not_mem_nil, state, rfl, whole⟩
  | cons byte rest ih =>
    rw [run?_cons]
    rcases step_blank whole (blank byte List.mem_cons_self) with
      ⟨other, marks, moved⟩ | ⟨rfl, stops⟩
    · have later : (State.mk .after []).ending = .whole := rfl
      rw [moved, Option.bind_some, List.mem_cons, or_iff_right (Ne.symm other)]
      exact ih later fun other present => blank other (List.mem_cons_of_mem _ present)
    · rw [stops, Option.bind_none]
      exact .inr ⟨List.mem_cons_self, rfl⟩

end State

/-- A body around a value is a value itself, unless there is a form feed among the blanks, which is
a blank of ASCII but not of JSON. Then the body is malformed, on whichever side the form feed
stands. -/
theorem probe_of_trimmed {body : Bytes} (complete : probe body.trimAscii = .complete) :
    probe body = if body.LosesFormFeed then .malformed else .complete := by
  obtain ⟨before, after, split, blank, blankAfter⟩ := Bytes.exists_blanks body
  obtain ⟨state, inside, whole⟩ := probe_eq_complete_iff.1 complete
  have run : State.start.run? body =
      (if 0x0C ∈ before then none else some state).bind fun next => next.run? after := by
    rw [split, State.run?_append, State.run?_append, State.run?_start_blanks blank]
    split
    · rfl
    · rw [Option.bind_some, inside]
  rcases State.run?_blanks whole blankAfter with ⟨clean, last, read, ends⟩ | ⟨feed, stops⟩
  · by_cases lead : 0x0C ∈ before
    · rw [if_pos ((Bytes.losesFormFeed_iff split).2 (.inl lead))]
      rw [if_pos lead, Option.bind_none] at run
      exact probe_eq_malformed_iff.2 (.inl run)
    · rw [if_neg (mt (Bytes.losesFormFeed_iff split).1 (not_or.2 ⟨lead, clean⟩))]
      rw [if_neg lead, Option.bind_some, read] at run
      exact probe_eq_complete_iff.2 ⟨last, run, ends⟩
  · rw [if_pos ((Bytes.losesFormFeed_iff split).2 (.inr feed))]
    refine probe_eq_malformed_iff.2 (.inl (run.trans ?_))
    split
    · rfl
    · exact stops

/-- Blanks around a value do not make it the beginning of one. -/
theorem probe_of_trimAscii {body : Bytes} (complete : probe body.trimAscii = .complete) :
    probe body ≠ .incomplete := by
  rw [probe_of_trimmed complete]
  split
  · exact Verdict.noConfusion
  · exact Verdict.noConfusion

end Json

end Unbraid
