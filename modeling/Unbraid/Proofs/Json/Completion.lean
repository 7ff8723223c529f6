import Unbraid.Proofs.Json.Reading

/-!
# Completing a number that was cut

When is the malformed verdict of the grammar final? What the machine stops at, no later byte
repairs. But a body is also malformed if it ends inside a number that may not end there, and such a
number lacks only a digit.

* A number that may end is whole once the containers around it are closed, whatever a reader makes
  of the marks (`State.exists_read_closings`).
* So the verdict is final for every body but one that ends inside a number without its digit, and
  for that one it never is (`malformed_completes_iff`). The shortest such body is a minus sign
  (`minus_is_malformed`).
-/

namespace Unbraid.Json

/-- The bytes that close the open containers, the innermost first. -/
def closings (opened : List Bracket) : Bytes := opened.map Bracket.closing

namespace NumberPart

/-- A zero may follow wherever a number may not end. -/
theorem exists_next?_zero {part : NumberPart} (lacks : part.canEnd = false) :
    ∃ reached, part.next? 0x30 = some reached ∧ reached.canEnd = true := by
  cases part with
  | sign => exact ⟨.zero, rfl, rfl⟩
  | point => exact ⟨.fraction, rfl, rfl⟩
  | exponentMark => exact ⟨.exponent, rfl, rfl⟩
  | exponentSign => exact ⟨.exponent, rfl, rfl⟩
  | zero | whole | fraction | exponent => cases lacks

theorem next?_closing (part : NumberPart) (bracket : Bracket) :
    part.next? bracket.closing = none := by
  cases bracket <;> cases part <;> rfl

end NumberPart

namespace State

theorem stepAfter_closing (bracket : Bracket) (outer : List Bracket) :
    stepAfter (bracket :: outer) bracket.closing = some (⟨.after, outer⟩, [.closed bracket]) := by
  cases bracket <;> rfl

theorem exists_number_of_cutNumber {state : State} (cut : state.ending = .cutNumber) :
    ∃ part opened, state = ⟨.number part, opened⟩ ∧ part.canEnd = false := by
  obtain ⟨place, opened⟩ := state
  cases place with
  | number part =>
    refine ⟨part, opened, rfl, Bool.eq_false_iff.2 fun ends => ?_⟩
    rw [ending] at cut
    simp only [ends, if_true] at cut
    split at cut <;> cases cut
  | after =>
    rw [ending] at cut
    simp only at cut
    split at cut <;> cases cut
  | _ => cases cut

section

variable {σ : Type} {take : σ → Mark → Option σ} {opened : List Bracket}

theorem read_closings (reader : σ) :
    (State.mk .after opened).read take reader (closings opened) =
      ((opened.map Mark.closed).foldlM take reader).map fun result => (⟨.after, []⟩, result) := by
  induction opened generalizing reader with
  | nil => rfl
  | cons bracket outer ih =>
    have moved : (State.mk .after (bracket :: outer)).step bracket.closing =
        some (⟨.after, outer⟩, [.closed bracket]) := stepAfter_closing bracket outer
    rw [closings, List.map_cons, read, moved, List.map_cons, List.foldlM_cons]
    simp only [List.foldlM_cons, List.foldlM_nil]
    cases take reader (.closed bracket) with
    | none => rfl
    | some next => exact ih next

theorem exists_read_closings {part : NumberPart} (ends : part.canEnd = true) {reader result : σ}
    (taken : (Mark.numberEnd :: opened.map Mark.closed).foldlM take reader = some result) :
    ∃ last after, (State.mk (.number part) opened).read take reader (closings opened) =
        some (last, after) ∧
      last.endMarks.foldlM take after = some result ∧ last.ending = .whole := by
  cases opened with
  -- Without containers the end of the text ends the number.
  | nil =>
    refine ⟨⟨.number part, []⟩, reader, rfl, ?_, ?_⟩
    · rw [endMarks]
      simp only [ends, if_true]
      exact taken
    · rw [ending]
      simp only [ends, if_true]
  | cons bracket outer =>
    have moved : (State.mk (.number part) (bracket :: outer)).step bracket.closing =
        some (⟨.after, outer⟩, [.numberEnd, .closed bracket]) := by
      simp only [step, part.next?_closing, ends, stepAfter_closing, if_true, Option.map_some]
    rw [List.map_cons, List.foldlM_cons] at taken
    obtain ⟨ended, first, taken⟩ := Option.bind_eq_some_iff.1 taken
    rw [List.foldlM_cons] at taken
    obtain ⟨next, second, taken⟩ := Option.bind_eq_some_iff.1 taken
    refine ⟨⟨.after, []⟩, result, ?_, rfl, rfl⟩
    have marks : [Mark.numberEnd, .closed bracket].foldlM take reader = some next := by
      simp only [List.foldlM_cons, first, second, List.foldlM_nil, Option.bind_eq_bind,
        Option.bind_some, Option.pure_def]
    rw [closings, List.map_cons, read, moved]
    simp only [marks]
    rw [← closings, read_closings, taken, Option.map_some]

end

end State

/-! ## The verdict of the grammar -/

/-- With a zero and the closing brackets, a number that lacks a digit is part of a whole value. -/
theorem EndsInNumber.exists_complete {body : Bytes} (inNumber : EndsInNumber body) :
    ∃ more, probe (body ++ more) = .complete := by
  obtain ⟨state, read, cut⟩ := inNumber
  obtain ⟨part, opened, rfl, lacks⟩ := State.exists_number_of_cutNumber cut
  obtain ⟨reached, belongs, ends⟩ := NumberPart.exists_next?_zero lacks
  have moved : (State.mk (.number part) opened).step 0x30 =
      some (⟨.number reached, opened⟩, [.numberByte 0x30]) := by
    simp only [State.step, belongs]
  obtain ⟨last, after, closed, -, whole⟩ := State.exists_read_closings ends (State.foldlM_skip _)
  refine ⟨0x30 :: closings opened, probe_eq_complete_iff.2 ⟨last, ?_, whole⟩⟩
  rw [State.run?_append, read, Option.bind_some, State.run?_cons, moved, Option.bind_some]
  exact State.run?_of_read closed

/-- The malformed verdict of the grammar is final with one exception: more bytes complete a
malformed body if and only if it ends inside a number that still lacks a digit. There the machine
has not stopped; the body is malformed because no number ends like that. -/
theorem malformed_completes_iff (body : Bytes) :
    (probe body = .malformed ∧ ∃ more, probe (body ++ more) = .complete) ↔ EndsInNumber body := by
  constructor
  · rintro ⟨malformed, more, complete⟩
    rcases probe_eq_malformed_iff.1 malformed with stopped | inNumber
    · rw [probe_append_of_stopped stopped more] at complete
      cases complete
    · exact inNumber
  · intro inNumber
    exact ⟨probe_eq_malformed_iff.2 (.inr inNumber), inNumber.exists_complete⟩

/-- A lone minus sign is malformed, since no number ends with it, and yet it is the beginning of a
value: with a digit behind it the body is complete. -/
theorem minus_is_malformed :
    probe [0x2D] = .malformed ∧ probe ([0x2D] ++ [0x31]) = .complete := by decide

end Unbraid.Json
