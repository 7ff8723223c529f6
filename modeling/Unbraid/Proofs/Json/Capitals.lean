import Unbraid.Proofs.Json.Reading

namespace Unbraid.Json

/-- The letter with which the tags begin. -/
def capitalT : UInt8 := 0x54

namespace State

/-- The letters that a word still needs are not capitals. -/
def Lowercase (state : State) : Prop :=
  ∀ word rest, state.place = .word word rest → capitalT ∉ rest

theorem lowercase_start : start.Lowercase := fun _ _ none => by cases none

theorem Lowercase.of_stepAfter {opened : List Bracket} {byte : UInt8} {next : State}
    {marks : List Mark} (moved : stepAfter opened byte = some (next, marks)) : next.Lowercase := by
  unfold stepAfter at moved
  intro word rest equal
  repeat' split at moved
  all_goals cases moved
  all_goals cases equal

theorem Lowercase.of_startValue {opened : List Bracket} {byte : UInt8} {next : State}
    {marks : List Mark} (moved : startValue opened byte = some (next, marks)) :
    next.Lowercase := by
  unfold startValue at moved
  intro word rest equal
  repeat' split at moved
  all_goals cases moved
  all_goals cases equal
  all_goals decide

theorem Lowercase.of_stepString {opened : List Bracket} {role : Role} {part : StringPart}
    {byte : UInt8} {next : State} {marks : List Mark}
    (moved : stepString opened role part byte = some (next, marks)) : next.Lowercase := by
  intro word rest equal
  cases part with
  | plain =>
    simp only [stepString] at moved
    repeat' split at moved
    all_goals cases moved
    all_goals cases equal
  | escape =>
    simp only [stepString] at moved
    split at moved
    · cases moved
      cases equal
    · obtain ⟨meant, -, same⟩ := Option.map_eq_some_iff.1 moved
      cases same
      cases equal
  | hex seen =>
    simp only [stepString] at moved
    split at moved
    · cases moved
      cases equal
    · obtain ⟨unit, -, same⟩ := Option.map_eq_some_iff.1 moved
      cases same
      cases equal

theorem Lowercase.step {state next : State} {byte : UInt8} {marks : List Mark}
    (lower : state.Lowercase) (moved : state.step byte = some (next, marks)) :
    next.Lowercase := by
  obtain ⟨place, opened⟩ := state
  cases step_cases moved with
  | blank => exact lower
  | value _ starts => exact .of_startValue starts
  | key => exact fun _ _ none => by cases none
  | colon => exact fun _ _ none => by cases none
  | after _ goes => exact .of_stepAfter goes
  | letter =>
    intro word rest equal present
    cases equal
    exact lower _ _ rfl (List.mem_cons_of_mem _ present)
  | lastLetter => exact fun _ _ none => by cases none
  | number => exact fun _ _ none => by cases none
  | numberEnd _ _ goes => exact .of_stepAfter goes
  | string goes => exact .of_stepString goes

theorem Lowercase.run? {state last : State} {bytes : Bytes} (lower : state.Lowercase)
    (read : state.run? bytes = some last) : last.Lowercase := by
  induction bytes generalizing state with
  | nil =>
    obtain rfl := Option.some.inj read
    exact lower
  | cons byte rest ih =>
    rw [run?_cons] at read
    obtain ⟨⟨next, marks⟩, moved, later⟩ := Option.bind_eq_some_iff.1 read
    exact ih (lower.step moved) later

/-! ## A capital T -/

theorem stepAfter_capitalT (opened : List Bracket) : stepAfter opened capitalT = none := by
  cases opened with
  | nil => rfl
  | cons bracket outer => cases bracket <;> rfl

theorem next?_capitalT (part : NumberPart) : part.next? capitalT = none := by
  cases part <;> rfl

/-- Only a string goes on with a capital T, and not after a backslash. Where a string takes it among
four hexadecimal digits, the escape fails at its last one. -/
theorem step_capitalT {state : State} (lower : state.Lowercase) :
    state.step capitalT = none ∨ (∃ role, state.place = .string role .plain) ∨
      ∃ role seen, state.place = .string role (.hex seen) := by
  obtain ⟨place, opened⟩ := state
  cases place with
  | string role part =>
    cases part with
    | plain => exact .inr (.inl ⟨role, rfl⟩)
    | escape => exact .inl rfl
    | hex seen => exact .inr (.inr ⟨role, seen, rfl⟩)
  | after => exact .inl (stepAfter_capitalT opened)
  | number part =>
    left
    simp only [State.step, next?_capitalT, stepAfter_capitalT]
    split <;> rfl
  | word word rest =>
    left
    have capitals := lower word rest rfl
    unfold State.step
    rcases rest with _ | ⟨letter, _ | ⟨second, more⟩⟩
    · rfl
    · exact if_neg fun same : capitalT = letter => capitals (same ▸ List.mem_cons_self)
    · exact if_neg fun same : capitalT = letter => capitals (same ▸ List.mem_cons_self)
  | value => exact .inl rfl
  | firstItem => exact .inl rfl
  | firstKey => exact .inl rfl
  | key => exact .inl rfl
  | colon => exact .inl rfl

theorem ending_of_capitalT {state next : State} {marks : List Mark} (lower : state.Lowercase)
    (moved : state.step capitalT = some (next, marks)) : state.ending = .cut := by
  rcases step_capitalT lower with none | ⟨role, plain⟩ | ⟨role, seen, hex⟩
  · rw [none] at moved
    cases moved
  · rw [ending, plain]
  · rw [ending, hex]

end State

/-- Cut before a capital T, a JSON text is only the beginning of one. -/
theorem probe_before_capitalT {before behind : Bytes}
    (value : probe (before ++ capitalT :: behind) = .complete) : probe before = .incomplete := by
  obtain ⟨last, read, -⟩ := probe_eq_complete_iff.1 value
  obtain ⟨state, part, goes⟩ := State.run?_of_append read
  rw [State.run?_cons] at goes
  obtain ⟨⟨next, marks⟩, moved, -⟩ := Option.bind_eq_some_iff.1 goes
  have lower := State.lowercase_start.run? part
  exact probe_eq_incomplete_iff.2 ⟨state, part, State.ending_of_capitalT lower moved⟩

end Unbraid.Json
