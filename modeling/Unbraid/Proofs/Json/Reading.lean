import Mathlib.Data.List.Basic
import Unbraid.Json.Decode

/-!
# Reading the beginning of a body

The machine of the grammar alone, without a reader. What one byte can do is said once
(`State.step_cases`), and the rest is told of many bytes. Once the machine has stopped it stays
stopped (`probe_append_of_stopped`), so a body that the grammar rules out is ruled out with whatever
follows. The one malformed verdict that more bytes can undo is that of a number without its digits
(`probe_eq_malformed_iff`). A body that decodes is complete by the grammar (`probe_of_decode`).
-/

namespace Unbraid.Json

namespace State

/-! ## One byte -/

/-- What a byte can do at a place, with the containers that are open there. Whoever follows the
machine splits into these cases and never into those of the step function. -/
inductive Move (opened : List Bracket) (byte : UInt8) : Place → State → List Mark → Prop where
  /-- A blank between two tokens. -/
  | blank {place : Place} (blank : isBlank byte = true) : Move opened byte place ⟨place, opened⟩ []
  /-- The first byte of a value. -/
  | value {place : Place} {next : State} {marks : List Mark}
      (awaits : place = .value ∨ place = .firstItem)
      (starts : startValue opened byte = some (next, marks)) : Move opened byte place next marks
  /-- The quote before a key. -/
  | key {place : Place} (awaits : place = .key ∨ place = .firstKey) (quote : byte = 0x22) :
      Move opened byte place ⟨.string .key .plain, opened⟩ []
  | colon (colon : byte = 0x3A) : Move opened byte .colon ⟨.value, opened⟩ []
  /-- A byte after a value, or the bracket that closes a container without one. -/
  | after {place : Place} {next : State} {marks : List Mark}
      (stands : place = .after ∨ place = .firstItem ∨ place = .firstKey)
      (goes : stepAfter opened byte = some (next, marks)) : Move opened byte place next marks
  | letter {word : Word} {rest : Bytes} (further : rest ≠ []) :
      Move opened byte (.word word (byte :: rest)) ⟨.word word rest, opened⟩ []
  | lastLetter {word : Word} :
      Move opened byte (.word word [byte]) ⟨.after, opened⟩ [.word word]
  /-- A byte of a number. -/
  | number {part reached : NumberPart} (belongs : part.next? byte = some reached) :
      Move opened byte (.number part) ⟨.number reached, opened⟩ [.numberByte byte]
  /-- The byte after a number. -/
  | numberEnd {part : NumberPart} {next : State} {marks : List Mark}
      (apart : part.next? byte = none) (ends : part.canEnd = true)
      (goes : stepAfter opened byte = some (next, marks)) :
      Move opened byte (.number part) next (.numberEnd :: marks)
  | string {role : Role} {part : StringPart} {next : State} {marks : List Mark}
      (goes : stepString opened role part byte = some (next, marks)) :
      Move opened byte (.string role part) next marks

theorem step_cases {state next : State} {byte : UInt8} {marks : List Mark}
    (moved : state.step byte = some (next, marks)) :
    Move state.opened byte state.place next marks := by
  obtain ⟨place, opened⟩ := state
  cases place with
  | value =>
    simp only [step] at moved
    split at moved
    · next blank => cases moved; exact .blank blank
    · exact .value (.inl rfl) moved
  | firstItem =>
    simp only [step] at moved
    split at moved
    · next blank => cases moved; exact .blank blank
    · split at moved
      · exact .after (.inr (.inl rfl)) moved
      · exact .value (.inr rfl) moved
  | firstKey =>
    simp only [step] at moved
    split at moved
    · next blank => cases moved; exact .blank blank
    · split at moved
      · exact .after (.inr (.inr rfl)) moved
      · split at moved
        · next quote => cases moved; exact .key (.inr rfl) quote
        · cases moved
  | key =>
    simp only [step] at moved
    split at moved
    · next blank => cases moved; exact .blank blank
    · split at moved
      · next quote => cases moved; exact .key (.inl rfl) quote
      · cases moved
  | colon =>
    simp only [step] at moved
    split at moved
    · next blank => cases moved; exact .blank blank
    · split at moved
      · next colon => cases moved; exact .colon colon
      · cases moved
  | after => exact .after (.inl rfl) moved
  | word word rest =>
    unfold step at moved
    rcases rest with _ | ⟨letter, _ | ⟨second, more⟩⟩
    · cases moved
    · simp only at moved
      split at moved
      · next same => cases moved; subst same; exact .lastLetter
      · cases moved
    · simp only at moved
      split at moved
      · next same => cases moved; subst same; exact .letter (List.cons_ne_nil _ _)
      · cases moved
  | number part =>
    simp only [step] at moved
    split at moved
    · next reached belongs => cases moved; exact .number belongs
    · next apart =>
      split at moved
      · next ends =>
        obtain ⟨⟨reached, more⟩, goes, equal⟩ := Option.map_eq_some_iff.1 moved
        cases equal
        exact .numberEnd apart ends goes
      · cases moved
  | string role part => exact .string moved

/-! ## Many bytes -/

/-- The state after some bytes, whatever a reader makes of them. -/
def run? (state : State) : Bytes → Option State
  | [] => some state
  | byte :: rest =>
    match state.step byte with
    | none => none
    | some (next, _) => next.run? rest

@[simp]
theorem run?_nil (state : State) : state.run? [] = some state := rfl

theorem run?_cons (state : State) (byte : UInt8) (rest : Bytes) :
    state.run? (byte :: rest) = (state.step byte).bind fun next => next.1.run? rest := by
  rw [run?]
  cases state.step byte <;> rfl

theorem run?_append (state : State) (bytes more : Bytes) :
    state.run? (bytes ++ more) = (state.run? bytes).bind fun next => next.run? more := by
  induction bytes generalizing state with
  | nil => rfl
  | cons byte rest ih =>
    rw [List.cons_append, run?_cons, run?_cons]
    cases state.step byte with
    | none => rfl
    | some next => exact ih next.1

/-- A text that the machine reads, it reads from the first byte to any later one. -/
theorem run?_of_append {state last : State} {bytes more : Bytes}
    (read : state.run? (bytes ++ more) = some last) :
    ∃ next, state.run? bytes = some next ∧ next.run? more = some last := by
  rw [run?_append] at read
  exact Option.bind_eq_some_iff.1 read

theorem read_append {σ : Type} (take : σ → Mark → Option σ) (state : State) (reader : σ)
    (bytes more : Bytes) :
    state.read take reader (bytes ++ more) =
      (state.read take reader bytes).bind fun reached => reached.1.read take reached.2 more := by
  induction bytes generalizing state reader with
  | nil => rfl
  | cons byte rest ih =>
    rw [List.cons_append, read, read]
    cases state.step byte with
    | none => rfl
    | some next =>
      obtain ⟨next, marks⟩ := next
      dsimp only
      cases marks.foldlM take reader with
      | none => rfl
      | some reader => exact ih next reader

/-- A reader does not change the course of the machine. -/
theorem run?_of_read {σ : Type} {take : σ → Mark → Option σ} {state last : State}
    {reader result : σ} {bytes : Bytes}
    (read : state.read take reader bytes = some (last, result)) : state.run? bytes = some last := by
  induction bytes generalizing state reader with
  | nil =>
    simp only [State.read, Option.some.injEq, Prod.mk.injEq] at read
    rw [run?_nil, read.1]
  | cons byte rest ih =>
    rw [State.read] at read
    rw [run?_cons]
    cases moved : state.step byte with
    | none => rw [moved] at read; cases read
    | some next =>
      obtain ⟨next, marks⟩ := next
      simp only [moved] at read
      cases taken : marks.foldlM take reader with
      | none => simp [taken] at read
      | some reader =>
        simp only [taken] at read
        exact ih read

theorem foldlM_skip (marks : List Mark) : marks.foldlM (fun _ _ => some ()) () = some () := by
  induction marks with
  | nil => rfl
  | cons mark rest ih => exact ih

theorem read_skip (state : State) (bytes : Bytes) :
    state.read (fun _ _ => some ()) () bytes = (state.run? bytes).map fun last => (last, ()) := by
  induction bytes generalizing state with
  | nil => rfl
  | cons byte rest ih =>
    rw [State.read, run?_cons]
    cases state.step byte with
    | none => rfl
    | some next =>
      obtain ⟨next, marks⟩ := next
      simp only [foldlM_skip]
      exact ih next

/-- A whole value has ended outside all containers, or it is a number that may end there. -/
theorem whole_cases {state : State} (whole : state.ending = .whole) :
    state = ⟨.after, []⟩ ∨ ∃ part, state = ⟨.number part, []⟩ ∧ part.canEnd = true := by
  obtain ⟨place, opened⟩ := state
  cases place with
  | after =>
    simp only [ending] at whole
    split at whole
    · next outermost => exact .inl (outermost ▸ rfl)
    · cases whole
  | number part =>
    simp only [ending] at whole
    split at whole
    · next ends =>
      split at whole
      · next outermost => exact .inr ⟨part, outermost ▸ rfl, ends⟩
      · cases whole
    · cases whole
  | _ => cases whole

end State

/-! ## Verdicts -/

theorem probe_eq (body : Bytes) :
    probe body =
      match State.start.run? body with
      | none => .malformed
      | some state =>
        match state.ending with
        | .whole => .complete
        | .cut => .incomplete
        | .cutNumber => .malformed := by
  rw [probe, State.read_skip]
  cases State.start.run? body <;> rfl

/-- The bytes end inside a number that still lacks a digit. -/
def EndsInNumber (bytes : Bytes) : Prop :=
  ∃ state, State.start.run? bytes = some state ∧ state.ending = .cutNumber

theorem probe_eq_complete_iff {body : Bytes} :
    probe body = .complete ↔
      ∃ state, State.start.run? body = some state ∧ state.ending = .whole := by
  rw [probe_eq]
  cases State.start.run? body with
  | none => simp
  | some state => cases ending : state.ending <;> simp [ending]

theorem probe_eq_incomplete_iff {body : Bytes} :
    probe body = .incomplete ↔
      ∃ state, State.start.run? body = some state ∧ state.ending = .cut := by
  rw [probe_eq]
  cases State.start.run? body with
  | none => simp
  | some state => cases ending : state.ending <;> simp [ending]

/-- Malformed is what no text goes on from, and a number that lacks a digit. -/
theorem probe_eq_malformed_iff {body : Bytes} :
    probe body = .malformed ↔ State.start.run? body = none ∨ EndsInNumber body := by
  rw [probe_eq, EndsInNumber]
  cases State.start.run? body with
  | none => simp
  | some state => cases ending : state.ending <;> simp [ending]

theorem probe_append_of_stopped {body : Bytes} (stopped : State.start.run? body = none)
    (more : Bytes) : probe (body ++ more) = .malformed := by
  refine probe_eq_malformed_iff.2 (.inl ?_)
  rw [State.run?_append, stopped, Option.bind_none]

theorem probe_of_decode {body : Bytes} {value : Value} (read : decode body = .complete value) :
    probe body = .complete := by
  rw [decode] at read
  cases taken : State.start.read Builder.take .empty body with
  | none => rw [taken] at read; cases read
  | some result =>
    obtain ⟨state, builder⟩ := result
    refine probe_eq_complete_iff.2 ⟨state, State.run?_of_read taken, ?_⟩
    simp only [taken] at read
    cases closed : state.endMarks.foldlM Builder.take builder with
    | none => simp [closed] at read
    | some builder =>
      cases ending : state.ending with
      | whole => rfl
      | cut => simp [closed, ending] at read
      | cutNumber => simp [closed, ending] at read

end Unbraid.Json
