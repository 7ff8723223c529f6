import Unbraid.Proofs.Json.Range
import Unbraid.Proofs.Json.Reading

/-!
# Values under construction

A builder keeps pace with the machine (`Builder.Fits`): it has a context for each container that is
open, its token spells the number that is being read, and a value that has ended at the outermost
level is there. One byte preserves that (`Builder.Fits.step`), and so does a whole reading
(`Builder.Fits.read`).
-/

namespace Unbraid.Json

namespace Builder

/-- What a token holds at a place. -/
def TokenAt (token : Bytes) : Place → Prop
  | .number part => Number.Spells token.reverse part
  | .string _ _ => True
  | _ => token = []

def MayClose : Place → Prop
  | .after | .firstItem | .firstKey => True
  | _ => False

/-- The builder holds what has been read as far as the state. -/
structure Fits (builder : Builder) (state : State) : Prop where
  nested : builder.contexts.length = state.opened.length
  token : TokenAt builder.token state.place
  done : state.opened = [] → MayClose state.place → ∃ value, builder.done = some value

variable {builder result : Builder} {opened : List Bracket}

theorem Fits.deliver (nested : builder.contexts.length = opened.length) (value : Value) :
    (builder.deliver value).Fits ⟨.after, opened⟩ := by
  rw [Builder.deliver]
  split
  · exact ⟨nested, rfl, fun _ _ => ⟨value, rfl⟩⟩
  · next items outer inside =>
    rw [inside] at nested
    refine ⟨nested, rfl, fun outermost _ => ?_⟩
    rw [show opened = [] from outermost] at nested
    cases nested
  · next members key outer inside =>
    rw [inside] at nested
    refine ⟨nested, rfl, fun outermost _ => ?_⟩
    rw [show opened = [] from outermost] at nested
    cases nested

theorem foldlM_singleton {mark : Mark} (taken : [mark].foldlM take builder = some result) :
    builder.take mark = some result := by
  rw [List.foldlM_cons] at taken
  obtain ⟨next, first, last⟩ := Option.bind_eq_some_iff.1 taken
  obtain rfl := Option.some.inj last
  exact first

section

variable {byte : UInt8} {next : State} {marks : List Mark}

theorem Fits.stepAfter {place : Place} (fits : builder.Fits ⟨place, opened⟩)
    (stands : place = .after ∨ place = .firstItem ∨ place = .firstKey)
    (goes : State.stepAfter opened byte = some (next, marks))
    (taken : marks.foldlM take builder = some result) : result.Fits next := by
  obtain ⟨nested, token, done⟩ := fits
  have ⟨empty, closes⟩ : builder.token = [] ∧ MayClose place := by
    rcases stands with rfl | rfl | rfl
    all_goals exact ⟨token, trivial⟩
  cases opened with
  | nil =>
    simp only [State.stepAfter] at goes
    split at goes
    · cases goes
      obtain rfl := Option.some.inj taken
      exact ⟨nested, empty, fun _ _ => done rfl closes⟩
    · cases goes
  | cons bracket outer =>
    simp only [State.stepAfter] at goes
    split at goes
    · cases goes
      obtain rfl := Option.some.inj taken
      exact ⟨nested, empty, fun none => by cases none⟩
    · split at goes
      · cases goes
        obtain rfl := Option.some.inj taken
        refine ⟨nested, ?_, fun none => by cases none⟩
        cases bracket <;> exact empty
      · split at goes
        · cases goes
          have taken := foldlM_singleton taken
          simp only [take] at taken
          split at taken
          · cases taken
          · next context contexts inside =>
            obtain rfl := Option.some.inj taken
            rw [inside] at nested
            exact .deliver (Nat.succ.inj nested) _
        · cases goes

theorem Fits.startValue (nested : builder.contexts.length = opened.length)
    (empty : builder.token = []) (starts : State.startValue opened byte = some (next, marks))
    (taken : marks.foldlM take builder = some result) : result.Fits next := by
  have opens : ∀ {bracket : Bracket} {place : Place}, TokenAt [] place →
      [Mark.opened bracket].foldlM take builder = some result →
      result.Fits ⟨place, bracket :: opened⟩ := by
    intro bracket place token taken
    have taken := foldlM_singleton taken
    simp only [take] at taken
    split at taken
    · obtain rfl := Option.some.inj taken
      exact ⟨congrArg Nat.succ nested, empty.symm ▸ token, fun none => by cases none⟩
    · cases taken
  have counts : ∀ {part : NumberPart}, Number.Spells [byte] part →
      [Mark.numberByte byte].foldlM take builder = some result →
      result.Fits ⟨.number part, opened⟩ := by
    intro part spells taken
    obtain rfl := Option.some.inj (foldlM_singleton taken)
    refine ⟨nested, ?_, fun _ => False.elim⟩
    show Number.Spells (byte :: builder.token).reverse part
    rw [empty]
    exact spells
  have letters : ∀ {word : Word} {rest : Bytes}, [].foldlM take builder = some result →
      result.Fits ⟨.word word rest, opened⟩ := by
    intro word rest taken
    obtain rfl := Option.some.inj taken
    exact ⟨nested, empty, fun _ => False.elim⟩
  unfold State.startValue at starts
  split at starts
  · cases starts
    obtain rfl := Option.some.inj taken
    exact ⟨nested, trivial, fun _ => False.elim⟩
  split at starts
  · cases starts; exact opens rfl taken
  split at starts
  · cases starts; exact opens rfl taken
  split at starts
  · cases starts; exact letters taken
  split at starts
  · cases starts; exact letters taken
  split at starts
  · cases starts; exact letters taken
  split at starts
  · next minus =>
    cases starts
    subst minus
    exact counts ⟨[0x2D], [], rfl, .inr rfl, Number.allDigits_nil⟩ taken
  split at starts
  · next zero =>
    cases starts
    subst zero
    exact counts ⟨[], [0x30], rfl, .inl rfl, Number.allDigits_nil.snoc rfl⟩ taken
  split at starts
  · next digit =>
    cases starts
    exact counts ⟨[], [byte], rfl, .inl rfl, Number.allDigits_nil.snoc digit⟩ taken
  · cases starts

/-- The string or number that is being read has grown by so many bytes at most. -/
structure Grows (builder : Builder) (weight : Nat) (result : Builder) : Prop where
  contexts : result.contexts = builder.contexts
  done : result.done = builder.done
  token : result.token.length ≤ builder.token.length + weight

theorem grows_addChar (builder : Builder) (char : Char) :
    builder.Grows 4 (builder.addChar char) := by
  refine ⟨rfl, rfl, ?_⟩
  have := char.utf8Size_le_four
  rw [addChar, List.length_append, List.length_reverse, String.length_utf8EncodeChar]
  omega

theorem grows_of_addUnit {unit : Nat} (added : builder.addUnit unit = some result) :
    builder.Grows 4 result := by
  unfold Builder.addUnit at added
  simp only at added
  split at added
  · split at added
    · cases added
    · split at added
      · obtain rfl := Option.some.inj added
        exact ⟨rfl, rfl, Nat.le_add_right _ _⟩
      · obtain rfl := Option.some.inj added
        exact grows_addChar ..
  · split at added
    · obtain rfl := Option.some.inj added
      exact grows_addChar ..
    · cases added

theorem Fits.stepString {role : Role} {part : StringPart}
    (nested : builder.contexts.length = opened.length)
    (goes : State.stepString opened role part byte = some (next, marks))
    (taken : marks.foldlM take builder = some result) : result.Fits next := by
  -- The string goes on, and no container is opened or closed.
  have goesOn : ∀ {builder : Builder} {part : StringPart},
      builder.contexts.length = opened.length → builder.Fits ⟨.string role part, opened⟩ :=
    fun nested => ⟨nested, trivial, fun _ => False.elim⟩
  have text : ∀ {meant : UInt8}, [Mark.textByte meant].foldlM take builder = some result →
      result.contexts = builder.contexts := by
    intro meant taken
    have taken := foldlM_singleton taken
    simp only [take] at taken
    split at taken
    · cases taken
    · obtain rfl := Option.some.inj taken; rfl
  cases part with
  | plain =>
    simp only [State.stepString] at goes
    split at goes
    · cases role with
      | key =>
        cases goes
        have taken := foldlM_singleton taken
        simp only [take] at taken
        split at taken
        · next members old outer key inside ends =>
          obtain rfl := Option.some.inj taken
          rw [inside] at nested
          exact ⟨nested, rfl, fun _ => False.elim⟩
        · cases taken
      | value =>
        cases goes
        obtain ⟨text, -, rfl⟩ := Option.map_eq_some_iff.1 (foldlM_singleton taken)
        exact .deliver nested _
    split at goes
    · cases goes
      obtain rfl := Option.some.inj taken
      exact goesOn nested
    split at goes
    · cases goes
    · cases goes
      exact goesOn ((congrArg List.length (text taken)).trans nested)
  | escape =>
    simp only [State.stepString] at goes
    split at goes
    · cases goes
      obtain rfl := Option.some.inj taken
      exact goesOn nested
    · obtain ⟨meant, -, equal⟩ := Option.map_eq_some_iff.1 goes
      cases equal
      exact goesOn ((congrArg List.length (text taken)).trans nested)
  | hex seen =>
    simp only [State.stepString] at goes
    split at goes
    · cases goes
      obtain rfl := Option.some.inj taken
      exact goesOn nested
    · obtain ⟨unit, -, equal⟩ := Option.map_eq_some_iff.1 goes
      cases equal
      have grows := grows_of_addUnit (foldlM_singleton taken)
      exact goesOn ((congrArg List.length grows.contexts).trans nested)

theorem Fits.step {state : State} (fits : builder.Fits state)
    (moved : state.step byte = some (next, marks))
    (taken : marks.foldlM take builder = some result) : result.Fits next := by
  obtain ⟨place, opened⟩ := state
  have nested := fits.nested
  have token := fits.token
  cases State.step_cases moved with
  | blank =>
    obtain rfl := Option.some.inj taken
    exact fits
  | value awaits starts =>
    have empty : builder.token = [] := by
      rcases awaits with place | place
      all_goals
        cases place
        exact token
    exact .startValue nested empty starts taken
  | key =>
    obtain rfl := Option.some.inj taken
    exact ⟨nested, trivial, fun _ => False.elim⟩
  | colon =>
    obtain rfl := Option.some.inj taken
    exact ⟨nested, token, fun _ => False.elim⟩
  | after stands goes => exact fits.stepAfter stands goes taken
  | letter =>
    obtain rfl := Option.some.inj taken
    exact ⟨nested, token, fun _ => False.elim⟩
  | lastLetter =>
    rename_i word
    have taken := foldlM_singleton taken
    cases word with
    | null => obtain rfl := Option.some.inj taken; exact .deliver nested _
    | bool => obtain rfl := Option.some.inj taken; exact .deliver nested _
  | number belongs =>
    obtain rfl := Option.some.inj (foldlM_singleton taken)
    refine ⟨nested, ?_, fun _ => False.elim⟩
    have spells := Number.Spells.step token belongs
    rw [← List.reverse_cons] at spells
    exact spells
  | numberEnd _ _ goes =>
    rw [List.foldlM_cons] at taken
    obtain ⟨ended, first, taken⟩ := Option.bind_eq_some_iff.1 taken
    obtain ⟨number, -, rfl⟩ := Option.map_eq_some_iff.1 first
    exact (Fits.deliver nested _).stepAfter (.inl rfl) goes taken
  | string goes => exact .stepString nested goes taken

end

theorem fits_empty : empty.Fits State.start :=
  ⟨rfl, rfl, fun _ => False.elim⟩

theorem Fits.read {state last : State} {bytes : Bytes} (fits : builder.Fits state)
    (read : state.read take builder bytes = some (last, result)) : result.Fits last := by
  induction bytes generalizing state builder with
  | nil =>
    simp only [State.read, Option.some.injEq, Prod.mk.injEq] at read
    obtain ⟨rfl, rfl⟩ := read
    exact fits
  | cons byte rest ih =>
    rw [State.read] at read
    split at read
    · cases read
    · next next marks moved =>
      split at read
      · cases read
      · next after taken => exact ih (fits.step moved taken) read

end Builder

end Unbraid.Json
