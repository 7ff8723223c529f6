import Unbraid.Proofs.Json.Building
import Unbraid.Proofs.Json.Completion

/-!
# Decoding and the verdict of the grammar

What a body decodes to, beside what the grammar says of it.

* The two never contradict each other (`verdicts_agree`).
* A body that is read to its end is malformed only if the number it ends in is out of range
  (`decode_eq_malformed_iff`).
* That verdict is not final: a negative exponent brings the number into range, if it has no exponent
  yet or the digits of a negative one go on. Every other malformed verdict of decoding is final
  (`decode_malformed_completes_iff`). A one and 309 zeros are such a number
  (`out_of_range_until_scaled`).
-/

namespace Unbraid.Json

/-! ## Verdicts -/

theorem decode_eq_complete_iff {body : Bytes} {value : Value} :
    decode body = .complete value ↔ ∃ state builder result,
      State.start.read Builder.take .empty body = some (state, builder) ∧
        state.endMarks.foldlM Builder.take builder = some result ∧
        state.ending = .whole ∧ result.done = some value := by
  rw [decode]
  constructor
  · intro complete
    split at complete
    · cases complete
    · next state builder read =>
      split at complete
      · cases complete
      · next result ended =>
        split at complete
        · next whole done =>
          cases complete
          exact ⟨state, builder, result, read, ended, whole, done⟩
        all_goals cases complete
  · rintro ⟨state, builder, result, read, ended, whole, done⟩
    simp only [read, ended, whole, done]

/-- The body ends in a number that has come as far as the given part, with the given text. -/
def NumberAtEnd (body : Bytes) (part : NumberPart) (text : Bytes) : Prop :=
  ∃ opened builder,
    State.start.read Builder.take .empty body = some (⟨.number part, opened⟩, builder) ∧
      builder.token.reverse = text

theorem State.endMarks_cases (state : State) :
    state.endMarks = [] ∨ ∃ part opened, state = ⟨.number part, opened⟩ ∧ part.canEnd = true ∧
      state.endMarks = [.numberEnd] := by
  obtain ⟨place, opened⟩ := state
  cases place with
  | number part =>
    rw [endMarks]
    simp only
    split
    · next ends => exact .inr ⟨part, opened, rfl, ends, rfl⟩
    · exact .inl rfl
  | _ => exact .inl rfl

theorem numberEnd_eq_none_iff {builder : Builder} :
    [Mark.numberEnd].foldlM Builder.take builder = none ↔
      Number.ofText? builder.token.reverse = none := by
  rw [List.foldlM_cons, Builder.take]
  cases Number.ofText? builder.token.reverse with
  | none => exact iff_of_true rfl rfl
  | some number => exact iff_of_false (Option.some_ne_none _) (Option.some_ne_none _)

theorem Builder.Fits.exists_done {builder result : Builder} {state : State}
    (fits : builder.Fits state) (ended : state.endMarks.foldlM Builder.take builder = some result)
    (whole : state.ending = .whole) : ∃ value, result.done = some value := by
  rcases State.whole_cases whole with rfl | ⟨part, rfl, ends⟩
  · obtain rfl := Option.some.inj ended
    exact fits.done rfl trivial
  · have marks : (State.mk (.number part) []).endMarks = [.numberEnd] := if_pos ends
    rw [marks] at ended
    obtain ⟨number, -, rfl⟩ := Option.map_eq_some_iff.1 (foldlM_singleton ended)
    exact (Fits.deliver fits.nested _).done rfl trivial

/-- A body that is read to its end is malformed only if the number at its end is out of range. -/
theorem decode_eq_malformed_iff {body : Bytes} :
    decode body = .malformed ↔ State.start.read Builder.take .empty body = none ∨
      ∃ part text, NumberAtEnd body part text ∧ part.canEnd = true ∧
        Number.ofText? text = none := by
  constructor
  · intro malformed
    cases read : State.start.read Builder.take .empty body with
    | none => exact .inl rfl
    | some reached =>
      obtain ⟨state, builder⟩ := reached
      right
      rw [decode, read] at malformed
      dsimp only at malformed
      split at malformed
      · next out =>
        rcases state.endMarks_cases with none | ⟨part, opened, rfl, ends, marks⟩
        · rw [none] at out
          cases out
        · rw [marks, numberEnd_eq_none_iff] at out
          exact ⟨part, _, ⟨opened, builder, read, rfl⟩, ends, out⟩
      · next result ended =>
        split at malformed
        · cases malformed
        -- A value that is whole has been delivered.
        · next whole lacks =>
          obtain ⟨value, done⟩ := (Builder.fits_empty.read read).exists_done ended whole
          rw [lacks] at done
          cases done
        all_goals cases malformed
  · rintro (stopped | ⟨part, text, ⟨opened, builder, read, rfl⟩, ends, out⟩)
    · rw [decode, stopped]
    · have marks : (State.mk (.number part) opened).endMarks = [.numberEnd] := if_pos ends
      rw [decode, read]
      simp only [marks, numberEnd_eq_none_iff.2 out]

theorem exists_ending_of_cut {body : Bytes} (cut : decode body = .incomplete) :
    ∃ state, State.start.run? body = some state ∧ state.ending ≠ .whole := by
  rw [decode] at cut
  split at cut
  · cases cut
  · next state builder read =>
    refine ⟨state, State.run?_of_read read, fun whole => ?_⟩
    rw [whole] at cut
    split at cut
    · cases cut
    · next result ended =>
      cases done : result.done with
      | none => rw [done] at cut; cases cut
      | some value => rw [done] at cut; cases cut

/-- The two readings of a body never contradict each other: one that decodes is complete by the
grammar, and one that is cut as a value is not. They need not be the same, since decoding also minds
nesting, the range of numbers, UTF-8 and surrogates, and a number without its digits is cut for
decoding but malformed by the grammar. -/
theorem verdicts_agree (body : Bytes) :
    (∀ value, decode body = .complete value → probe body = .complete) ∧
      (decode body = .incomplete → probe body ≠ .complete) := by
  refine ⟨fun value => probe_of_decode, fun cut complete => ?_⟩
  obtain ⟨state, reached, lacks⟩ := exists_ending_of_cut cut
  obtain ⟨last, read, whole⟩ := probe_eq_complete_iff.1 complete
  obtain rfl := Option.some.inj (reached.symm.trans read)
  exact lacks whole

/-- A list decodes, and without its bracket it is cut. -/
theorem verdicts_agree_on_a_list :
    probe [0x5B, 0x31, 0x5D] = .complete ∧ probe [0x5B, 0x31] ≠ .complete :=
  ⟨(verdicts_agree [0x5B, 0x31, 0x5D]).1 (.list [.number (.integer 1)]) rfl,
    (verdicts_agree [0x5B, 0x31]).2 rfl⟩

/-! ## Numbers that go on -/

section

variable {part reached : NumberPart} {opened : List Bracket} {builder : Builder}

theorem read_number {bytes : Bytes} (belongs : bytes.foldlM NumberPart.next? part = some reached) :
    (State.mk (.number part) opened).read Builder.take builder bytes =
      some (⟨.number reached, opened⟩,
        { builder with token := bytes.reverse ++ builder.token }) := by
  induction bytes generalizing part builder with
  | nil =>
    obtain rfl := Option.some.inj belongs
    rfl
  | cons byte rest ih =>
    rw [List.foldlM_cons] at belongs
    obtain ⟨next, first, belongs⟩ := Option.bind_eq_some_iff.1 belongs
    have moved : (State.mk (.number part) opened).step byte =
        some (⟨.number next, opened⟩, [.numberByte byte]) := by
      simp only [State.step, first]
    have taken : [Mark.numberByte byte].foldlM Builder.take builder =
        some { builder with token := byte :: builder.token } := rfl
    rw [State.read, moved]
    simp only [taken]
    rw [ih belongs, List.reverse_cons, List.append_assoc, List.singleton_append]

theorem Builder.exists_closed (nested : builder.contexts.length = opened.length) (value : Value) :
    ∃ result outermost,
      (opened.map Mark.closed).foldlM Builder.take (builder.deliver value) = some result ∧
        result.done = some outermost := by
  induction opened generalizing builder value with
  | nil =>
    have outside := List.eq_nil_of_length_eq_zero nested
    refine ⟨builder.deliver value, value, rfl, ?_⟩
    rw [Builder.deliver, outside]
  | cons bracket outer ih =>
    obtain ⟨context, contexts, inside⟩ := List.exists_cons_of_length_eq_add_one nested
    have length : contexts.length = outer.length := by
      rw [inside] at nested
      exact Nat.succ.inj nested
    obtain ⟨filled, same⟩ : ∃ filled, (builder.deliver value).contexts = filled :: contexts := by
      rw [Builder.deliver, inside]
      cases context <;> exact ⟨_, rfl⟩
    have closes (rest : Builder) (outside : rest.contexts = contexts) := @ih rest (outside ▸ length)
    obtain ⟨result, outermost, closed, done⟩ :=
      closes { builder.deliver value with contexts } rfl filled.value
    refine ⟨result, outermost, ?_, done⟩
    rw [List.map_cons, List.foldlM_cons, Builder.take, same]
    exact closed

theorem exists_complete_of_number {body text : Bytes} {number : Number}
    (inside : NumberAtEnd body part text) (ends : part.canEnd = true)
    (inRange : Number.ofText? text = some number) :
    ∃ more value, decode (body ++ more) = .complete value := by
  obtain ⟨opened, builder, read, rfl⟩ := inside
  have nested := (Builder.fits_empty.read read).nested
  obtain ⟨result, value, closed, done⟩ := Builder.exists_closed nested (.number number)
  have taken : (Mark.numberEnd :: opened.map Mark.closed).foldlM Builder.take builder =
      some result := by
    rw [List.foldlM_cons, Builder.take, inRange]
    exact closed
  obtain ⟨last, after, reads, ended, whole⟩ := State.exists_read_closings ends taken
  refine ⟨closings opened, value, decode_eq_complete_iff.2 ⟨last, after, result, ?_, ended, whole,
    done⟩⟩
  rw [State.read_append, read, Option.bind_some]
  exact reads

theorem NumberAtEnd.append {body text bytes : Bytes} (inside : NumberAtEnd body part text)
    (belongs : bytes.foldlM NumberPart.next? part = some reached) :
    NumberAtEnd (body ++ bytes) reached (text ++ bytes) := by
  obtain ⟨opened, builder, read, rfl⟩ := inside
  refine ⟨opened, _, by rw [State.read_append, read, Option.bind_some, read_number belongs], ?_⟩
  rw [List.reverse_append, List.reverse_reverse]

end

namespace Number

/-- The exponent of the number can only grow, and the number is out of range as it is. -/
def Exceeds (text : Bytes) : Prop :=
  HasExponent text ∧ (writtenExponent text).head? ≠ some 0x2D ∧ ofText? text = none

theorem Exceeds.snoc {text : Bytes} {byte : UInt8} (exceeds : Exceeds text)
    (digit : Bytes.isDigit byte = true) : Exceeds (text ++ [byte]) := by
  obtain ⟨exponent, up, out⟩ := exceeds
  refine ⟨exponent.snoc digit, ?_⟩
  obtain ⟨mantissa, mark, sign, digits, rfl, before, known, signed, all⟩ := exponent
  obtain ⟨negative, scaled, applied⟩ := exists_ofText? before
  have longer : mantissa ++ mark :: (sign ++ digits) ++ [byte] =
      mantissa ++ mark :: (sign ++ (digits ++ [byte])) := by
    rw [List.append_assoc, List.cons_append, List.append_assoc]
  rw [writtenExponent_eq before known, ne_eq, head?_eq_minus_iff signed all] at up
  rw [applied mark _ known] at out
  rw [longer, writtenExponent_eq before known, ne_eq,
    head?_eq_minus_iff signed (all.snoc digit), applied mark _ known]
  exact ⟨up, Scaled.withExponent?_snoc signed up all digit out⟩

end Number

/-- A number whose exponent can only grow does not come into range. -/
theorem foldlM_endMarks_eq_none {opened : List Bracket} {builder result : Builder} {more : Bytes}
    {last : State} (exceeds : Number.Exceeds builder.token.reverse)
    (read : (State.mk (.number .exponent) opened).read Builder.take builder more =
      some (last, result)) :
    last.endMarks.foldlM Builder.take result = none := by
  induction more generalizing builder with
  | nil =>
    obtain ⟨rfl, rfl⟩ := Prod.mk.inj (Option.some.inj read)
    exact numberEnd_eq_none_iff.2 exceeds.2.2
  | cons byte rest ih =>
    rw [State.read] at read
    by_cases digit : Bytes.isDigit byte = true
    · have moved : (State.mk (.number .exponent) opened).step byte =
          some (⟨.number .exponent, opened⟩, [.numberByte byte]) := by
        simp only [State.step, NumberPart.next?, if_pos digit]
      rw [moved] at read
      refine ih ?_ read
      rw [List.reverse_cons]
      exact exceeds.snoc digit
    · have moved : (State.mk (.number .exponent) opened).step byte =
          (State.stepAfter opened byte).map
            fun reached => (reached.1, .numberEnd :: reached.2) := by
        simp only [State.step, NumberPart.next?, if_neg digit]
        rfl
      rw [moved] at read
      cases goes : State.stepAfter opened byte with
      | none => rw [goes] at read; cases read
      | some reached =>
        -- The end of the number comes before all that the byte means.
        have out : (Mark.numberEnd :: reached.2).foldlM Builder.take builder = none := by
          rw [List.foldlM_cons, Builder.take, exceeds.2.2]
          rfl
        rw [goes] at read
        simp only [Option.map_some, out] at read
        cases read

/-! ## Malformed bodies -/

/-- The number at the end of the body is out of range, and what follows can bring it into range: it
has no exponent yet, or a negative one. -/
def EndsOutOfRange (body : Bytes) : Prop :=
  ∃ part text, NumberAtEnd body part text ∧ part.canEnd = true ∧ Number.ofText? text = none ∧
    (part = .exponent → (Number.writtenExponent text).head? = some 0x2D)

/-- The number of such a body can be carried on until it is in range. -/
theorem EndsOutOfRange.exists_complete {body : Bytes} (ends : EndsOutOfRange body) :
    ∃ more value, decode (body ++ more) = .complete value := by
  obtain ⟨part, text, inside, canEnd, out, down⟩ := ends
  have spells : Number.Spells text part := by
    obtain ⟨opened, builder, read, rfl⟩ := inside
    exact (Builder.fits_empty.read read).token
  have withMark : ∀ {part : NumberPart}, [0x65].foldlM NumberPart.next? part = some .exponentMark →
      Number.IsMantissa text → ∃ bytes number,
        bytes.foldlM NumberPart.next? part = some .exponent ∧
          Number.ofText? (text ++ bytes) = some number := by
    intro part mark shape
    obtain ⟨number, inRange⟩ := Number.exists_ofText?_of_mantissa shape
    refine ⟨[0x65] ++ 0x2D :: Number.nines, number, ?_, inRange⟩
    rw [List.foldlM_append, mark]
    rfl
  have carried : ∃ bytes number, bytes.foldlM NumberPart.next? part = some .exponent ∧
      Number.ofText? (text ++ bytes) = some number := by
    cases part with
    | zero => exact withMark rfl (.inl spells)
    | whole => exact withMark rfl (.inl spells)
    | fraction => exact withMark rfl (.inr spells)
    | exponent =>
      obtain ⟨number, inRange⟩ := Number.exists_ofText?_of_exponent spells (down rfl)
      exact ⟨Number.nines, number, rfl, inRange⟩
    | sign | point | exponentMark | exponentSign => cases canEnd
  obtain ⟨bytes, number, belongs, inRange⟩ := carried
  obtain ⟨more, value, complete⟩ :=
    exists_complete_of_number (inside.append belongs) rfl inRange
  exact ⟨bytes ++ more, value, by rw [← List.append_assoc]; exact complete⟩

/-- The malformed verdict of decoding is final with one exception: more bytes make a malformed body
decode if and only if it ends in a number out of range that has no exponent yet or a negative one.
The bytes that do so are digits of a negative exponent and the brackets that are still open. -/
theorem decode_malformed_completes_iff (body : Bytes) :
    (decode body = .malformed ∧ ∃ more value, decode (body ++ more) = .complete value) ↔
      EndsOutOfRange body := by
  constructor
  · rintro ⟨malformed, more, value, complete⟩
    obtain ⟨last, after, result, read, ended, -, -⟩ := decode_eq_complete_iff.1 complete
    rw [State.read_append] at read
    rcases decode_eq_malformed_iff.1 malformed with stopped | ⟨part, text, inside, ends, out⟩
    · rw [stopped] at read
      cases read
    · refine ⟨part, text, inside, ends, out, ?_⟩
      rintro rfl
      by_contra up
      obtain ⟨opened, builder, reached, rfl⟩ := inside
      have spells := (Builder.fits_empty.read reached).token
      rw [reached, Option.bind_some] at read
      rw [foldlM_endMarks_eq_none ⟨spells, up, out⟩ read] at ended
      cases ended
  · intro ends
    have ⟨part, text, inside, canEnd, out, _⟩ := ends
    exact ⟨decode_eq_malformed_iff.2 (.inr ⟨part, text, inside, canEnd, out⟩),
      ends.exists_complete⟩

/-- A one and 309 zeros are more than the largest double, and so they are malformed; with a negative
exponent behind them they are in range, and the body decodes. The number is judged where the body
ends, before the exponent can come. -/
theorem out_of_range_until_scaled :
    (decode (0x31 :: List.replicate 309 0x30)).verdict = .malformed ∧
      (decode (0x31 :: List.replicate 309 0x30 ++ [0x65, 0x2D, 0x31])).verdict = .complete := by
  decide +kernel

end Unbraid.Json
