import Unbraid.Proofs.Json.Building

namespace Unbraid.Json

/-- The bytes that were read and are not yet in the string: those of an escape that is under way. -/
def Place.debt : Place → Nat
  | .string _ .escape => 1
  | .string _ (.hex seen) => 2 + seen.length
  | _ => 0

/-- How many bytes a mark adds to the string or number at most. -/
def Mark.weight : Mark → Nat
  | .numberByte _ | .textByte _ => 1
  | .textUnit _ => 4
  | _ => 0

def Mark.weights : List Mark → Nat
  | [] => 0
  | mark :: rest => mark.weight + weights rest

/-- The members of the value have keys of at most so many bytes. The values in them may have longer
ones. -/
def Value.KeysWithin (limit : Nat) : Value → Prop
  | .object members => ∀ member ∈ members, member.1.utf8ByteSize ≤ limit
  | _ => True

def Context.KeysWithin (limit : Nat) : Context → Prop
  | .list _ => True
  | .object members key =>
    (∀ member ∈ members, member.1.utf8ByteSize ≤ limit) ∧ key.utf8ByteSize ≤ limit

/-- The keys that a builder holds take at most so many bytes each. -/
structure Builder.Within (limit : Nat) (builder : Builder) : Prop where
  contexts : ∀ context ∈ builder.contexts, context.KeysWithin limit
  done : ∀ value, builder.done = some value → value.KeysWithin limit

/-! ## One byte -/

namespace State

theorem stepAfter_weight {opened : List Bracket} {byte : UInt8} {next : State} {marks : List Mark}
    (moved : stepAfter opened byte = some (next, marks)) :
    Mark.weights marks = 0 ∧ next.place.debt = 0 := by
  unfold stepAfter at moved
  repeat' split at moved
  all_goals cases moved
  all_goals exact ⟨rfl, rfl⟩

theorem startValue_weight {opened : List Bracket} {byte : UInt8} {next : State} {marks : List Mark}
    (moved : startValue opened byte = some (next, marks)) :
    Mark.weights marks + next.place.debt ≤ 1 := by
  unfold startValue at moved
  repeat' split at moved
  all_goals cases moved
  all_goals simp [Mark.weights, Mark.weight, Place.debt]

theorem stepString_weight {opened : List Bracket} {role : Role} {part : StringPart} {byte : UInt8}
    {next : State} {marks : List Mark}
    (moved : stepString opened role part byte = some (next, marks)) :
    Mark.weights marks + next.place.debt ≤ (Place.string role part).debt + 1 := by
  cases part with
  | plain =>
    simp only [stepString] at moved
    repeat' split at moved
    all_goals cases moved
    all_goals simp [Mark.weights, Mark.weight, Place.debt]
  | escape =>
    simp only [stepString] at moved
    split at moved
    · cases moved
      simp [Mark.weights, Place.debt]
    · obtain ⟨meant, -, equal⟩ := Option.map_eq_some_iff.1 moved
      cases equal
      simp [Mark.weights, Mark.weight, Place.debt]
  | hex seen =>
    simp only [stepString] at moved
    split at moved
    · cases moved
      show 0 + (2 + (seen ++ [byte]).length) ≤ 2 + seen.length + 1
      rw [List.length_append, List.length_singleton]
      omega
    -- Four digits, the backslash and the u pay for the four bytes of a character.
    · next long =>
      obtain ⟨unit, -, equal⟩ := Option.map_eq_some_iff.1 moved
      cases equal
      show 4 + 0 ≤ 2 + seen.length + 1
      omega

/-- What a byte adds, and what an escape has still to pay for, is no more than one byte and what an
escape had to pay for before. An escape adds its character at its last byte, and has by then paid
for it with the bytes before. -/
theorem step_weight {state next : State} {byte : UInt8} {marks : List Mark}
    (moved : state.step byte = some (next, marks)) :
    Mark.weights marks + next.place.debt ≤ state.place.debt + 1 := by
  obtain ⟨place, opened⟩ := state
  cases step_cases moved with
  | blank =>
    show 0 + place.debt ≤ place.debt + 1
    omega
  | value _ starts => exact Nat.le_trans (startValue_weight starts) (Nat.le_add_left _ _)
  | key => exact Nat.zero_le _
  | colon => exact Nat.zero_le _
  | after _ goes =>
    have := stepAfter_weight goes
    omega
  | letter => exact Nat.zero_le _
  | lastLetter => exact Nat.zero_le _
  | number => exact Nat.le_refl _
  | numberEnd _ _ goes =>
    have := stepAfter_weight goes
    have weights : ∀ more, Mark.weights (.numberEnd :: more) = Mark.weights more := by
      simp [Mark.weights, Mark.weight]
    rw [weights]
    omega
  | string goes => exact stepString_weight goes

end State

/-! ## One mark -/

theorem mem_insert {α : Type} {key : String} {value : α} {members : List (String × α)}
    {member : String × α} (present : member ∈ insert key value members) :
    member.1 = key ∨ member ∈ members := by
  induction members with
  | nil =>
    rw [insert, List.mem_singleton] at present
    exact .inl (congrArg Prod.fst present)
  | cons first rest ih =>
    obtain ⟨other, held⟩ := first
    rw [insert] at present
    split at present
    · rcases List.mem_cons.1 present with rfl | later
      · exact .inl rfl
      · exact .inr later
    · split at present
      · rcases List.mem_cons.1 present with rfl | later
        · exact .inl rfl
        · exact .inr (List.mem_cons_of_mem _ later)
      · rcases List.mem_cons.1 present with rfl | later
        · exact .inr List.mem_cons_self
        · rcases ih later with same | known
          · exact .inl same
          · exact .inr (List.mem_cons_of_mem _ known)

theorem Context.KeysWithin.value {limit : Nat} {context : Context}
    (within : context.KeysWithin limit) : context.value.KeysWithin limit := by
  cases context with
  | list items => trivial
  | object members key => exact within.1

/-- Neither a list nor an object. -/
def Value.IsScalar : Value → Prop
  | .list _ | .object _ => False
  | _ => True

theorem Value.IsScalar.keysWithin {limit : Nat} {value : Value} (scalar : value.IsScalar) :
    value.KeysWithin limit := by
  cases value with
  | object members => exact scalar.elim
  | _ => trivial

namespace Builder

variable {limit : Nat} {builder result : Builder}

theorem Within.deliver (within : builder.Within limit) (value : Value)
    (keys : value.KeysWithin limit) :
    (builder.deliver value).Within limit ∧ (builder.deliver value).token = [] := by
  obtain ⟨contexts, done⟩ := within
  rw [Builder.deliver]
  split
  · refine ⟨⟨contexts, fun other equal => ?_⟩, rfl⟩
    obtain rfl := Option.some.inj equal
    exact keys
  · next items outer known =>
    rw [known] at contexts
    refine ⟨⟨fun context present => ?_, done⟩, rfl⟩
    rcases List.mem_cons.1 present with rfl | later
    · trivial
    · exact contexts context (List.mem_cons_of_mem _ later)
  · next members key outer known =>
    rw [known] at contexts
    refine ⟨⟨fun context present => ?_, done⟩, rfl⟩
    have object := contexts _ List.mem_cons_self
    rcases List.mem_cons.1 present with rfl | later
    · refine ⟨fun member known => ?_, Nat.zero_le _⟩
      rcases mem_insert known with same | held
      · rw [same]
        exact object.2
      · exact object.1 member held
    · exact contexts context (List.mem_cons_of_mem _ later)

theorem length_of_endText? {text : String} (ends : builder.endText? = some text) :
    text.utf8ByteSize = builder.token.length := by
  rw [endText?] at ends
  split at ends
  · cases ends
  · rw [Bytes.text?, String.fromUTF8?] at ends
    split at ends
    · obtain rfl := Option.some.inj ends
      show builder.token.reverse.toArray.size = _
      simp
    · cases ends

/-- What a mark can do to a builder. What the keys and the order of the members need is read off
these cases. -/
inductive Change (builder : Builder) : Mark → Builder → Prop where
  | opened {bracket : Bracket} {context : Context}
      (empty : context = .list [] ∨ context = .object [] "") :
      Change builder (.opened bracket) { builder with contexts := context :: builder.contexts }
  | closed {bracket : Bracket} {context : Context} {outer : List Context}
      (inside : builder.contexts = context :: outer) :
      Change builder (.closed bracket) ({ builder with contexts := outer }.deliver context.value)
  /-- A word, a number or a string has ended. -/
  | scalar {mark : Mark} {value : Value} (scalar : value.IsScalar) :
      Change builder mark (builder.deliver value)
  | grows {mark : Mark} {result : Builder} (grows : builder.Grows mark.weight result) :
      Change builder mark result
  | key {members : List (String × Value)} {old key : String} {outer : List Context}
      (inside : builder.contexts = .object members old :: outer)
      (ends : builder.endText? = some key) :
      Change builder .keyEnd
        { builder with token := [], contexts := .object members key :: outer }

theorem take_cases {mark : Mark} (taken : builder.take mark = some result) :
    Change builder mark result := by
  cases mark with
  | opened bracket =>
    simp only [take] at taken
    split at taken
    · obtain rfl := Option.some.inj taken
      cases bracket with
      | list => exact .opened (.inl rfl)
      | object => exact .opened (.inr rfl)
    · cases taken
  | closed bracket =>
    simp only [take] at taken
    split at taken
    · cases taken
    · next context outer inside =>
      obtain rfl := Option.some.inj taken
      exact .closed inside
  | word word =>
    cases word with
    | null =>
      obtain rfl := Option.some.inj taken
      exact .scalar trivial
    | bool value =>
      obtain rfl := Option.some.inj taken
      exact .scalar trivial
  | numberByte byte =>
    obtain rfl := Option.some.inj taken
    exact .grows ⟨rfl, rfl, Nat.le_refl _⟩
  | numberEnd =>
    obtain ⟨number, -, rfl⟩ := Option.map_eq_some_iff.1 taken
    exact .scalar trivial
  | textByte byte =>
    simp only [take] at taken
    split at taken
    · cases taken
    · obtain rfl := Option.some.inj taken
      exact .grows ⟨rfl, rfl, Nat.le_refl _⟩
  | textUnit unit => exact .grows (grows_of_addUnit taken)
  | keyEnd =>
    simp only [take] at taken
    split at taken
    · next members old outer key inside ends =>
      obtain rfl := Option.some.inj taken
      exact .key inside ends
    · cases taken
  | textEnd =>
    obtain ⟨text, -, rfl⟩ := Option.map_eq_some_iff.1 taken
    exact .scalar trivial

/-- A mark leaves the keys within the limit, and adds to the token what it weighs. -/
theorem Within.take {mark : Mark} (within : builder.Within limit)
    (short : builder.token.length ≤ limit) (taken : builder.take mark = some result) :
    result.Within limit ∧ result.token.length ≤ builder.token.length + mark.weight := by
  cases take_cases taken with
  | opened empty =>
    refine ⟨⟨List.forall_mem_cons.2 ⟨?_, within.contexts⟩, within.done⟩, Nat.le_add_right _ _⟩
    rcases empty with rfl | rfl
    · trivial
    · exact ⟨List.forall_mem_nil _, Nat.zero_le _⟩
  | @closed bracket context outer inside =>
    have contexts := within.contexts
    rw [inside] at contexts
    obtain ⟨inner, outside⟩ := List.forall_mem_cons.1 contexts
    have kept : Within limit { builder with contexts := outer } := ⟨outside, within.done⟩
    obtain ⟨kept, none⟩ := kept.deliver context.value inner.value
    exact ⟨kept, none ▸ Nat.zero_le _⟩
  | @scalar _ value scalar =>
    obtain ⟨kept, none⟩ := within.deliver value scalar.keysWithin
    exact ⟨kept, none ▸ Nat.zero_le _⟩
  | grows grows =>
    exact ⟨⟨grows.contexts ▸ within.contexts, grows.done ▸ within.done⟩, grows.token⟩
  | key inside ends =>
    have contexts := within.contexts
    rw [inside] at contexts
    obtain ⟨inner, outside⟩ := List.forall_mem_cons.1 contexts
    refine ⟨⟨List.forall_mem_cons.2 ⟨⟨inner.1, ?_⟩, outside⟩, within.done⟩, Nat.zero_le _⟩
    rw [length_of_endText? ends]
    exact short

theorem Within.mono {further : Nat} (within : builder.Within limit) (more : limit ≤ further) :
    builder.Within further := by
  refine ⟨fun context present => ?_, fun value known => ?_⟩
  · have keys := within.contexts context present
    cases context with
    | list items => trivial
    | object members key =>
      exact ⟨fun member held => Nat.le_trans (keys.1 member held) more, Nat.le_trans keys.2 more⟩
  · have keys := within.done value known
    cases value with
    | object members => exact fun member held => Nat.le_trans (keys member held) more
    | _ => trivial

theorem Within.takeAll {marks : List Mark} (within : builder.Within limit)
    (short : builder.token.length + Mark.weights marks ≤ limit)
    (taken : marks.foldlM Builder.take builder = some result) :
    result.Within limit ∧ result.token.length ≤ builder.token.length + Mark.weights marks := by
  induction marks generalizing builder with
  | nil =>
    obtain rfl := Option.some.inj taken
    exact ⟨within, Nat.le_add_right _ _⟩
  | cons mark rest ih =>
    rw [List.foldlM_cons] at taken
    obtain ⟨next, first, taken⟩ := Option.bind_eq_some_iff.1 taken
    have weights : Mark.weights (mark :: rest) = mark.weight + Mark.weights rest := rfl
    rw [weights] at short ⊢
    obtain ⟨kept, longer⟩ := within.take (by omega) first
    obtain ⟨within, length⟩ := ih kept (by omega) taken
    exact ⟨within, by omega⟩

end Builder

/-! ## A whole body -/

theorem State.within_of_read {limit : Nat} {state last : State} {builder result : Builder}
    {bytes : Bytes} (within : builder.Within limit)
    (short : builder.token.length + state.place.debt ≤ limit)
    (read : state.read Builder.take builder bytes = some (last, result)) :
    result.Within (limit + bytes.length) ∧
      result.token.length + last.place.debt ≤ limit + bytes.length := by
  induction bytes generalizing limit state builder with
  | nil =>
    simp only [State.read, Option.some.injEq, Prod.mk.injEq] at read
    obtain ⟨rfl, rfl⟩ := read
    exact ⟨within, short⟩
  | cons byte rest ih =>
    rw [State.read] at read
    split at read
    · cases read
    · next next marks moved =>
      split at read
      · cases read
      · next after taken =>
        have weight := State.step_weight moved
        obtain ⟨kept, length⟩ := (within.mono (Nat.le_succ limit)).takeAll (by omega) taken
        have longer : limit + (byte :: rest).length = limit + 1 + rest.length := by
          rw [List.length_cons]
          omega
        rw [longer]
        exact ih kept (by omega) read

/-- The keys of a value take no more bytes than the body it was read from. -/
theorem keysWithin_of_decode {body : Bytes} {value : Value}
    (read : decode body = .complete value) : value.KeysWithin body.length := by
  rw [decode] at read
  split at read
  · cases read
  · next state builder taken =>
    split at read
    · cases read
    · next closed ended =>
      have empty : Builder.empty.Within 0 :=
        ⟨fun _ none => absurd none List.not_mem_nil, fun _ none => by cases none⟩
      have nothing : Builder.empty.token.length + State.start.place.debt ≤ 0 := Nat.le_refl 0
      obtain ⟨within, short⟩ := State.within_of_read empty nothing taken
      rw [Nat.zero_add] at within short
      -- The end of the body adds nothing more: at most it ends a number.
      have light : Mark.weights state.endMarks = 0 := by
        rw [State.endMarks]
        repeat' split
        all_goals rfl
      obtain ⟨kept, -⟩ := within.takeAll (by omega) ended
      split at read
      · next done =>
        obtain rfl := Decoded.complete.inj read
        exact kept.done _ done
      all_goals cases read

/-- A body with a member decodes to it only if it is as long as the key of the member. -/
theorem length_le_of_member? {body : Bytes} {value item : Value} {key : String}
    (read : decode body = .complete value) (found : value.member? key = some item) :
    key.utf8ByteSize ≤ body.length := by
  have keys := keysWithin_of_decode read
  cases value with
  | object members =>
    obtain ⟨before, after, rfl, -⟩ := List.lookup_eq_some_iff.1 found
    exact keys (key, item) (List.mem_append_right _ List.mem_cons_self)
  | _ => cases found

end Unbraid.Json
