import Mathlib.Data.String.Basic
import Unbraid.Proofs.Json.Decoding
import Unbraid.Proofs.Json.Keys

/-!
# Objects as maps

An object stands for a map from keys to values. Two values are the same if they agree as maps and as
sequences at every depth (`Value.Same`). The members of an object are kept in ascending order of
their keys: whatever a body decodes to is ordered at every depth (`Value.ordered_of_decode`). So a
map is kept in one way only, and ordered values that are the same are equal
(`Value.Same.eq_of_ordered`).
-/

namespace Unbraid.Json

/-! ## Members in order -/

/-- The keys ascend, and so no key occurs twice. -/
def Ascending {α : Type} (members : List (String × α)) : Prop :=
  members.Pairwise fun member later => member.1 < later.1

section

variable {α : Type} {members others : List (String × α)} {key : String}

theorem Ascending.insert (ascending : Ascending members) (value : α) :
    Ascending (insert key value members) := by
  induction members with
  | nil => exact List.pairwise_singleton _ _
  | cons first rest ih =>
    obtain ⟨other, held⟩ := first
    obtain ⟨least, ascends⟩ := List.pairwise_cons.1 ascending
    rw [Json.insert]
    split
    · next before =>
      refine List.pairwise_cons.2 ⟨fun member present => ?_, ascending⟩
      rcases List.mem_cons.1 present with rfl | later
      · exact before
      · exact before.trans (least member later)
    · split
      · next same => exact List.pairwise_cons.2 ⟨same ▸ least, ascends⟩
      · next notBefore different =>
        have behind : other < key := lt_of_le_of_ne (not_lt.1 notBefore) (Ne.symm different)
        refine List.pairwise_cons.2 ⟨fun member present => ?_, ih ascends⟩
        rcases mem_insert present with same | later
        · exact same ▸ behind
        · exact least member later

theorem insert_of_last (last : ∀ member ∈ members, member.1 < key) (value : α) :
    insert key value members = members ++ [(key, value)] := by
  induction members with
  | nil => rfl
  | cons first rest ih =>
    have before := last first List.mem_cons_self
    rw [insert, if_neg before.asymm, if_neg before.ne',
      ih fun member later => last member (List.mem_cons_of_mem _ later)]
    rfl

theorem lookup_of_below (below : ∀ member ∈ members, key < member.1) : members.lookup key = none :=
  List.lookup_eq_none_iff.2 fun member present => bne_iff_ne.2 (below member present).ne

theorem Ascending.lookup_cons {other : String} {value : α}
    (ascending : Ascending ((other, value) :: members)) :
    members.lookup key = if key = other then none else ((other, value) :: members).lookup key := by
  split
  · next same => exact lookup_of_below (same ▸ (List.pairwise_cons.1 ascending).1)
  · next different => rw [List.lookup_cons, beq_false_of_ne different]

/-- Ascending members are told apart by what is looked up in them. -/
theorem Ascending.eq_of_lookup (ascending : Ascending members) (rises : Ascending others)
    (agree : ∀ key, members.lookup key = others.lookup key) : members = others := by
  induction members generalizing others with
  | nil =>
    cases others with
    | nil => rfl
    | cons first rest =>
      have found := agree first.1
      rw [List.lookup_cons_self] at found
      cases found
  | cons first rest ih =>
    obtain ⟨key, value⟩ := first
    cases others with
    | nil =>
      have found := agree key
      rw [List.lookup_cons_self] at found
      cases found
    | cons second later =>
      obtain ⟨other, held⟩ := second
      -- The lesser one of two first keys would be missing on the other side.
      have missing : ∀ {lesser greater : String} {front back : α} {front' back' : List _},
          Ascending ((greater, back) :: back') → lesser < greater →
          ((lesser, front) :: front').lookup lesser ≠ ((greater, back) :: back').lookup lesser := by
        intro lesser greater front back front' back' ascends less found
        have below : ∀ member ∈ (greater, back) :: back', lesser < member.1 := by
          intro member present
          rcases List.mem_cons.1 present with rfl | behind
          · exact less
          · exact less.trans ((List.pairwise_cons.1 ascends).1 member behind)
        rw [lookup_of_below below, List.lookup_cons_self] at found
        cases found
      rcases lt_trichotomy key other with less | rfl | greater
      · exact absurd (agree key) (missing rises less)
      · have found := agree key
        rw [List.lookup_cons_self, List.lookup_cons_self] at found
        obtain rfl := Option.some.inj found
        congr 1
        refine ih (List.pairwise_cons.1 ascending).2 (List.pairwise_cons.1 rises).2 fun other => ?_
        rw [ascending.lookup_cons, rises.lookup_cons, agree]
      · exact absurd (agree other).symm (missing ascending greater)

end

/-! ## Values -/

namespace Value

/-- The members of every object in a value ascend. -/
inductive Ordered : Value → Prop where
  | null : Ordered .null
  | bool (value : Bool) : Ordered (.bool value)
  | number (number : Number) : Ordered (.number number)
  | string (text : String) : Ordered (.string text)
  | list {items : List Value} (each : ∀ item ∈ items, Ordered item) : Ordered (.list items)
  | object {members : List (String × Value)} (ascending : Ascending members)
      (each : ∀ member ∈ members, Ordered member.2) : Ordered (.object members)

/-- Two values are the same: lists item by item in order, and objects as maps, in which the order of
the members plays no part. -/
inductive Same : Value → Value → Prop where
  | null : Same .null .null
  | bool (value : Bool) : Same (.bool value) (.bool value)
  | number (number : Number) : Same (.number number) (.number number)
  | string (text : String) : Same (.string text) (.string text)
  | list {items others : List Value} (length : items.length = others.length)
      (each : ∀ (place : Nat) item other, items[place]? = some item →
        others[place]? = some other → Same item other) :
      Same (.list items) (.list others)
  | object {members others : List (String × Value)}
      (keys : ∀ key, (members.lookup key).isSome = (others.lookup key).isSome)
      (each : ∀ key value other, members.lookup key = some value → others.lookup key = some other →
        Same value other) :
      Same (.object members) (.object others)

theorem mem_of_lookup {members : List (String × Value)} {key : String} {value : Value}
    (found : members.lookup key = some value) : (key, value) ∈ members := by
  obtain ⟨before, after, rfl, -⟩ := List.lookup_eq_some_iff.1 found
  exact List.mem_append_right _ List.mem_cons_self

theorem Ordered.same_self {value : Value} (ordered : value.Ordered) : value.Same value := by
  induction ordered with
  | null => exact .null
  | bool value => exact .bool value
  | number number => exact .number number
  | string text => exact .string text
  | list each ih =>
    refine .list rfl fun place item other found again => ?_
    obtain rfl := Option.some.inj (found.symm.trans again)
    exact ih item (List.mem_of_getElem? found)
  | object ascending each ih =>
    refine .object (fun _ => rfl) fun key value other found again => ?_
    obtain rfl := Option.some.inj (found.symm.trans again)
    exact ih _ (mem_of_lookup found)

theorem Same.eq_of_ordered {value other : Value} (same : value.Same other) (ordered : value.Ordered)
    (orderly : other.Ordered) : value = other := by
  induction same with
  | null | bool | number | string => rfl
  | @list items others length each ih =>
    cases ordered with | list first =>
    cases orderly with | list second =>
    refine congrArg Value.list (List.ext_getElem length fun place before behind => ?_)
    exact ih place _ _ (List.getElem?_eq_getElem before) (List.getElem?_eq_getElem behind)
      (first _ (List.getElem_mem before)) (second _ (List.getElem_mem behind))
  | @object members others keys each ih =>
    cases ordered with | object ascending first =>
    cases orderly with | object rises second =>
    refine congrArg Value.object (ascending.eq_of_lookup rises fun key => ?_)
    have both := keys key
    cases found : members.lookup key with
    | none =>
      rw [found] at both
      exact (Option.isNone_iff_eq_none.1 (by simpa using both.symm)).symm
    | some value =>
      rw [found] at both
      obtain ⟨other, held⟩ := Option.isSome_iff_exists.1 both.symm
      rw [held, ih key value other found held (first _ (mem_of_lookup found))
        (second _ (mem_of_lookup held))]

/-- Values that are kept in order are the same only if they are equal. -/
theorem Ordered.same_iff {value other : Value} (ordered : value.Ordered)
    (orderly : other.Ordered) : value.Same other ↔ value = other :=
  ⟨fun same => same.eq_of_ordered ordered orderly, fun equal => equal ▸ ordered.same_self⟩

end Value

/-! ## What a body decodes to -/

def Context.Ordered : Context → Prop
  | list items => ∀ item ∈ items, item.Ordered
  | object members _ => Ascending members ∧ ∀ member ∈ members, member.2.Ordered

theorem Context.Ordered.value {context : Context} (ordered : context.Ordered) :
    context.value.Ordered := by
  cases context with
  | list items => exact .list fun item present => ordered item (List.mem_reverse.1 present)
  | object members key => exact .object ordered.1 ordered.2

theorem ordered_insert {members : List (String × Value)} {key : String} {value : Value}
    (each : ∀ member ∈ members, member.2.Ordered) (ordered : value.Ordered) :
    ∀ member ∈ insert key value members, member.2.Ordered := by
  induction members with
  | nil => simpa [insert] using ordered
  | cons first rest ih =>
    obtain ⟨other, held⟩ := first
    obtain ⟨begins, goesOn⟩ := List.forall_mem_cons.1 each
    rw [insert]
    split
    · exact List.forall_mem_cons.2 ⟨ordered, each⟩
    · split
      · exact List.forall_mem_cons.2 ⟨ordered, goesOn⟩
      · exact List.forall_mem_cons.2 ⟨begins, ih goesOn⟩

theorem Value.IsScalar.ordered {value : Value} (scalar : value.IsScalar) : value.Ordered := by
  cases value with
  | null => exact .null
  | bool value => exact .bool value
  | number number => exact .number number
  | string text => exact .string text
  | list | object => exact scalar.elim

namespace Builder

structure Ordered (builder : Builder) : Prop where
  contexts : ∀ context ∈ builder.contexts, context.Ordered
  done : ∀ value, builder.done = some value → value.Ordered

variable {builder result : Builder}

theorem Ordered.deliver (ordered : builder.Ordered) {value : Value} (whole : value.Ordered) :
    (builder.deliver value).Ordered := by
  obtain ⟨contexts, done⟩ := ordered
  rw [Builder.deliver]
  split
  · exact ⟨contexts, fun other equal => Option.some.inj equal ▸ whole⟩
  · next items outer inside =>
    rw [inside] at contexts
    obtain ⟨inner, outside⟩ := List.forall_mem_cons.1 contexts
    exact ⟨List.forall_mem_cons.2 ⟨List.forall_mem_cons.2 ⟨whole, inner⟩, outside⟩, done⟩
  · next members key outer inside =>
    rw [inside] at contexts
    obtain ⟨inner, outside⟩ := List.forall_mem_cons.1 contexts
    exact ⟨List.forall_mem_cons.2 ⟨⟨inner.1.insert value, ordered_insert inner.2 whole⟩, outside⟩,
      done⟩

theorem Ordered.take {mark : Mark} (ordered : builder.Ordered)
    (taken : builder.take mark = some result) : result.Ordered := by
  obtain ⟨contexts, done⟩ := ordered
  cases take_cases taken with
  | opened empty =>
    refine ⟨List.forall_mem_cons.2 ⟨?_, contexts⟩, done⟩
    rcases empty with rfl | rfl
    · exact List.forall_mem_nil _
    · exact ⟨List.Pairwise.nil, List.forall_mem_nil _⟩
  | @closed bracket context outer inside =>
    rw [inside] at contexts
    obtain ⟨inner, outside⟩ := List.forall_mem_cons.1 contexts
    have kept : Ordered { builder with contexts := outer } := ⟨outside, done⟩
    exact kept.deliver inner.value
  | scalar scalar => exact Ordered.deliver ⟨contexts, done⟩ scalar.ordered
  | grows grows => exact ⟨grows.contexts ▸ contexts, grows.done ▸ done⟩
  | key inside =>
    rw [inside] at contexts
    obtain ⟨inner, outside⟩ := List.forall_mem_cons.1 contexts
    exact ⟨List.forall_mem_cons.2 ⟨inner, outside⟩, done⟩

theorem Ordered.takeAll {marks : List Mark} (ordered : builder.Ordered)
    (taken : marks.foldlM Builder.take builder = some result) : result.Ordered := by
  induction marks generalizing builder with
  | nil =>
    obtain rfl := Option.some.inj taken
    exact ordered
  | cons mark rest ih =>
    rw [List.foldlM_cons] at taken
    obtain ⟨next, first, later⟩ := Option.bind_eq_some_iff.1 taken
    exact ih (ordered.take first) later

theorem Ordered.read {state last : State} {bytes : Bytes} (ordered : builder.Ordered)
    (read : state.read Builder.take builder bytes = some (last, result)) : result.Ordered := by
  induction bytes generalizing state builder with
  | nil =>
    obtain ⟨rfl, rfl⟩ := Prod.mk.inj (Option.some.inj read)
    exact ordered
  | cons byte rest ih =>
    rw [State.read] at read
    split at read
    · cases read
    · split at read
      · cases read
      · next next taken => exact ih (ordered.takeAll taken) read

end Builder

/-- Whatever a body decodes to is ordered, in whatever order its members were written. -/
theorem Value.ordered_of_decode {body : Bytes} {value : Value}
    (read : decode body = .complete value) : value.Ordered := by
  obtain ⟨state, builder, result, read, ended, -, done⟩ := decode_eq_complete_iff.1 read
  have empty : Builder.empty.Ordered := ⟨List.forall_mem_nil _, fun _ none => by cases none⟩
  exact ((empty.read read).takeAll ended).done value done

end Unbraid.Json
