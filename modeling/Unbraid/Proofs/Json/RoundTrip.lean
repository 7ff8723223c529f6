import Unbraid.Proofs.Json.Ordered
import Unbraid.Proofs.Json.Spelling

/-!
# Compact text reads back

A value whose numbers are integers of 64 bits is read back from its compact text, if it is not
nested deeper than a reader goes (`Value.decode_text`). Every part of the text is read with any text
behind it (`Value.Reads`): a number ends with the comma or the bracket behind it, or with the text.
-/

namespace Unbraid.Json

/-! ## Integers -/

theorem ofChars_digitChar {n : Nat} (digit : n < 10) :
    Bytes.ofChars [n.digitChar] = [UInt8.ofNat (48 + n)] := by
  have all : ∀ n < 10, Bytes.ofChars [n.digitChar] = [UInt8.ofNat (48 + n)] := by decide
  exact all n digit

theorem ofChars_digits (n : Nat) :
    Bytes.ofChars (digits n) =
      if n < 10 then [UInt8.ofNat (48 + n)]
      else Bytes.ofChars (digits (n / 10)) ++ [UInt8.ofNat (48 + n % 10)] := by
  rw [digits, Nat.toDigits_eq_if (by decide)]
  split
  · next small => exact ofChars_digitChar small
  · rw [Bytes.ofChars_append, ofChars_digitChar (Nat.mod_lt n (by decide))]
    rfl

theorem digit_ofNat {n : Nat} (small : n < 10) :
    Bytes.isDigit (UInt8.ofNat (48 + n)) = true ∧ Number.digit (UInt8.ofNat (48 + n)) = n := by
  have all : ∀ n < 10, Bytes.isDigit (UInt8.ofNat (48 + n)) = true ∧
      Number.digit (UInt8.ofNat (48 + n)) = n := by decide
  exact all n small

namespace Number

theorem allDigits_ofChars (n : Nat) : AllDigits (Bytes.ofChars (Json.digits n)) := by
  induction n using Nat.strongRecOn with
  | ind n ih =>
    rw [ofChars_digits]
    split
    · next small => exact allDigits_nil.snoc (digit_ofNat small).1
    · exact (ih (n / 10) (by omega)).snoc (digit_ofNat (Nat.mod_lt n (by decide))).1

theorem ofDigits_ofChars {n : Nat} (fits : n < wordEnd) :
    ofDigits (Bytes.ofChars (Json.digits n)) = n := by
  induction n using Nat.strongRecOn with
  | ind n ih =>
    rw [ofChars_digits]
    split
    · next small =>
      show min wordEnd (0 * 10 + digit (UInt8.ofNat (48 + n))) = n
      rw [(digit_ofNat small).2]
      omega
    · have upper := ih (n / 10) (by omega) (by omega)
      have last := (digit_ofNat (Nat.mod_lt n (by decide : 0 < 10))).2
      rw [ofDigits] at upper
      rw [ofDigits, List.foldl_append, upper, List.foldl_cons, List.foldl_nil, last]
      omega

/-- Is the number an integer of 64 bits, signed or not? -/
def IsWord : Number → Prop
  | integer value => -0x8000000000000000 ≤ value ∧ value < wordEnd
  | double _ => False

instance : DecidablePred IsWord
  | integer value => inferInstanceAs (Decidable (-0x8000000000000000 ≤ value ∧ value < wordEnd))
  | double _ => .isFalse id

theorem ofChars_integer (value : Int) :
    Bytes.ofChars (integer value).chars =
      (if value < 0 then [0x2D] else []) ++ Bytes.ofChars (Json.digits value.natAbs) := by
  rw [chars, Bytes.ofChars_append]
  split <;> rfl

/-- A number without a point and an exponent is an integer if it is in range. -/
theorem ofText?_whole {sign digits : Bytes} (signed : sign = [] ∨ sign = [0x2D])
    (all : AllDigits digits) :
    ofText? (sign ++ digits) = (integer? (decide (sign = [0x2D])) digits).orElse fun _ =>
      (Scaled.collectWhole 0 digits).double? (decide (sign = [0x2D])) := by
  obtain ⟨negative, unsigned⟩ := unsigned_eq signed all endsDigits_nil
  obtain ⟨whole, rest⟩ := digits_split all endsDigits_nil
  rw [List.append_nil] at negative unsigned whole rest
  rw [ofText?]
  simp only [negative, unsigned, whole, rest]

theorem ofText?_ofChars {value : Int} (word : (integer value).IsWord) :
    ofText? (Bytes.ofChars (integer value).chars) = some (integer value) := by
  obtain ⟨least, greatest⟩ := word
  have all := allDigits_ofChars value.natAbs
  have fits : value.natAbs < wordEnd := by
    rw [wordEnd] at *
    omega
  rw [ofChars_integer]
  by_cases negative : value < 0
  · have known : integer? true (Bytes.ofChars (Json.digits value.natAbs)) =
        some (integer value) := by
      rw [integer?, ofDigits_ofChars fits, if_pos rfl, if_neg (by omega),
        show -(value.natAbs : Int) = value by omega]
    rw [if_pos negative, ofText?_whole (.inr rfl) all,
      decide_eq_true (rfl : ([0x2D] : Bytes) = [0x2D]), known]
    rfl
  · have known : integer? false (Bytes.ofChars (Json.digits value.natAbs)) =
        some (integer value) := by
      rw [integer?, ofDigits_ofChars fits, if_neg (by decide), if_pos fits,
        show (value.natAbs : Int) = value by omega]
    rw [if_neg negative, ofText?_whole (.inl rfl) all,
      decide_eq_false (by decide : ¬ ([] : Bytes) = [0x2D]), known]
    rfl

theorem foldlM_whole {rest : Bytes} (all : AllDigits rest) :
    rest.foldlM NumberPart.next? .whole = some .whole := by
  induction rest with
  | nil => rfl
  | cons byte later ih =>
    have next : NumberPart.next? .whole byte = some .whole := by
      rw [NumberPart.next?, if_pos (all byte List.mem_cons_self)]
    rw [List.foldlM_cons, next]
    exact ih fun other present => all other (List.mem_cons_of_mem _ present)

theorem exists_first (n : Nat) :
    ∃ first rest part, Bytes.ofChars (Json.digits n) = first :: rest ∧
      NumberPart.next? .sign first = some part ∧ rest.foldlM NumberPart.next? part = some part ∧
        part = if n = 0 then .zero else .whole := by
  induction n using Nat.strongRecOn with
  | ind n ih =>
    rw [ofChars_digits]
    split
    · next small =>
      have all : ∀ n < 10, NumberPart.next? .sign (UInt8.ofNat (48 + n)) =
          some (if n = 0 then .zero else .whole) := by decide
      exact ⟨_, [], _, rfl, all n small, rfl, rfl⟩
    · obtain ⟨first, rest, part, written, begins, goesOn, known⟩ := ih (n / 10) (by omega)
      rw [if_neg (by omega)] at known
      subst known
      have last := (digit_ofNat (Nat.mod_lt n (by decide : 0 < 10))).1
      refine ⟨first, rest ++ [UInt8.ofNat (48 + n % 10)], .whole, ?_, begins, ?_, ?_⟩
      · rw [written, List.cons_append]
      · rw [List.foldlM_append, goesOn]
        exact foldlM_whole (allDigits_nil.snoc last)
      · rw [if_neg (by omega)]

end Number

/-! ## Nesting -/

mutual

/-- How many lists and objects are nested in each other at most. -/
def Value.depth : Value → Nat
  | .list items => itemsDepth items + 1
  | .object members => membersDepth members + 1
  | _ => 0

def itemsDepth : List Value → Nat
  | [] => 0
  | item :: rest => max item.depth (itemsDepth rest)

def membersDepth : List (String × Value) → Nat
  | [] => 0
  | (_, value) :: rest => max value.depth (membersDepth rest)

end

/-! ## Places -/

namespace State

section

variable {place : Place} {opened : List Bracket} {contexts : List Context} {done : Option Value}

/-- Where a value is due, a byte that is no blank and no closing bracket begins one. -/
theorem step_begins (awaits : place = .value ∨ place = .firstItem) {byte : UInt8}
    (blank : isBlank byte = false) (closing : byte ≠ 0x5D) :
    (State.mk place opened).step byte = startValue opened byte := by
  rcases awaits with rfl | rfl
  · simp only [step, blank, Bool.false_eq_true, if_false]
  · have other : ¬ byte = Bracket.closing .list := closing
    simp only [step, blank, Bool.false_eq_true, if_false, other]

theorem step_digit (awaits : place = .value ∨ place = .firstItem) {byte : UInt8}
    {part : NumberPart} (begins : NumberPart.next? .sign byte = some part) :
    (State.mk place opened).step byte = some (⟨.number part, opened⟩, [.numberByte byte]) := by
  simp only [NumberPart.next?] at begins
  split at begins
  · next zero =>
    cases begins
    subst zero
    exact step_begins awaits rfl (by decide)
  · next nonzero =>
    split at begins
    · next digit =>
      cases begins
      have other : ∀ other, Bytes.isDigit other = false → byte ≠ other := by
        rintro _ not rfl
        rw [digit] at not
        cases not
      have blank : isBlank byte = false := by
        simp only [isBlank, other 0x20 rfl, other 0x09 rfl, other 0x0A rfl, other 0x0D rfl,
          decide_false, Bool.or_self]
      rw [step_begins awaits blank (other 0x5D rfl)]
      simp only [startValue, other 0x22 rfl, other 0x5B rfl, other 0x7B rfl, other 0x6E rfl,
        other 0x74 rfl, other 0x66 rfl, other 0x2D rfl, nonzero, digit, if_false, if_true]
    · cases begins

theorem read_integer (awaits : place = .value ∨ place = .firstItem) (value : Int) :
    ∃ part, part.canEnd = true ∧ (part = .zero ∨ part = .whole) ∧
      (State.mk place opened).read Builder.take ⟨[], none, contexts, done⟩
          (Bytes.ofChars (Number.integer value).chars) =
        some (⟨.number part, opened⟩,
          ⟨(Bytes.ofChars (Number.integer value).chars).reverse, none, contexts, done⟩) := by
  obtain ⟨first, rest, part, written, begins, goesOn, known⟩ := Number.exists_first value.natAbs
  have kind : part = .zero ∨ part = .whole := by
    rw [known]
    split
    · exact .inl rfl
    · exact .inr rfl
  refine ⟨part, by rcases kind with rfl | rfl <;> rfl, kind, ?_⟩
  rw [Number.ofChars_integer, written]
  by_cases negative : value < 0
  · -- After a minus sign the first digit is the second byte.
    have minus : (State.mk place opened).step 0x2D =
        some (⟨.number .sign, opened⟩, [.numberByte 0x2D]) := step_begins awaits rfl (by decide)
    have belongs : (first :: rest).foldlM NumberPart.next? .sign = some part := by
      rw [List.foldlM_cons, begins]
      exact goesOn
    rw [if_pos negative, List.singleton_append, read, minus, List.reverse_cons]
    exact read_number belongs
  · rw [if_neg negative, List.nil_append, read, step_digit awaits begins, List.reverse_cons]
    exact read_number goesOn

/-- A number ends with a comma or a bracket, which counts as if the value were already there. -/
theorem read_numberEnd {part : NumberPart} (ends : part.canEnd = true) {byte : UInt8}
    (next : part.next? byte = none) {builder : Builder} {number : Number}
    (known : Number.ofText? builder.token.reverse = some number) (more : Bytes) :
    (State.mk (.number part) opened).read Builder.take builder (byte :: more) =
      (State.mk .after opened).read Builder.take (builder.deliver (.number number))
        (byte :: more) := by
  have moved : (State.mk (.number part) opened).step byte =
      (stepAfter opened byte).map fun reached => (reached.1, .numberEnd :: reached.2) := by
    simp only [step, next, ends, if_true]
  have after : (State.mk .after opened).step byte = stepAfter opened byte := rfl
  have taken : builder.take .numberEnd = some (builder.deliver (.number number)) := by
    simp only [Builder.take, known, Option.map_some]
  rw [read, read, moved, after]
  cases stepAfter opened byte with
  | none => rfl
  | some reached =>
    obtain ⟨state, marks⟩ := reached
    simp only [Option.map_some, List.foldlM_cons, taken]
    rfl

def opens : Bracket → Context
  | .list => .list []
  | .object => .object [] ""

theorem read_opened (shallow : contexts.length < Builder.maxDepth) {byte : UInt8} {next : State}
    {bracket : Bracket}
    (moved : (State.mk place opened).step byte = some (next, [.opened bracket])) (bytes : Bytes) :
    (State.mk place opened).read Builder.take ⟨[], none, contexts, done⟩ (byte :: bytes) =
      next.read Builder.take ⟨[], none, opens bracket :: contexts, done⟩ bytes := by
  rw [read, moved]
  simp only [List.foldlM_cons, Builder.take, shallow, if_true]
  cases bracket <;> rfl

end

end State

/-! ## Values -/

namespace Value

/-- Something follows that ends a number: a comma or a closing bracket. -/
def Delimited (rest : Bytes) : Prop :=
  ∃ byte more, rest = byte :: more ∧ (byte = 0x2C ∨ byte = 0x5D ∨ byte = 0x7D)

/-- The value is read from its compact text, whatever follows; a number only if it ends there. The
text of an item stands before the rest of its list, so this is what an induction over values has to
carry. -/
def Reads (value : Value) : Prop :=
  ∀ {place : Place} {opened : List Bracket} {contexts : List Context} {done : Option Value}
    {rest : Bytes}, place = .value ∨ place = .firstItem →
    contexts.length + value.depth ≤ Builder.maxDepth →
    ((∃ number, value = .number number) → Delimited rest) →
    (State.mk place opened).read Builder.take ⟨[], none, contexts, done⟩
        (Bytes.ofChars value.chars ++ rest) =
      (State.mk .after opened).read Builder.take
        ((Builder.mk [] none contexts done).deliver value) rest

theorem reads_null : Value.null.Reads := by
  intro place opened contexts done rest awaits _ _
  rw [chars]
  rcases awaits with rfl | rfl <;> rfl

theorem reads_bool (value : Bool) : (Value.bool value).Reads := by
  intro place opened contexts done rest awaits _ _
  cases value <;> (rw [chars]; rcases awaits with rfl | rfl <;> rfl)

theorem reads_string (text : String) : (Value.string text).Reads := by
  intro place opened contexts done rest awaits _ _
  rw [chars, State.read_append, State.read_quoted_value awaits, Option.bind_some]

theorem reads_integer {value : Int} (word : (Number.integer value).IsWord) :
    (Value.number (.integer value)).Reads := by
  intro place opened contexts done rest awaits _ follows
  obtain ⟨byte, more, rfl, delimiter⟩ := follows ⟨_, rfl⟩
  obtain ⟨part, ends, kind, read⟩ := State.read_integer awaits value
  have next : part.next? byte = none := by
    rcases kind with rfl | rfl <;> rcases delimiter with rfl | rfl | rfl <;> rfl
  rw [chars, State.read_append, read, Option.bind_some, State.read_numberEnd ends next
    (by rw [List.reverse_reverse, Number.ofText?_ofChars word]), Builder.deliver_token]

section

variable {opened : List Bracket} {contexts : List Context} {done : Option Value} {rest : Bytes}

section

variable {α : Type} (write : α → List Char) {closing : Char}

theorem delimited_partsTail (bracket : closing = ']' ∨ closing = '\x7d') (list : List α)
    (rest : Bytes) : Delimited (Bytes.ofChars (partsTail write closing list) ++ rest) := by
  cases list with
  | nil =>
    rcases bracket with rfl | rfl
    · exact ⟨0x5D, rest, rfl, .inr (.inl rfl)⟩
    · exact ⟨0x7D, rest, rfl, .inr (.inr rfl)⟩
  | cons part later => exact ⟨0x2C, _, rfl, .inl rfl⟩

theorem ofChars_partsTail_cons (part : α) (later : List α) (rest : Bytes) :
    Bytes.ofChars (partsTail write closing (part :: later)) ++ rest =
      0x2C :: (Bytes.ofChars (write part) ++
        (Bytes.ofChars (partsTail write closing later) ++ rest)) := by
  rw [partsTail, Bytes.ofChars_cons, Bytes.ofChars_append, List.append_assoc, List.append_assoc]
  rfl

theorem ofChars_parts_cons (part : α) (later : List α) (rest : Bytes) :
    Bytes.ofChars (parts write closing (part :: later)) ++ rest =
      Bytes.ofChars (write part) ++ (Bytes.ofChars (partsTail write closing later) ++ rest) := by
  rw [parts, Bytes.ofChars_append, List.append_assoc]

end

theorem read_item {place : Place} (awaits : place = .value ∨ place = .firstItem) {item : Value}
    (reads : item.Reads) (before : List Value) (follows : Delimited rest)
    (fits : contexts.length + 1 + item.depth ≤ Builder.maxDepth) :
    (State.mk place (.list :: opened)).read Builder.take
        ⟨[], none, .list before :: contexts, done⟩ (Bytes.ofChars item.chars ++ rest) =
      (State.mk .after (.list :: opened)).read Builder.take
        ⟨[], none, .list (item :: before) :: contexts, done⟩ rest :=
  reads awaits fits fun _ => follows

theorem read_items {items : List Value} (each : ∀ item ∈ items, item.Reads)
    (fits : contexts.length + 1 + itemsDepth items ≤ Builder.maxDepth) (before : List Value) :
    (State.mk .after (.list :: opened)).read Builder.take
        ⟨[], none, .list before :: contexts, done⟩
        (Bytes.ofChars (partsTail chars ']' items) ++ rest) =
      (State.mk .after opened).read Builder.take
        ((Builder.mk [] none contexts done).deliver (.list (before.reverse ++ items))) rest := by
  induction items generalizing before with
  | nil =>
    rw [List.append_nil]
    rfl
  | cons item later ih =>
    obtain ⟨first, goesOn⟩ := List.forall_mem_cons.1 each
    rw [itemsDepth] at fits
    have comma : ∀ bytes, (State.mk .after (.list :: opened)).read Builder.take
          ⟨[], none, .list before :: contexts, done⟩ (0x2C :: bytes) =
        (State.mk .value (.list :: opened)).read Builder.take
          ⟨[], none, .list before :: contexts, done⟩ bytes := fun _ => rfl
    rw [ofChars_partsTail_cons, comma,
      read_item (.inl rfl) first before (delimited_partsTail chars (.inl rfl) ..) (by omega),
      ih goesOn (by omega), List.reverse_cons, List.append_assoc, List.singleton_append]

theorem read_member {place : Place} (awaits : place = .key ∨ place = .firstKey)
    {member : String × Value} (reads : member.2.Reads) (before : List (String × Value))
    (last : String) (follows : Delimited rest)
    (fits : contexts.length + 1 + member.2.depth ≤ Builder.maxDepth) :
    (State.mk place (.object :: opened)).read Builder.take
        ⟨[], none, .object before last :: contexts, done⟩
        (Bytes.ofChars (memberChars member) ++ rest) =
      (State.mk .after (.object :: opened)).read Builder.take
        ⟨[], none, .object (insert member.1 member.2 before) "" :: contexts, done⟩ rest := by
  have bytes : Bytes.ofChars (memberChars member) ++ rest =
      Bytes.ofChars (quoted member.1) ++ 0x3A :: (Bytes.ofChars member.2.chars ++ rest) := by
    rw [memberChars, Bytes.ofChars_append, Bytes.ofChars_cons, List.append_assoc]
    rfl
  have colon : ∀ bytes, (State.mk .colon (.object :: opened)).read Builder.take
        ⟨[], none, .object before member.1 :: contexts, done⟩ (0x3A :: bytes) =
      (State.mk .value (.object :: opened)).read Builder.take
        ⟨[], none, .object before member.1 :: contexts, done⟩ bytes := fun _ => rfl
  rw [bytes, State.read_append, State.read_quoted_key awaits, Option.bind_some, colon]
  exact reads (.inl rfl) fits fun _ => follows

theorem read_members {members : List (String × Value)}
    (each : ∀ member ∈ members, member.2.Reads)
    (fits : contexts.length + 1 + membersDepth members ≤ Builder.maxDepth)
    {before : List (String × Value)} (ascending : Ascending (before ++ members)) (last : String) :
    (State.mk .after (.object :: opened)).read Builder.take
        ⟨[], none, .object before last :: contexts, done⟩
        (Bytes.ofChars (partsTail memberChars '\x7d' members) ++ rest) =
      (State.mk .after opened).read Builder.take
        ((Builder.mk [] none contexts done).deliver (.object (before ++ members))) rest := by
  induction members generalizing before last with
  | nil =>
    rw [List.append_nil]
    rfl
  | cons member later ih =>
    obtain ⟨first, goesOn⟩ := List.forall_mem_cons.1 each
    rw [membersDepth] at fits
    have greatest : ∀ earlier ∈ before, earlier.1 < member.1 := fun earlier present =>
      (List.pairwise_append.1 ascending).2.2 earlier present member List.mem_cons_self
    have comma : ∀ bytes, (State.mk .after (.object :: opened)).read Builder.take
          ⟨[], none, .object before last :: contexts, done⟩ (0x2C :: bytes) =
        (State.mk .key (.object :: opened)).read Builder.take
          ⟨[], none, .object before last :: contexts, done⟩ bytes := fun _ => rfl
    rw [ofChars_partsTail_cons, comma,
      read_member (.inl rfl) first before last (delimited_partsTail memberChars (.inr rfl) ..)
        (by omega),
      insert_of_last greatest, ih goesOn (by omega) (by rwa [List.append_assoc]),
      List.append_assoc, List.singleton_append]

theorem reads_list {items : List Value} (each : ∀ item ∈ items, item.Reads) :
    (Value.list items).Reads := by
  intro place opened contexts done rest awaits fits _
  rw [depth] at fits
  have opens : contexts.length < Builder.maxDepth := by omega
  have bytes : Bytes.ofChars (Value.list items).chars ++ rest =
      0x5B :: (Bytes.ofChars (parts chars ']' items) ++ rest) := by
    rw [chars, itemsChars_eq]
    rfl
  rw [bytes, State.read_opened opens (State.step_begins awaits rfl (by decide)), State.opens]
  cases items with
  | nil => rfl
  | cons item later =>
    obtain ⟨first, goesOn⟩ := List.forall_mem_cons.1 each
    rw [itemsDepth] at fits
    rw [ofChars_parts_cons,
      read_item (.inr rfl) first [] (delimited_partsTail chars (.inl rfl) ..) (by omega),
      read_items goesOn (by omega)]
    rfl

theorem reads_object {members : List (String × Value)} (ascending : Ascending members)
    (each : ∀ member ∈ members, member.2.Reads) : (Value.object members).Reads := by
  intro place opened contexts done rest awaits fits _
  rw [depth] at fits
  have opens : contexts.length < Builder.maxDepth := by omega
  have bytes : Bytes.ofChars (Value.object members).chars ++ rest =
      0x7B :: (Bytes.ofChars (parts memberChars '\x7d' members) ++ rest) := by
    rw [chars, membersChars_eq]
    rfl
  rw [bytes, State.read_opened opens (State.step_begins awaits rfl (by decide)), State.opens]
  cases members with
  | nil => rfl
  | cons member later =>
    obtain ⟨first, goesOn⟩ := List.forall_mem_cons.1 each
    rw [membersDepth] at fits
    rw [ofChars_parts_cons,
      read_member (.inr rfl) first [] "" (delimited_partsTail memberChars (.inr rfl) ..) (by omega),
      insert, read_members goesOn (by omega) ascending]
    rfl

end

/-- Values of which each is kept in order, with integers of 64 bits, are read from their text. -/
theorem Ordered.reads {value : Value} (ordered : value.Ordered)
    (words : value.EveryNumber Number.IsWord) : value.Reads := by
  induction ordered with
  | null => exact reads_null
  | bool value => exact reads_bool value
  | number number =>
    cases words with | number word =>
    cases number with
    | integer value => exact reads_integer word
    | double value => cases word
  | string text => exact reads_string text
  | list each ih =>
    cases words with | list words =>
    exact reads_list fun item present => ih item present (words item present)
  | object ascending each ih =>
    cases words with | object words =>
    exact reads_object ascending fun member present => ih member present (words member present)

/-- Compact text reads back: a value whose objects are in order, whose numbers are integers of 64
bits, and which is no deeper than a reader goes, is what its text decodes to. The text is one line,
since no byte of it is below the space. Doubles are left out, as a reader need not hit the nearest
one. -/
theorem decode_text {value : Value} (ordered : value.Ordered)
    (words : value.EveryNumber Number.IsWord) (shallow : value.depth ≤ 127) :
    decode (Bytes.ofText value.text) = .complete value ∧
      ∀ byte ∈ Bytes.ofText value.text, 0x20 ≤ byte := by
  refine ⟨?_, value.printed_bytes⟩
  rw [text, Bytes.ofText_ofList, decode_eq_complete_iff]
  by_cases number : ∃ number, value = .number number
  · -- At the outermost level a number ends with the text.
    obtain ⟨number, rfl⟩ := number
    cases words with | number word =>
    cases number with
    | double value => cases word
    | integer value =>
      obtain ⟨part, ends, -, read⟩ := State.read_integer (.inl rfl) value
      have marks : (State.mk (.number part) []).endMarks = [.numberEnd] := if_pos ends
      have whole : (State.mk (.number part) []).ending = .whole := if_pos ends
      refine ⟨_, _, ⟨[], none, [], some (.number (.integer value))⟩, read, ?_, whole, rfl⟩
      rw [marks, List.foldlM_cons, Builder.take, List.reverse_reverse,
        Number.ofText?_ofChars word]
      rfl
  · have read : State.start.read Builder.take .empty (Bytes.ofChars value.chars ++ []) =
        (State.mk .after []).read Builder.take (Builder.empty.deliver value) [] :=
      ordered.reads words (.inl rfl) (Nat.le_trans (Nat.zero_add _).le shallow)
        fun found => absurd found number
    rw [List.append_nil] at read
    exact ⟨⟨.after, []⟩, _, _, read, rfl, rfl, rfl⟩

/-- Words of both signs, and a line feed in a key. -/
theorem decode_text_of_extremes :
    decode (Bytes.ofText (Value.object
        [("a\nb", .list [.number (.integer (-0x8000000000000000))]),
          ("é", .number (.integer 0xFFFFFFFFFFFFFFFF))]).text) =
      .complete (.object
        [("a\nb", .list [.number (.integer (-0x8000000000000000))]),
          ("é", .number (.integer 0xFFFFFFFFFFFFFFFF))]) := by
  refine (decode_text (.object ?_ ?_) (.object ?_) (by decide)).1
  · exact List.pairwise_pair.2 (by decide)
  · exact List.forall_mem_cons.2 ⟨.list (List.forall_mem_singleton.2 (.number _)),
      List.forall_mem_singleton.2 (.number _)⟩
  · exact List.forall_mem_cons.2 ⟨.list (List.forall_mem_singleton.2 (.number (by decide))),
      List.forall_mem_singleton.2 (.number (by decide))⟩

end Value

end Unbraid.Json
