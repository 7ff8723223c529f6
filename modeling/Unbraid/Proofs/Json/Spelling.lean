import Unbraid.Proofs.Json.Strings
import Unbraid.Proofs.Json.Writing

/-!
# One text, one value

The compact text of a value without doubles can be told from all others even with more text behind
it: if two such values are written and go on to the same characters, they are equal, and so is what
follows them (`Value.Integral.splits`). So they have the same text only if they are equal
(`Value.Integral.eq_of_text`). The last character of a number is the only one that does not show by
itself that the value ends there: no digit may follow it.
-/

namespace Unbraid.Json

/-! ## Strings -/

def escaped (letter : Char) : Char :=
  if letter = 'b' then '\x08'
  else if letter = 'f' then '\x0c'
  else if letter = 'n' then '\n'
  else if letter = 'r' then '\r'
  else if letter = 't' then '\t'
  else letter

theorem escaped_of_letter {char letter : Char} (found : escapeLetter? char = some letter) :
    escaped letter = char ∧ letter ≠ 'u' := by
  unfold escapeLetter? at found
  repeat' split at found
  all_goals cases found
  · next same => rcases same with rfl | rfl <;> decide
  all_goals subst char
  all_goals decide

theorem escapeChar_cases (char : Char) :
    (∃ letter, escapeChar char = ['\\', letter] ∧ escaped letter = char ∧ letter ≠ 'u') ∨
      (char.toNat < 0x20 ∧ escapeChar char = ['\\', 'u', '0', '0',
        Bytes.hexDigit (char.toNat / 16), Bytes.hexDigit (char.toNat % 16)]) ∨
      (escapeChar char = [char] ∧ char ≠ '\\' ∧ char ≠ '"') := by
  cases found : escapeLetter? char with
  | some letter => exact .inl ⟨letter, by rw [escapeChar, found], escaped_of_letter found⟩
  | none =>
    by_cases control : char.toNat < 0x20
    · refine .inr (.inl ⟨control, ?_⟩)
      rw [escapeChar, found]
      exact if_pos control
    · refine .inr (.inr ⟨?_, ?_, ?_⟩)
      · rw [escapeChar, found]
        exact if_neg control
      · rintro rfl
        cases found
      · rintro rfl
        cases found

theorem hexDigit_inj {n m : Nat} (small : n < 16) (least : m < 16)
    (equal : Bytes.hexDigit n = Bytes.hexDigit m) : n = m := by
  have all : ∀ n < 16, ∀ m < 16, Bytes.hexDigit n = Bytes.hexDigit m → n = m := by decide
  exact all n small m least equal

theorem escapeChar_ne_quote (char : Char) (rest more : List Char) :
    escapeChar char ++ rest ≠ '"' :: more := by
  intro equal
  rcases escapeChar_cases char with ⟨letter, written, -⟩ | ⟨-, written⟩ | ⟨written, -, other⟩
  · rw [written] at equal
    cases equal
  · rw [written] at equal
    cases equal
  · rw [written] at equal
    exact other (List.cons.inj equal).1

theorem escapeChar_splits {char other : Char} {rest more : List Char}
    (equal : escapeChar char ++ rest = escapeChar other ++ more) : char = other ∧ rest = more := by
  rcases escapeChar_cases char with ⟨letter, written, means, short⟩ | ⟨control, written⟩ |
    ⟨written, plain, -⟩ <;>
  rcases escapeChar_cases other with ⟨letter', written', means', short'⟩ | ⟨control', written'⟩ |
    ⟨written', plain', -⟩ <;>
  rw [written, written'] at equal <;>
  simp only [List.cons_append, List.nil_append, List.cons.injEq, true_and] at equal
  · obtain ⟨rfl, rfl⟩ := equal
    exact ⟨means.symm.trans means', rfl⟩
  · exact absurd equal.1 short
  · exact absurd equal.1.symm plain'
  · exact absurd equal.1.symm short'
  · obtain ⟨high, low, rfl⟩ := equal
    have high := hexDigit_inj (by omega) (by omega) high
    have low := hexDigit_inj (by omega) (by omega) low
    exact ⟨Char.toNat_inj.1 (by omega), rfl⟩
  · exact absurd equal.1.symm plain'
  · exact absurd equal.1 plain
  · exact absurd equal.1 plain
  · exact equal

theorem escapes_split {chars others rest more : List Char}
    (equal : chars.flatMap escapeChar ++ '"' :: rest = others.flatMap escapeChar ++ '"' :: more) :
    chars = others ∧ rest = more := by
  induction chars generalizing others with
  | nil =>
    cases others with
    | nil => exact ⟨rfl, (List.cons.inj equal).2⟩
    | cons other later =>
      rw [List.flatMap_cons, List.append_assoc] at equal
      exact absurd equal.symm (escapeChar_ne_quote _ _ _)
  | cons char next ih =>
    cases others with
    | nil =>
      rw [List.flatMap_cons, List.append_assoc] at equal
      exact absurd equal (escapeChar_ne_quote _ _ _)
    | cons other later =>
      rw [List.flatMap_cons, List.flatMap_cons, List.append_assoc, List.append_assoc] at equal
      obtain ⟨rfl, behind⟩ := escapeChar_splits equal
      obtain ⟨rfl, rfl⟩ := ih behind
      exact ⟨rfl, rfl⟩

theorem quoted_splits {text other : String} {rest more : List Char}
    (equal : quoted text ++ rest = quoted other ++ more) : text = other ∧ rest = more := by
  simp only [quoted, List.cons_append, List.append_assoc, List.nil_append, List.cons.injEq,
    true_and] at equal
  obtain ⟨same, rfl⟩ := escapes_split equal
  exact ⟨String.toList_inj.1 same, rfl⟩

/-! ## Integers -/

def NoDigit (rest : List Char) : Prop := ∀ char, rest.head? = some char → char.isDigit = false

theorem noDigit_nil : NoDigit [] := fun _ none => by cases none

theorem noDigit_cons {char : Char} (other : char.isDigit = false) (rest : List Char) :
    NoDigit (char :: rest) := fun _ first => Option.some.inj first ▸ other

theorem isDigit_of_mem_digits {n : Nat} {char : Char} (present : char ∈ digits n) :
    char.isDigit = true := Nat.isDigit_of_mem_toDigits (by decide) (by decide) present

theorem takeWhile_digits (n : Nat) {rest : List Char} (ends : NoDigit rest) :
    (digits n ++ rest).takeWhile Char.isDigit = digits n := by
  rw [List.takeWhile_append_of_pos fun _ => isDigit_of_mem_digits]
  cases rest with
  | nil => exact List.append_nil _
  | cons char more =>
    rw [List.takeWhile_cons_of_neg (by rw [ends char rfl]; decide), List.append_nil]

theorem digits_split_off {n m : Nat} {rest more : List Char} (ends : NoDigit rest)
    (stops : NoDigit more) (equal : digits n ++ rest = digits m ++ more) : n = m ∧ rest = more := by
  have same : digits n = digits m := by
    rw [← takeWhile_digits n ends, equal, takeWhile_digits m stops]
  have number : n = m := by
    rw [← Nat.ofDigitChars_ten_toDigits (n := n), ← Nat.ofDigitChars_ten_toDigits (n := m)]
    exact congrArg (Nat.ofDigitChars 10 · 0) same
  rw [same] at equal
  exact ⟨number, List.append_cancel_left equal⟩

theorem digits_ne_minus (n : Nat) (rest more : List Char) : digits n ++ rest ≠ '-' :: more := by
  intro equal
  cases written : digits n with
  | nil => exact Nat.toDigits_ne_nil written
  | cons first later =>
    rw [written] at equal
    have digit := isDigit_of_mem_digits (n := n) (written ▸ List.mem_cons_self : first ∈ digits n)
    rw [(List.cons.inj equal).1] at digit
    cases digit

theorem integer_splits {value other : Int} {rest more : List Char} (ends : NoDigit rest)
    (stops : NoDigit more)
    (equal : (Number.integer value).chars ++ rest = (Number.integer other).chars ++ more) :
    value = other ∧ rest = more := by
  simp only [Number.chars] at equal
  by_cases negative : value < 0 <;> by_cases below : other < 0 <;>
  simp only [negative, below, if_true, if_false, List.cons_append, List.nil_append] at equal
  · obtain ⟨same, rfl⟩ := digits_split_off ends stops (List.cons.inj equal).2
    exact ⟨by omega, rfl⟩
  · exact absurd equal.symm (digits_ne_minus _ _ _)
  · exact absurd equal (digits_ne_minus _ _ _)
  · obtain ⟨same, rfl⟩ := digits_split_off ends stops equal
    exact ⟨by omega, rfl⟩

/-! ## Parts between brackets -/

section

variable {α : Type}

/-- What follows a part of a list or an object: the other parts, each behind a comma, and the
closing bracket. -/
def partsTail (write : α → List Char) (closing : Char) : List α → List Char
  | [] => [closing]
  | part :: rest => ',' :: (write part ++ partsTail write closing rest)

/-- A list or an object after its opening bracket. -/
def parts (write : α → List Char) (closing : Char) : List α → List Char
  | [] => [closing]
  | part :: rest => write part ++ partsTail write closing rest

/-- A part can be told from all others of a kind, whatever follows but a digit: if two parts are
written and go on to the same characters, they are the same part, and so is what follows. -/
def Splits (write : α → List Char) (known : α → Prop) (part : α) : Prop :=
  ∀ {other : α} {rest more : List Char}, known other → NoDigit rest → NoDigit more →
    write part ++ rest = write other ++ more → part = other ∧ rest = more

variable {write : α → List Char} {known : α → Prop} {closing : Char} {list others : List α}
  {rest more : List Char}

theorem noDigit_partsTail (plain : closing.isDigit = false) (list : List α) (rest : List Char) :
    NoDigit (partsTail write closing list ++ rest) := by
  cases list with
  | nil => exact noDigit_cons plain _
  | cons part later => exact noDigit_cons rfl _

/-- If its parts can be told from others, so can all of them, up to the closing bracket. -/
theorem partsTail_splits (plain : closing.isDigit = false) (bracket : closing ≠ ',')
    (each : ∀ part ∈ list, Splits write known part) (all : ∀ other ∈ others, known other)
    (equal : partsTail write closing list ++ rest = partsTail write closing others ++ more) :
    list = others ∧ rest = more := by
  induction list generalizing others with
  | nil =>
    cases others with
    | nil => exact ⟨rfl, (List.cons.inj equal).2⟩
    | cons other later => exact absurd (List.cons.inj equal).1 bracket
  | cons part next ih =>
    cases others with
    | nil => exact absurd (List.cons.inj equal).1.symm bracket
    | cons other later =>
      obtain ⟨first, goesOn⟩ := List.forall_mem_cons.1 each
      obtain ⟨begins, whole⟩ := List.forall_mem_cons.1 all
      simp only [partsTail, List.cons_append, List.append_assoc, List.cons.injEq,
        true_and] at equal
      obtain ⟨rfl, behind⟩ :=
        first begins (noDigit_partsTail plain _ _) (noDigit_partsTail plain _ _) equal
      obtain ⟨rfl, rfl⟩ := ih goesOn whole behind
      exact ⟨rfl, rfl⟩

/-- No part may begin like the bracket that stands in the place of the first one. -/
theorem parts_split (plain : closing.isDigit = false) (bracket : closing ≠ ',')
    (begins : ∀ part, known part → ∀ rest more, write part ++ rest ≠ closing :: more)
    (each : ∀ part ∈ list, Splits write known part) (listed : ∀ part ∈ list, known part)
    (all : ∀ other ∈ others, known other)
    (equal : parts write closing list ++ rest = parts write closing others ++ more) :
    list = others ∧ rest = more := by
  cases list with
  | nil =>
    cases others with
    | nil => exact ⟨rfl, (List.cons.inj equal).2⟩
    | cons other later =>
      rw [parts, parts, List.append_assoc] at equal
      exact absurd equal.symm (begins other (all other List.mem_cons_self) _ _)
  | cons part next =>
    cases others with
    | nil =>
      rw [parts, parts, List.append_assoc] at equal
      exact absurd equal (begins part (listed part List.mem_cons_self) _ _)
    | cons other later =>
      refine partsTail_splits plain bracket each all ?_
      rw [partsTail, partsTail, List.cons_append, List.cons_append]
      exact congrArg (List.cons ',') equal

end

theorem itemsChars_eq (items : List Value) : itemsChars items = parts Value.chars ']' items := by
  cases items with
  | nil => rw [itemsChars, parts]
  | cons item rest =>
    induction rest generalizing item with
    | nil => rw [itemsChars, parts, partsTail]
    | cons next later ih =>
      rw [itemsChars, ih, parts, parts, partsTail]
      exact List.cons_ne_nil next later

def memberChars (member : String × Value) : List Char := quoted member.1 ++ ':' :: member.2.chars

theorem membersChars_eq (members : List (String × Value)) :
    membersChars members = parts memberChars '\x7d' members := by
  cases members with
  | nil => rw [membersChars, parts]
  | cons member rest =>
    induction rest generalizing member with
    | nil =>
      rw [membersChars, parts, partsTail]
      rfl
    | cons next later ih =>
      rw [membersChars, ih, parts, parts, partsTail]
      · rfl
      · exact List.cons_ne_nil next later

/-! ## Values -/

def Number.IsInteger : Number → Prop
  | integer _ => True
  | double _ => False

/-- The kinds of values, as their first characters show them. -/
inductive Kind where
  | null
  | bool
  | number
  | string
  | list
  | object

def Kind.ofFirst? (char : Char) : Option Kind :=
  if char = 'n' then some null
  else if char = 't' ∨ char = 'f' then some bool
  else if char = '-' ∨ char.isDigit then some number
  else if char = '"' then some string
  else if char = '[' then some list
  else if char = '\x7b' then some object
  else none

theorem Kind.ofFirst?_number {char : Char} (first : char = '-' ∨ char.isDigit = true) :
    ofFirst? char = some number := by
  have letters : char ≠ 'n' ∧ ¬ (char = 't' ∨ char = 'f') := by
    refine ⟨?_, ?_⟩
    · rintro rfl
      rcases first with first | first <;> revert first <;> decide
    · rintro (rfl | rfl) <;> rcases first with first | first <;> revert first <;> decide
  rw [ofFirst?, if_neg letters.1, if_neg letters.2, if_pos first]

namespace Value

/-- Every number in a value has a property. -/
inductive EveryNumber (holds : Number → Prop) : Value → Prop where
  | null : EveryNumber holds .null
  | bool (value : Bool) : EveryNumber holds (.bool value)
  | number {number : Number} (known : holds number) : EveryNumber holds (.number number)
  | string (text : String) : EveryNumber holds (.string text)
  | list {items : List Value} (each : ∀ item ∈ items, EveryNumber holds item) :
      EveryNumber holds (.list items)
  | object {members : List (String × Value)}
      (each : ∀ member ∈ members, EveryNumber holds member.2) : EveryNumber holds (.object members)

abbrev Integral (value : Value) : Prop := value.EveryNumber Number.IsInteger

def kind : Value → Kind
  | null => .null
  | bool _ => .bool
  | number _ => .number
  | string _ => .string
  | list _ => .list
  | object _ => .object

theorem Integral.exists_first {value : Value} (integral : value.Integral) :
    ∃ first later, value.chars = first :: later ∧ Kind.ofFirst? first = some value.kind := by
  cases integral with
  | null => exact ⟨_, _, by rw [chars], rfl⟩
  | bool value => cases value <;> exact ⟨_, _, by rw [chars], rfl⟩
  | @number number known =>
    cases number with
    | double value => cases known
    | integer value =>
      rw [chars, Number.chars]
      split
      · exact ⟨_, _, rfl, rfl⟩
      · cases written : digits value.natAbs with
        | nil => exact absurd written Nat.toDigits_ne_nil
        | cons first later =>
          have digit := isDigit_of_mem_digits (written ▸ List.mem_cons_self : first ∈ digits _)
          exact ⟨first, later, rfl, Kind.ofFirst?_number (.inr digit)⟩
  | string text => exact ⟨_, _, by rw [chars, quoted, List.cons_append], rfl⟩
  | list each => exact ⟨_, _, by rw [chars], rfl⟩
  | object each => exact ⟨_, _, by rw [chars], rfl⟩

theorem Integral.ne_of_first {value : Value} (integral : value.Integral) {char : Char}
    (none : Kind.ofFirst? char = none) (rest more : List Char) :
    value.chars ++ rest ≠ char :: more := by
  obtain ⟨first, later, written, kind⟩ := integral.exists_first
  intro equal
  rw [written] at equal
  rw [(List.cons.inj equal).1, none] at kind
  cases kind

theorem Integral.kind_eq {value other : Value} (integral : value.Integral) (whole : other.Integral)
    {rest more : List Char} (equal : value.chars ++ rest = other.chars ++ more) :
    value.kind = other.kind := by
  obtain ⟨first, later, written, kind⟩ := integral.exists_first
  obtain ⟨begins, goesOn, spelt, known⟩ := whole.exists_first
  rw [written, spelt] at equal
  rw [(List.cons.inj equal).1, known] at kind
  exact (Option.some.inj kind).symm

theorem splits_member {member : String × Value}
    (splits : Splits Value.chars Integral member.2) :
    Splits memberChars (fun other => other.2.Integral) member := by
  intro other rest more integral ends stops equal
  obtain ⟨key, value⟩ := member
  obtain ⟨name, held⟩ := other
  simp only [memberChars, List.append_assoc, List.cons_append] at equal
  obtain ⟨rfl, colon⟩ := quoted_splits equal
  obtain ⟨rfl, rfl⟩ := splits integral ends stops (List.cons.inj colon).2
  exact ⟨rfl, rfl⟩

theorem Integral.splits {value : Value} (integral : value.Integral) :
    Splits Value.chars Integral value := by
  induction integral with
  | null =>
    intro other rest more whole ends stops equal
    have same := Integral.kind_eq .null whole equal
    cases other with
    | null => exact ⟨rfl, List.append_cancel_left equal⟩
    | _ => cases same
  | bool value =>
    intro other rest more whole ends stops equal
    have same := Integral.kind_eq (.bool value) whole equal
    cases other with
    | bool held =>
      cases value <;> cases held <;>
      simp only [chars, List.cons_append, List.nil_append, List.cons.injEq, true_and] at equal
      · exact ⟨rfl, equal⟩
      · exact absurd equal.1 (by decide)
      · exact absurd equal.1 (by decide)
      · exact ⟨rfl, equal⟩
    | _ => cases same
  | @number number known =>
    intro other rest more whole ends stops equal
    have same := Integral.kind_eq (.number known) whole equal
    cases other with
    | number held =>
      cases whole with | number fits =>
      cases number with
      | double value => cases known
      | integer value =>
        cases held with
        | double other => cases fits
        | integer other =>
          rw [chars, chars] at equal
          obtain ⟨rfl, rfl⟩ := integer_splits ends stops equal
          exact ⟨rfl, rfl⟩
    | _ => cases same
  | string text =>
    intro other rest more whole ends stops equal
    have same := Integral.kind_eq (.string text) whole equal
    cases other with
    | string held =>
      rw [chars, chars] at equal
      obtain ⟨rfl, rfl⟩ := quoted_splits equal
      exact ⟨rfl, rfl⟩
    | _ => cases same
  | list each ih =>
    intro other rest more whole ends stops equal
    have same := Integral.kind_eq (.list each) whole equal
    cases other with
    | list others =>
      cases whole with | list integral =>
      rw [chars, chars, itemsChars_eq, itemsChars_eq] at equal
      obtain ⟨rfl, rfl⟩ := parts_split rfl (by decide)
        (fun _ integral => integral.ne_of_first (by decide)) ih each integral
        (List.cons.inj equal).2
      exact ⟨rfl, rfl⟩
    | _ => cases same
  | object each ih =>
    intro other rest more whole ends stops equal
    have same := Integral.kind_eq (.object each) whole equal
    cases other with
    | object others =>
      cases whole with | object integral =>
      rw [chars, chars, membersChars_eq, membersChars_eq] at equal
      obtain ⟨rfl, rfl⟩ := parts_split rfl (by decide) (fun _ _ _ _ equal => by cases equal)
        (fun member present => splits_member (ih member present)) each integral
        (List.cons.inj equal).2
      exact ⟨rfl, rfl⟩
    | _ => cases same

/-- Values without doubles have the same text only if they are equal. -/
theorem Integral.eq_of_text {value other : Value} (integral : value.Integral)
    (whole : other.Integral) (same : value.text = other.text) : value = other := by
  have equal : value.chars ++ [] = other.chars ++ [] := by
    rw [List.append_nil, List.append_nil]
    exact String.ofList_inj.1 same
  exact (integral.splits whole noDigit_nil noDigit_nil equal).1

/-- No byte of a compact text is below the space. -/
theorem printed_bytes (value : Value) : ∀ byte ∈ Bytes.ofText value.text, 0x20 ≤ byte := by
  intro byte present
  rw [text, Bytes.ofText_ofList, Bytes.ofChars] at present
  obtain ⟨char, written, within⟩ := List.mem_flatMap.1 present
  have printed := value.printed_chars char written
  rw [UInt8.le_iff_toNat_le]
  rcases Bytes.utf8EncodeChar_cases char with ⟨ascii, single⟩ | above
  · rw [single, List.mem_singleton] at within
    rw [within, UInt8.toNat_ofNat', Nat.mod_eq_of_lt (by omega)]
    exact printed
  · exact Nat.le_trans (by decide) (above byte within)

end Value

end Unbraid.Json
