import Mathlib.Data.List.Basic
import Unbraid.Json.Text

namespace Unbraid.Json

def Printed (chars : List Char) : Prop := ∀ char ∈ chars, 0x20 ≤ char.toNat

instance (chars : List Char) : Decidable (Printed chars) :=
  List.decidableBAll (fun char : Char => 0x20 ≤ char.toNat) chars

@[simp]
theorem printed_nil : Printed [] := fun _ none => by cases none

@[simp]
theorem printed_cons {char : Char} {chars : List Char} :
    Printed (char :: chars) ↔ 0x20 ≤ char.toNat ∧ Printed chars := List.forall_mem_cons

@[simp]
theorem printed_append {chars more : List Char} :
    Printed (chars ++ more) ↔ Printed chars ∧ Printed more := List.forall_mem_append

theorem Printed.of_sublist {chars part : List Char} (printed : Printed chars)
    (within : part.Sublist chars) : Printed part :=
  fun char present => printed char (within.subset present)

/-! ## Strings -/

theorem printed_escapeChar (char : Char) : Printed (escapeChar char) := by
  have letters : ∀ letter, escapeLetter? char = some letter → 0x20 ≤ letter.toNat := by
    intro letter found
    unfold escapeLetter? at found
    repeat' split at found
    all_goals cases found
    · next same => rcases same with rfl | rfl <;> decide
    all_goals decide
  have hexDigits : ∀ n < 16, 0x20 ≤ (Bytes.hexDigit n).toNat := by decide
  unfold escapeChar
  split
  · next letter found => exact printed_cons.2 ⟨by decide, printed_cons.2 ⟨letters _ found, by simp⟩⟩
  · split
    · next control =>
      have high := hexDigits (char.toNat / 16) (by omega)
      have low := hexDigits (char.toNat % 16) (by omega)
      simp only [printed_cons, high, low, printed_nil, and_true]
      decide
    · next plain => exact printed_cons.2 ⟨Nat.le_of_not_lt plain, printed_nil⟩

theorem printed_quoted (text : String) : Printed (quoted text) := by
  have escaped : Printed (text.toList.flatMap escapeChar) := by
    intro char present
    obtain ⟨source, -, within⟩ := List.mem_flatMap.1 present
    exact printed_escapeChar source char within
  rw [quoted, List.cons_append, printed_cons, printed_append]
  exact ⟨by decide, escaped, by decide⟩

/-! ## Numbers -/

theorem printed_digits (n : Nat) : Printed (digits n) := by
  intro char present
  have digit := Nat.isDigit_of_mem_toDigits (by decide) (by decide) present
  have least := (Bool.and_eq_true _ _ ▸ digit : _ ∧ _).1
  have least : '0'.val ≤ char.val := of_decide_eq_true least
  exact Nat.le_trans (by decide) least

theorem printed_decimalText (decimal : Decimal) : Printed (decimalText decimal) := by
  have written := printed_digits decimal.digits
  have zeros : ∀ count, Printed (List.replicate count '0') := by
    intro count char present
    rw [List.eq_of_mem_replicate present]
    decide
  unfold decimalText
  dsimp only
  split
  · exact printed_append.2 ⟨printed_append.2 ⟨written, zeros _⟩, by decide⟩
  · split
    · refine printed_append.2 ⟨written.of_sublist (List.take_sublist _ _), printed_cons.2 ⟨?_, ?_⟩⟩
      · decide
      · exact written.of_sublist (List.drop_sublist _ _)
    · split
      · rw [List.cons_append, List.cons_append, printed_cons, printed_cons, printed_append]
        exact ⟨by decide, by decide, zeros _, written⟩
      · rw [List.append_assoc, printed_append, printed_append, printed_cons, printed_cons]
        refine ⟨written.of_sublist (List.take_sublist _ _), ?_, by decide, ?_, printed_digits _⟩
        · split
          · exact printed_nil
          · exact printed_cons.2 ⟨by decide, written.of_sublist (List.drop_sublist _ _)⟩
        · split <;> decide

theorem printed_doubleText (x : Float) : Printed (doubleText x) := by
  have decimal := printed_decimalText
  unfold doubleText
  dsimp only
  refine printed_append.2 ⟨?_, ?_⟩
  · split <;> decide
  · split
    · decide
    · exact decimal _

theorem Number.printed_chars (number : Number) : Printed number.chars := by
  cases number with
  | integer value =>
    rw [Number.chars, printed_append]
    refine ⟨?_, printed_digits _⟩
    split <;> decide
  | double value => exact printed_doubleText value

/-! ## Values -/

mutual

/-- No value is written with a control character: compact text has no blanks but those of its
strings, and in a string the characters below the space are escaped. -/
theorem Value.printed_chars (value : Value) : Printed value.chars := by
  cases value with
  | null => rw [Value.chars]; decide
  | bool value => cases value <;> (rw [Value.chars]; decide)
  | number number =>
    rw [Value.chars]
    exact number.printed_chars
  | string text =>
    rw [Value.chars]
    exact printed_quoted text
  | list items =>
    rw [Value.chars, printed_cons]
    exact ⟨by decide, printed_itemsChars items⟩
  | object members =>
    rw [Value.chars, printed_cons]
    exact ⟨by decide, printed_membersChars members⟩

theorem printed_itemsChars (items : List Value) : Printed (itemsChars items) := by
  match items with
  | [] => rw [itemsChars]; decide
  | [item] =>
    rw [itemsChars, printed_append]
    exact ⟨item.printed_chars, by decide⟩
  | item :: next :: rest =>
    rw [itemsChars, printed_append, printed_cons]
    · exact ⟨item.printed_chars, by decide, printed_itemsChars (next :: rest)⟩
    · nofun

theorem printed_membersChars (members : List (String × Value)) :
    Printed (membersChars members) := by
  match members with
  | [] => rw [membersChars]; decide
  | [(key, value)] =>
    rw [membersChars, printed_append, printed_append, printed_cons]
    exact ⟨⟨printed_quoted key, by decide, value.printed_chars⟩, by decide⟩
  | (key, value) :: next :: rest =>
    rw [membersChars, printed_append, printed_append, printed_cons, printed_cons]
    · exact ⟨⟨printed_quoted key, by decide, value.printed_chars⟩, by decide,
        printed_membersChars (next :: rest)⟩
    · nofun

end

/-! ## Something is written -/

theorem decimalText_ne_nil (decimal : Decimal) : decimalText decimal ≠ [] := by
  unfold decimalText
  dsimp only
  repeat' split
  all_goals simp

theorem Number.chars_ne_nil (number : Number) : number.chars ≠ [] := by
  cases number with
  | integer value => exact List.append_ne_nil_of_right_ne_nil _ Nat.toDigits_ne_nil
  | double value =>
    refine List.append_ne_nil_of_right_ne_nil _ ?_
    split
    · exact List.cons_ne_nil _ _
    · exact decimalText_ne_nil _

theorem Value.text_ne_empty (value : Value) : value.text ≠ "" := by
  have written : value.chars ≠ [] := by
    cases value with
    | number number => rw [Value.chars]; exact number.chars_ne_nil
    | bool value => cases value <;> (rw [Value.chars]; exact List.cons_ne_nil _ _)
    | _ => rw [Value.chars]; exact List.cons_ne_nil _ _
  intro empty
  rw [Value.text, String.ofList_eq_empty_iff] at empty
  exact written empty

end Unbraid.Json
