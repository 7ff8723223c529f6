import Unbraid.Json.Text
import Unbraid.Proofs.Json.Astray

namespace Unbraid

namespace Bytes

/-- The bytes of some characters in UTF-8. -/
def ofChars (chars : List Char) : Bytes := chars.flatMap String.utf8EncodeChar

theorem ofText_ofList (chars : List Char) : ofText (String.ofList chars) = ofChars chars := by
  simp [ofText, ofChars, String.toByteArray_ofList, List.utf8Encode]

theorem ofText_eq (text : String) : ofText text = ofChars text.toList := by
  rw [← ofText_ofList, String.ofList_toList]

theorem ofChars_cons (char : Char) (chars : List Char) :
    ofChars (char :: chars) = String.utf8EncodeChar char ++ ofChars chars := List.flatMap_cons

theorem ofChars_append (chars more : List Char) :
    ofChars (chars ++ more) = ofChars chars ++ ofChars more := List.flatMap_append

/-- A character below 0x80 is one byte, and the bytes of any other are 0x80 or more. -/
theorem utf8EncodeChar_cases (char : Char) :
    char.toNat < 0x80 ∧ String.utf8EncodeChar char = [UInt8.ofNat char.toNat] ∨
      ∀ byte ∈ String.utf8EncodeChar char, 0x80 ≤ byte.toNat := by
  by_cases ascii : char.toNat < 0x80
  · exact .inl ⟨ascii, if_pos (Nat.le_of_lt_succ ascii)⟩
  · right
    have first : ¬ char.val.toNat ≤ 127 := fun small => ascii (Nat.lt_succ_of_le small)
    intro byte present
    simp only [String.utf8EncodeChar, if_neg first] at present
    split at present
    · simp only [List.mem_cons, List.not_mem_nil, or_false] at present
      rcases present with rfl | rfl <;> (rw [UInt8.toNat_ofNat']; omega)
    · split at present
      · simp only [List.mem_cons, List.not_mem_nil, or_false] at present
        rcases present with rfl | rfl | rfl <;> (rw [UInt8.toNat_ofNat']; omega)
      · simp only [List.mem_cons, List.not_mem_nil, or_false] at present
        rcases present with rfl | rfl | rfl | rfl <;> (rw [UInt8.toNat_ofNat']; omega)

end Bytes

namespace Json

/-- The bytes of a character that needs no escape are just text. -/
theorem isText_of_mem {char : Char} (unescaped : escapeLetter? char = none)
    (printed : 0x20 ≤ char.toNat) {byte : UInt8} (present : byte ∈ String.utf8EncodeChar char) :
    isText byte = true := by
  have text : ∀ byte : UInt8, 0x20 ≤ byte.toNat → byte.toNat ≠ 0x22 → byte.toNat ≠ 0x5C →
      isText byte = true := by
    intro byte least quote backslash
    simp only [isText, Bool.and_eq_true, decide_eq_true_eq]
    refine ⟨⟨fun same => quote (same ▸ rfl), fun same => backslash (same ▸ rfl)⟩, ?_⟩
    exact UInt8.le_iff_toNat_le.2 least
  rcases Bytes.utf8EncodeChar_cases char with ⟨ascii, single⟩ | above
  · have other : char ≠ '"' ∧ char ≠ '\\' := by
      constructor
      · rintro rfl
        cases unescaped
      · rintro rfl
        cases unescaped
    rw [single, List.mem_singleton] at present
    have value : byte.toNat = char.toNat := by
      rw [present, UInt8.toNat_ofNat']
      omega
    rw [← value] at printed
    refine text byte printed (fun quote => other.1 ?_) fun backslash => other.2 ?_
    · exact Char.toNat_inj.1 (value.symm.trans quote)
    · exact Char.toNat_inj.1 (value.symm.trans backslash)
  · have := above byte present
    exact text byte (by omega) (by omega) (by omega)

theorem hexDigit_reads {n : Nat} (small : n < 16) :
    ∃ byte, String.utf8EncodeChar (Bytes.hexDigit n) = [byte] ∧ Bytes.hexValue? byte = some n := by
  have all : ∀ n < 16, String.utf8EncodeChar (Bytes.hexDigit n) =
        [UInt8.ofNat (Bytes.hexDigit n).toNat] ∧
      Bytes.hexValue? (UInt8.ofNat (Bytes.hexDigit n).toNat) = some n := by decide
  exact ⟨_, all n small⟩

theorem Builder.addUnit_of_control {char : Char} (control : char.toNat < 0x20) (token : Bytes)
    (contexts : List Context) (done : Option Value) :
    (Builder.mk token none contexts done).addUnit char.toNat =
      some ⟨(String.utf8EncodeChar char).reverse ++ token, none, contexts, done⟩ := by
  have low : (0xDC00 ≤ char.toNat && char.toNat ≤ 0xDFFF) = false := by
    rw [Bool.and_eq_false_iff]
    exact .inl (decide_eq_false (by omega))
  have high : ¬ (0xD800 ≤ char.toNat ∧ char.toNat ≤ 0xDBFF) := by omega
  simp only [addUnit, low, high, if_false, Bool.false_eq_true]
  rw [addChar, Char.ofNat_toNat]

/-- Wherever a value is put, the bytes it was read from are done with. -/
theorem Builder.deliver_token (token : Bytes) (unit : Option Nat) (contexts : List Context)
    (done : Option Value) (value : Value) :
    (Builder.mk token unit contexts done).deliver value =
      (Builder.mk [] unit contexts done).deliver value := by
  rcases contexts with _ | ⟨_ | _, outer⟩ <;> rfl

namespace State

section

variable {role : Role} {opened : List Bracket} {contexts : List Context} {done : Option Value}

theorem read_text (token : Bytes) {bytes : Bytes} (plain : ∀ byte ∈ bytes, isText byte = true) :
    (State.mk (.string role .plain) opened).read Builder.take ⟨token, none, contexts, done⟩ bytes =
      some (⟨.string role .plain, opened⟩, ⟨bytes.reverse ++ token, none, contexts, done⟩) := by
  induction bytes generalizing token with
  | nil => rfl
  | cons byte rest ih =>
    rw [read, step_text (plain byte List.mem_cons_self), List.reverse_cons, List.append_assoc]
    exact ih (byte :: token) fun next later => plain next (List.mem_cons_of_mem _ later)

theorem read_control {char : Char} (control : char.toNat < 0x20) (token : Bytes) :
    (State.mk (.string role .plain) opened).read Builder.take ⟨token, none, contexts, done⟩
        (Bytes.ofChars ['\\', 'u', '0', '0', Bytes.hexDigit (char.toNat / 16),
          Bytes.hexDigit (char.toNat % 16)]) =
      some (⟨.string role .plain, opened⟩,
        ⟨(String.utf8EncodeChar char).reverse ++ token, none, contexts, done⟩) := by
  obtain ⟨high, highBytes, highValue⟩ := hexDigit_reads (show char.toNat / 16 < 16 by omega)
  obtain ⟨low, lowBytes, lowValue⟩ := hexDigit_reads (show char.toNat % 16 < 16 by omega)
  have bytes : Bytes.ofChars ['\\', 'u', '0', '0', Bytes.hexDigit (char.toNat / 16),
      Bytes.hexDigit (char.toNat % 16)] = [0x5C, 0x75, 0x30, 0x30, high, low] := by
    simp only [Bytes.ofChars_cons, highBytes, lowBytes]
    rfl
  have unit : unit? [0x30, 0x30, high, low] = some char.toNat := by
    have zero : Bytes.hexValue? 0x30 = some 0 := rfl
    simp only [unit?, List.foldlM_cons, List.foldlM_nil, zero, highValue, lowValue,
      Option.map_some, Option.bind_eq_bind, Option.bind_some, Option.pure_def]
    congr 1
    omega
  have moved : (State.mk (.string role (.hex [0x30, 0x30, high])) opened).step low =
      some (⟨.string role .plain, opened⟩, [.textUnit char.toNat]) := by
    show (unit? [0x30, 0x30, high, low]).map _ = _
    rw [unit]
    rfl
  rw [bytes]
  show (State.mk (.string role (.hex [0x30, 0x30, high])) opened).read Builder.take _ [low] = _
  rw [State.read, moved]
  simp only [List.foldlM_cons, Builder.take, Builder.addUnit_of_control control]
  rfl

theorem read_escapeChar (token : Bytes) (char : Char) :
    (State.mk (.string role .plain) opened).read Builder.take ⟨token, none, contexts, done⟩
        (Bytes.ofChars (escapeChar char)) =
      some (⟨.string role .plain, opened⟩,
        ⟨(String.utf8EncodeChar char).reverse ++ token, none, contexts, done⟩) := by
  unfold escapeChar
  cases found : escapeLetter? char with
  | some letter =>
    unfold escapeLetter? at found
    repeat' split at found
    all_goals cases found
    · next same => rcases same with rfl | rfl <;> rfl
    all_goals subst char
    all_goals rfl
  | none =>
    dsimp only
    split
    · next control => exact read_control control token
    · next plain =>
      have bytes : Bytes.ofChars [char] = String.utf8EncodeChar char := List.append_nil _
      rw [bytes]
      exact read_text token fun byte present =>
        isText_of_mem found (Nat.le_of_not_lt plain) present

/-- Character after character, the whole text is read. -/
theorem read_escaped (token : Bytes) (chars : List Char) :
    (State.mk (.string role .plain) opened).read Builder.take ⟨token, none, contexts, done⟩
        (Bytes.ofChars (chars.flatMap escapeChar)) =
      some (⟨.string role .plain, opened⟩,
        ⟨(Bytes.ofChars chars).reverse ++ token, none, contexts, done⟩) := by
  induction chars generalizing token with
  | nil => rfl
  | cons char rest ih =>
    rw [List.flatMap_cons, Bytes.ofChars_append, read_append, read_escapeChar, Option.bind_some,
      ih, Bytes.ofChars_cons, List.reverse_append, List.append_assoc]

theorem endText?_escaped (text : String) :
    (Builder.mk ((Bytes.ofChars text.toList).reverse ++ []) none contexts done).endText? =
      some text := by
  show Bytes.text? ((Bytes.ofChars text.toList).reverse ++ []).reverse = some text
  rw [List.append_nil, List.reverse_reverse, ← Bytes.ofText_eq, Bytes.text?_ofText]

theorem ofChars_quoted (text : String) :
    Bytes.ofChars (quoted text) =
      0x22 :: (Bytes.ofChars (text.toList.flatMap escapeChar) ++ [0x22]) := by
  rw [quoted, List.cons_append, Bytes.ofChars_cons, Bytes.ofChars_append]
  rfl

/-- Where a value is due, a string in quotes is read as it was written, whatever characters it
holds: each of them from its escape or from its own bytes, up to the quote that ends the string. -/
theorem read_quoted_value {place : Place} (awaits : place = .value ∨ place = .firstItem)
    (text : String) :
    (State.mk place opened).read Builder.take ⟨[], none, contexts, done⟩
        (Bytes.ofChars (quoted text)) =
      some (⟨.after, opened⟩, (Builder.mk [] none contexts done).deliver (.string text)) := by
  have begins : ∀ bytes, (State.mk place opened).read Builder.take ⟨[], none, contexts, done⟩
        (0x22 :: bytes) =
      (State.mk (.string .value .plain) opened).read Builder.take ⟨[], none, contexts, done⟩
        bytes := by
    intro bytes
    rcases awaits with rfl | rfl <;> rfl
  have ends : (State.mk (.string .value .plain) opened).read Builder.take
        ⟨(Bytes.ofChars text.toList).reverse ++ [], none, contexts, done⟩ [0x22] =
      some (⟨.after, opened⟩, (Builder.mk [] none contexts done).deliver (.string text)) := by
    have moved : (State.mk (.string .value .plain) opened).step 0x22 =
        some (⟨.after, opened⟩, [.textEnd]) := rfl
    rw [State.read, moved]
    simp only [List.foldlM_cons, Builder.take, endText?_escaped, Option.map_some,
      Builder.deliver_token (_ ++ [])]
    rfl
  rw [ofChars_quoted, begins, read_append, read_escaped, Option.bind_some, ends]

theorem read_quoted_key {place : Place} (awaits : place = .key ∨ place = .firstKey)
    (members : List (String × Value)) (other key : String) :
    (State.mk place opened).read Builder.take
        ⟨[], none, .object members other :: contexts, done⟩ (Bytes.ofChars (quoted key)) =
      some (⟨.colon, opened⟩, ⟨[], none, .object members key :: contexts, done⟩) := by
  have begins : ∀ builder bytes, (State.mk place opened).read Builder.take builder
        (0x22 :: bytes) =
      (State.mk (.string .key .plain) opened).read Builder.take builder bytes := by
    intro builder bytes
    rcases awaits with rfl | rfl <;> rfl
  have ends : (State.mk (.string .key .plain) opened).read Builder.take
        ⟨(Bytes.ofChars key.toList).reverse ++ [], none, .object members other :: contexts, done⟩
        [0x22] =
      some (⟨.colon, opened⟩, ⟨[], none, .object members key :: contexts, done⟩) := by
    have moved : (State.mk (.string .key .plain) opened).step 0x22 =
        some (⟨.colon, opened⟩, [.keyEnd]) := rfl
    rw [State.read, moved]
    simp only [List.foldlM_cons, Builder.take, endText?_escaped]
    rfl
  rw [ofChars_quoted, begins, read_append, read_escaped, Option.bind_some, ends]

end

end State

/-- An object of one string reads back from its compact text. -/
theorem decode_text_of_string (key text : String) :
    decode (Bytes.ofText (Value.object [(key, .string text)]).text) =
      .complete (.object [(key, .string text)]) := by
  have bytes : Bytes.ofText (Value.object [(key, .string text)]).text =
      0x7B :: (Bytes.ofChars (quoted key) ++ 0x3A :: (Bytes.ofChars (quoted text) ++ [0x7D])) := by
    rw [Value.text, Bytes.ofText_ofList, Value.chars, membersChars, Value.chars,
      Bytes.ofChars_cons, List.append_assoc, List.cons_append, Bytes.ofChars_append,
      Bytes.ofChars_cons, Bytes.ofChars_append]
    rfl
  have opened : ∀ more, State.start.read Builder.take .empty (0x7B :: more) =
      (State.mk .firstKey [.object]).read Builder.take ⟨[], none, [.object [] ""], none⟩ more :=
    fun _ => rfl
  have colon : ∀ builder more,
      (State.mk .colon [.object]).read Builder.take builder (0x3A :: more) =
        (State.mk .value [.object]).read Builder.take builder more := fun _ _ => rfl
  rw [decode, bytes, opened, State.read_append, State.read_quoted_key (.inr rfl),
    Option.bind_some, colon, State.read_append, State.read_quoted_value (.inl rfl)]
  rfl

end Json

end Unbraid
