import Unbraid.Ledger
import Unbraid.Proofs.Json.Ordered
import Unbraid.Proofs.Json.Spelling

/-!
# What tells one call from another

The identity of a call joins the name of the tool and its arguments with a zero byte. A name may
hold zero bytes itself, but the text of the arguments never does, so the last zero byte is where the
name ends (`Bytes.split_at_last`). The text stands for one value only, and so two calls have the
same identity only if they are the same call. Two notices are entered under one key if they announce
the same call, and otherwise only if their identities are a collision of the digest
(`Notice.identity_unambiguous`).
-/

namespace Unbraid

namespace Bytes

/-- At the last of the bytes that separate, what stands before and behind it is told apart. -/
theorem split_at_last {byte : UInt8} {before other behind rest : Bytes} (absent : byte ∉ behind)
    (missing : byte ∉ rest) (equal : before ++ byte :: behind = other ++ byte :: rest) :
    before = other ∧ behind = rest := by
  have last : ∀ {behind : Bytes} (before : Bytes), byte ∉ behind →
      (before ++ byte :: behind).reverse.takeWhile (· != byte) = behind.reverse := by
    intro behind before absent
    have plain : ∀ next ∈ behind.reverse, (next != byte) = true := fun next present =>
      bne_iff_ne.2 fun same => absent (same ▸ List.mem_reverse.1 present)
    rw [List.reverse_append, List.reverse_cons, List.append_assoc,
      List.takeWhile_append_of_pos plain, List.singleton_append,
      List.takeWhile_cons_of_neg (by simp), List.append_nil]
  have same : behind = rest := by
    rw [← List.reverse_inj, ← last before absent, equal, last other missing]
  subst same
  exact ⟨List.append_cancel_right equal, rfl⟩

theorem ofText_inj {text other : String} (equal : ofText text = ofText other) : text = other := by
  have read := text?_ofText text
  rw [equal, text?_ofText] at read
  exact (Option.some.inj read).symm

theorem hex_inj {bytes more : Bytes} (equal : hex bytes = hex more) : bytes = more := by
  rw [hex, hex, String.ofList_inj] at equal
  induction bytes generalizing more with
  | nil =>
    cases more with
    | nil => rfl
    | cons other later => cases equal
  | cons byte rest ih =>
    cases more with
    | nil => cases equal
    | cons other later =>
      simp only [List.flatMap_cons, List.cons_append, List.nil_append, List.cons.injEq] at equal
      obtain ⟨high, low, behind⟩ := equal
      have below := byte.toNat_lt
      have under := other.toNat_lt
      have high := Json.hexDigit_inj (by omega) (by omega) high
      have low := Json.hexDigit_inj (by omega) (by omega) low
      have same : byte = other := UInt8.toNat_inj.1 (by omega)
      rw [same, ih behind]

end Bytes

/-- Two messages that have one digest. -/
def Sha256.Collision (message other : Bytes) : Prop :=
  message ≠ other ∧ digest message = digest other

namespace Notice

open Json (Value)

/-- The identities of two calls are equal only if the names are and the arguments are the same
value, although a name may hold zero bytes itself. So the same call is always entered under the same
key, and another call only if the digests of the two identities collide. -/
theorem identity_unambiguous {tool other : String} {arguments others : Value}
    (ordered : arguments.Ordered) (orderly : others.Ordered) (integral : arguments.Integral)
    (whole : others.Integral) :
    (identity tool arguments = identity other others ↔ tool = other ∧ arguments.Same others) ∧
      (key tool arguments = key other others ↔
        (tool = other ∧ arguments.Same others) ∨
          Sha256.Collision (identity tool arguments) (identity other others)) := by
  have noZero : ∀ value : Value, 0 ∉ Bytes.ofText value.text :=
    fun value present => absurd (value.printed_bytes 0 present) (by decide)
  have identities : identity tool arguments = identity other others ↔
      tool = other ∧ arguments.Same others := by
    rw [ordered.same_iff orderly]
    constructor
    · intro equal
      obtain ⟨name, text⟩ := Bytes.split_at_last (noZero arguments) (noZero others) equal
      exact ⟨Bytes.ofText_inj name, integral.eq_of_text whole (Bytes.ofText_inj text)⟩
    · rintro ⟨rfl, rfl⟩
      rfl
  refine ⟨identities, ?_⟩
  rw [← identities]
  constructor
  · intro shared
    by_cases equal : identity tool arguments = identity other others
    · exact .inl equal
    · exact .inr ⟨equal, Bytes.hex_inj shared⟩
  · rintro (equal | ⟨-, digests⟩)
    · rw [key, key, equal]
    · rw [key, key, digests]

/-- Members may be put into the arguments in any order, but not with their values exchanged; and a
zero byte at the end of the name is not taken for the one behind it. -/
theorem zero_byte_in_name :
    let one : Value := .number (.integer 1)
    let arguments : Value := .object (Json.insert "a" .null (Json.insert "b" one []))
    let others : Value := .object (Json.insert "b" one (Json.insert "a" .null []))
    let exchanged : Value := .object (Json.insert "a" one (Json.insert "b" .null []))
    key "find" arguments = key "find" others ∧
      identity "find" arguments ≠ identity "find" exchanged ∧
      identity "find\x00" arguments ≠ identity "find" others := by
  intro one arguments others exchanged
  have plain (first second : Value) (each : first.Ordered ∧ first.Integral)
      (all : second.Ordered ∧ second.Integral) :
      (Value.object [("a", first), ("b", second)]).Ordered ∧
        (Value.object [("a", first), ("b", second)]).Integral :=
    ⟨.object (List.pairwise_pair.2 (by decide : "a" < "b"))
        (List.forall_mem_cons.2 ⟨each.1, List.forall_mem_singleton.2 all.1⟩),
      .object (List.forall_mem_cons.2 ⟨each.2, List.forall_mem_singleton.2 all.2⟩)⟩
  have null : Value.null.Ordered ∧ Value.null.Integral := ⟨.null, .null⟩
  have whole : one.Ordered ∧ one.Integral := ⟨.number _, .number trivial⟩
  have ⟨ordered, integral⟩ := plain .null one null whole
  have ⟨orderly, entire⟩ := plain one .null whole null
  have same (tool : String) :
      (identity tool arguments = identity "find" others ↔
        tool = "find" ∧ arguments.Same others) ∧ _ :=
    identity_unambiguous ordered ordered integral integral
  have apart : identity "find" arguments = identity "find" exchanged ↔ _ :=
    (identity_unambiguous ordered orderly integral entire).1
  refine ⟨(same "find").2.2 (.inl ⟨rfl, ordered.same_self⟩), fun equal => ?_, fun equal => ?_⟩
  · have values := (ordered.same_iff orderly).1 (apart.1 equal).2
    simp [one] at values
  · exact absurd ((same "find\x00").1.1 equal).1 (by decide)

end Notice

end Unbraid
