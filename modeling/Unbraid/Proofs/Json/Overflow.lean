import Mathlib
import Unbraid.Json.Number

/-!
# Products out of range

A product of doubles is out of range when the exact product, rounded to 53 bits, reaches the power
of two where doubles end (`isInf_pack_round`). So it stays out of range when the exponent of one
factor grows (`isInf_mul_of_lt`), as that of the powers of ten does (`isInf_mul_powerOfTen`).
-/

namespace Unbraid.Json.Number

open Float.Model (Format UnpackedFloat)
open Float.Model.UnpackedFloat

/-- The first 54 bits of the number are ones: rounded to 53 bits it has one bit more. -/
def Carries (m : Nat) : Prop := 53 ≤ m.log2 ∧ (2 ^ 54 - 1) * 2 ^ (m.log2 - 53) ≤ m

/-- The number `m * 2 ^ e`, rounded to 53 bits, is out of range. -/
def Overflows (m : Nat) (e : Int) : Prop :=
  1024 ≤ (m.log2 : Int) + e ∨ (m.log2 : Int) + e = 1023 ∧ Carries m

/-! ## Rounding -/

theorem mantissa_shift (em : ExtendedMantissa) (count : Nat) :
    (em >>> count).mantissa = em.mantissa / 2 ^ count := by
  induction count with
  | zero => rw [Nat.pow_zero, Nat.div_one]; rfl
  | succ count ih =>
    show (em >>> count).mantissa / 2 = _
    rw [ih, Nat.div_div_eq_div_mul, Nat.pow_succ]

theorem roundBit_shift (em : ExtendedMantissa) (count : Nat) :
    (em >>> (count + 1)).roundBit = (em.mantissa / 2 ^ count % 2 != 0) := by
  rw [← mantissa_shift]
  rfl

/-- Rounding adds at most one; to an odd number it does if and only if the next bit is a one. -/
theorem rounded_cases (em : ExtendedMantissa) :
    em.roundedMantissa = em.mantissa ∧ (em.mantissa % 2 = 1 → em.roundBit = false) ∨
      em.roundedMantissa = em.mantissa + 1 ∧ em.roundBit = true := by
  obtain ⟨mantissa, round, sticky⟩ := em
  cases round with
  | false => cases sticky <;> exact .inl ⟨rfl, fun _ => rfl⟩
  | true =>
    cases sticky with
    | true => exact .inr ⟨rfl, rfl⟩
    | false =>
      have tie : (ExtendedMantissa.mk mantissa true false).roundedMantissa =
          mantissa + mantissa % 2 := rfl
      rw [tie]
      rcases Nat.mod_two_eq_zero_or_one mantissa with even | odd
      · exact .inl ⟨by rw [even, Nat.add_zero], fun odd : mantissa % 2 = 1 => by omega⟩
      · exact .inr ⟨by rw [odd], rfl⟩

/-- A number of at least 53 bits is rounded to 53 of them, and to the next power of two if and only
if it carries. -/
theorem rounded_eq_iff {m : Nat} (long : 52 ≤ m.log2) :
    let rounded := ((ExtendedMantissa.mk m false false) >>> (m.log2 - 52)).roundedMantissa
    2 ^ 52 ≤ rounded ∧ rounded ≤ 2 ^ 53 ∧
      (rounded = 2 ^ 53 ↔ Carries m) := by
  intro rounded
  have nonzero : m ≠ 0 := by
    rintro rfl
    exact absurd long (by decide)
  have least := Nat.log2_self_le nonzero
  have most := @Nat.lt_log2_self m
  obtain ⟨count, bits⟩ := Nat.exists_eq_add_of_le long
  have kept : ((ExtendedMantissa.mk m false false) >>> count).mantissa = m / 2 ^ count :=
    mantissa_shift _ count
  have low : 2 ^ 52 ≤ m / 2 ^ count := by
    rw [Nat.le_div_iff_mul_le (Nat.two_pow_pos count), ← Nat.pow_add, ← bits]
    exact least
  have high : m / 2 ^ count < 2 ^ 53 := by
    rw [Nat.div_lt_iff_lt_mul (Nat.two_pow_pos count), ← Nat.pow_add]
    rw [bits] at most
    rwa [show 53 + count = 52 + count + 1 by omega]
  have same : rounded = ((ExtendedMantissa.mk m false false) >>> count).roundedMantissa := by
    show ((ExtendedMantissa.mk m false false) >>> (m.log2 - 52)).roundedMantissa = _
    rw [bits, Nat.add_sub_cancel_left]
  have cases := rounded_cases ((ExtendedMantissa.mk m false false) >>> count)
  rw [← same, kept] at cases
  refine ⟨by omega, by omega, ?_⟩
  rw [Carries]
  cases count with
  -- Exactly 53 bits are kept as they are.
  | zero =>
    have exact : ((ExtendedMantissa.mk m false false) >>> 0).roundBit = false := rfl
    rw [exact] at cases
    simp only [Bool.false_eq_true, and_false, or_false] at cases
    omega
  | succ count =>
    have split : m / 2 ^ (count + 1) = m / 2 ^ count / 2 := by
      rw [Nat.pow_succ, Nat.div_div_eq_div_mul]
    have further : m.log2 - 53 = count := by omega
    rw [roundBit_shift, split] at cases
    rw [split] at high
    rw [further, ← Nat.le_div_iff_mul_le (Nat.two_pow_pos count)]
    simp only [bne_iff_ne, ne_eq, bne_eq_false_iff_eq] at cases
    omega

/-! ## Packing -/

theorem isInf_unpack_packComponents (sign : Sign) (exponent : BitVec 11) (mantissa : BitVec 52) :
    (unpack Format.binary64 (packComponents Format.binary64 sign exponent mantissa)).isInf = true ↔
      exponent = -1 ∧ mantissa = 0 := by
  rw [unpack]
  simp only [unpackExponent_packComponents, unpackMantissa_packComponents]
  split
  · next ones =>
    split
    · next zero => exact iff_of_true rfl ⟨ones, zero⟩
    · next other => exact iff_of_false Bool.false_ne_true fun both => other both.2
  · next other =>
    refine iff_of_false ?_ fun both => other both.1
    split
    · split <;> exact Bool.false_ne_true
    · exact Bool.false_ne_true

theorem isInf_pack_zero (sign : Sign) : (Float.Model.pack (.zero sign)).isInf = false := by
  cases sign <;> decide

theorem isInf_pack_finite (sign : Sign) (m : Nat) (e : Int) (pos : 0 < m) :
    (Float.Model.pack (.finite sign m e pos)).isInf = true ↔ 972 ≤ e := by
  show (unpack Format.binary64 (pack Format.binary64 (.finite sign m e pos))).isInf = true ↔ _
  have bias : ((Format.exponentBias Format.binary64 : Nat) : Int) = 1023 := rfl
  rw [pack]
  simp only [bias]
  split
  · next large =>
    rw [packedInfinity, isInf_unpack_packComponents]
    exact iff_of_true ⟨rfl, rfl⟩ (by omega)
  · next small =>
    have few : (e + 1023 + 52).toNat < 2047 := by omega
    split
    all_goals
      rw [isInf_unpack_packComponents]
      refine iff_of_false (fun ones => ?_) (by omega)
      have ones := congrArg BitVec.toNat ones.1
    · rw [BitVec.toNat_ofNat, Nat.mod_eq_of_lt (by omega)] at ones
      exact absurd ones (Nat.ne_of_lt few)
    · cases ones

/-! ## Rounding and packing -/

theorem shiftToTargetExponent_eq (m : Nat) (e : Int) :
    let count := (max (m.log2 + e - 52) (-1074) - e).toNat
    shiftToTargetExponent Format.binary64 m e .exact =
      (ExtendedMantissa.mk m false false >>> count, e + count) := by
  intro count
  have target : Format.binary64.targetExponent (Float.Model.totalExponent m e) =
      max (m.log2 + e - 52) (-1074) := by
    show max ((m.log2 : Int) + 1 + e - 53) (-1074) = _
    congr 1
    omega
  rw [shiftToTargetExponent, target]
  rfl

/-- A number that has been rounded is shifted once more only after a carry. -/
theorem shift_rounded {rounded : Nat} {e : Int} (least : -1074 ≤ e) :
    shiftToTargetExponent Format.binary64 rounded e .exact =
      (ExtendedMantissa.mk rounded false false >>> (rounded.log2 - 52),
        e + (rounded.log2 - 52 : Nat)) := by
  have count : (max (rounded.log2 + e - 52) (-1074) - e).toNat = rounded.log2 - 52 := by omega
  rw [← count]
  exact shiftToTargetExponent_eq rounded e

theorem exists_round {m : Nat} {e : Int} (long : 52 ≤ m.log2)
    (normal : -1074 ≤ (m.log2 : Int) + e - 52) (sign : Sign) :
    ∃ mantissa exponent pos,
      roundWithAccuracy Format.binary64 sign m e .exact = .finite sign mantissa exponent pos ∧
        mantissa.log2 = 52 ∧ (exponent = m.log2 + e - 52 ∧ ¬ Carries m ∨
          exponent = m.log2 + e - 51 ∧ Carries m) := by
  obtain ⟨low, high, carries⟩ := rounded_eq_iff long
  have first := shiftToTargetExponent_eq m e
  have count : (max (m.log2 + e - 52) (-1074) - e).toNat = m.log2 - 52 := by omega
  simp only [count] at first
  rw [roundWithAccuracy, first]
  dsimp only
  rw [shift_rounded (by omega)]
  dsimp only
  rw [mantissa_shift]
  dsimp only
  generalize ((ExtendedMantissa.mk m false false) >>> (m.log2 - 52)).roundedMantissa = rounded
    at low high carries
  by_cases carry : rounded = 2 ^ 53
  · have bits : rounded.log2 = 53 := by rw [carry]; exact Nat.log2_two_pow
    have kept : rounded / 2 ^ (rounded.log2 - 52) = 2 ^ 52 := by
      have one : rounded.log2 - 52 = 1 := by omega
      rw [one]
      omega
    simp only [kept]
    rw [dif_neg (by decide)]
    refine ⟨2 ^ 52, _, Nat.two_pow_pos 52, rfl, Nat.log2_two_pow, .inr ⟨?_, carries.1 carry⟩⟩
    omega
  · have nonzero : rounded ≠ 0 := by omega
    have bits : rounded.log2 = 52 := (Nat.log2_eq_iff nonzero).2 ⟨low, by omega⟩
    have kept : rounded / 2 ^ (rounded.log2 - 52) = rounded := by
      rw [bits]
      exact Nat.div_one rounded
    simp only [kept]
    rw [dif_neg nonzero]
    refine ⟨rounded, _, Nat.pos_of_ne_zero nonzero, rfl, bits, .inl ⟨?_, mt carries.2 carry⟩⟩
    omega

/-- A number this small is rounded to at most 53 bits, with the least exponent of all. -/
theorem isInf_pack_round_of_small {m : Nat} {e : Int} (long : 52 ≤ m.log2)
    (small : (m.log2 : Int) + e - 52 < -1074) (sign : Sign) :
    (Float.Model.pack (roundWithAccuracy Format.binary64 sign m e .exact)).isInf = false := by
  obtain ⟨count, rfl⟩ : ∃ count : Nat, e = -1074 - count := ⟨(-1074 - e).toNat, by omega⟩
  have first := shiftToTargetExponent_eq m (-1074 - count)
  have shifted : (max ((m.log2 : Int) + (-1074 - count) - 52) (-1074) - (-1074 - count)).toNat =
      count := by omega
  simp only [shifted] at first
  have few : m / 2 ^ count < 2 ^ 52 := by
    rw [Nat.div_lt_iff_lt_mul (Nat.two_pow_pos count), ← Nat.pow_add]
    exact Nat.lt_of_lt_of_le Nat.lt_log2_self (Nat.pow_le_pow_right (by decide) (by omega))
  have cases := rounded_cases ((ExtendedMantissa.mk m false false) >>> count)
  rw [mantissa_shift] at cases
  dsimp only at cases
  rw [roundWithAccuracy, first]
  dsimp only
  rw [shift_rounded (by omega)]
  dsimp only
  generalize ((ExtendedMantissa.mk m false false) >>> count).roundedMantissa = rounded at cases
  have bits : rounded.log2 ≤ 52 := by
    rcases Nat.eq_zero_or_pos rounded with rfl | pos
    · decide
    · exact Nat.le_of_lt_succ ((Nat.log2_lt (by omega)).2 (by omega))
  split
  · exact isInf_pack_zero sign
  · refine Bool.eq_false_iff.2 fun overflows => ?_
    have := (isInf_pack_finite _ _ _ _).1 overflows
    omega

/-- A number of at least 53 bits, rounded to a double, is out of range if and only if it overflows:
if it has too many bits as it is, or just so many and the carry of the rounding adds one. -/
theorem isInf_pack_round {m : Nat} (long : 52 ≤ m.log2) (sign : Sign) (e : Int) :
    (Float.Model.pack (roundWithAccuracy Format.binary64 sign m e .exact)).isInf = true ↔
      Overflows m e := by
  by_cases normal : -1074 ≤ (m.log2 : Int) + e - 52
  · obtain ⟨mantissa, exponent, pos, rounded, -, known⟩ := exists_round long normal sign
    rw [rounded, isInf_pack_finite, Overflows]
    rcases known with ⟨rfl, exact⟩ | ⟨rfl, carries⟩
    · simp only [exact, and_false, or_false]
      omega
    · simp only [carries, and_true]
      omega
  · have inRange := isInf_pack_round_of_small long (Int.not_le.1 normal) sign
    refine iff_of_false (inRange ▸ Bool.false_ne_true) (fun overflows => ?_)
    rw [Overflows] at overflows
    omega

/-! ## A factor that grows -/

theorem Overflows.of_le {m larger : Nat} {e : Int} (overflows : Overflows m e) (pos : 0 < m)
    (le : m ≤ larger) : Overflows larger e := by
  have bits : m.log2 ≤ larger.log2 :=
    (Nat.le_log2 (by omega)).2 (Nat.le_trans (Nat.log2_self_le (by omega)) le)
  rcases Nat.eq_or_lt_of_le bits with same | more
  · rw [Overflows, Carries, ← same]
    rcases overflows with long | ⟨long, kept, ones⟩
    · exact .inl long
    · exact .inr ⟨long, kept, Nat.le_trans ones le⟩
  · rcases overflows with long | ⟨long, -⟩
    · exact .inl (by omega)
    · exact .inl (by omega)

theorem Overflows.of_exponent_le {m : Nat} {e larger : Int} (overflows : Overflows m e)
    (le : e ≤ larger) : Overflows m larger := by
  rcases Int.lt_or_eq_of_le le with more | rfl
  · rcases overflows with long | ⟨long, -⟩
    · exact .inl (by omega)
    · exact .inl (by omega)
  · exact overflows

theorem Overflows.of_double {m : Nat} {e : Int} (overflows : Overflows (2 * m) e) (pos : 0 < m) :
    Overflows m (e + 1) := by
  have bits : (2 * m).log2 = m.log2 + 1 := Nat.log2_two_mul (by omega)
  rw [Overflows, Carries, bits] at overflows
  rcases overflows with long | ⟨long, kept, ones⟩
  · exact .inl (by omega)
  · refine .inr ⟨by omega, ?_⟩
    have most := @Nat.lt_log2_self m
    rcases Nat.eq_or_lt_of_le kept with exact | more
    -- Ones in 54 bits are more than a number of 53 bits has.
    · have few : m.log2 = 52 := by omega
      rw [few] at ones most
      omega
    · have less : m.log2 + 1 - 53 = m.log2 - 53 + 1 := by omega
      rw [less, Nat.pow_succ] at ones
      exact ⟨by omega, by omega⟩

/-- The exponent of a positive double of 53 bits. -/
def exponent? : UnpackedFloat → Option Int
  | .finite .positive m e _ => if m.log2 = 52 then some e else none
  | _ => none

theorem exists_of_exponent? {x : UnpackedFloat} {e : Int} (known : exponent? x = some e) :
    ∃ m pos, x = .finite .positive m e pos ∧ m.log2 = 52 := by
  unfold exponent? at known
  split at known
  · next m e pos =>
    split at known
    · next bits =>
      obtain rfl := Option.some.inj known
      exact ⟨m, pos, rfl, bits⟩
    · cases known
  · cases known

theorem ne_zero_of_log2 {m : Nat} (bits : m.log2 = 52) : m ≠ 0 := by
  rintro rfl
  cases bits

theorem le_log2_mul {factor m : Nat} (pos : 0 < factor) (bits : m.log2 = 52) :
    52 ≤ (factor * m).log2 := by
  have nonzero := ne_zero_of_log2 bits
  rw [Nat.le_log2 (Nat.mul_ne_zero (Nat.ne_of_gt pos) nonzero), ← bits]
  exact Nat.le_trans (Nat.log2_self_le nonzero) (Nat.le_mul_of_pos_left m pos)

/-- Two numbers of the same number of bits differ by less than a factor of two. -/
theorem Overflows.of_lt {factor m m' : Nat} {e e' shift : Int} (pos : 0 < factor)
    (bits : m.log2 = 52) (bits' : m'.log2 = 52) (less : e < e')
    (overflows : Overflows (factor * m) (shift + e)) : Overflows (factor * m') (shift + e') := by
  have nonzero := ne_zero_of_log2 bits
  have nonzero' := ne_zero_of_log2 bits'
  have most := ((Nat.log2_eq_iff nonzero).1 bits).2
  have least := ((Nat.log2_eq_iff nonzero').1 bits').1
  have present : 0 < factor * m := Nat.mul_pos pos (Nat.pos_of_ne_zero nonzero)
  have present' : 0 < factor * m' := Nat.mul_pos pos (Nat.pos_of_ne_zero nonzero')
  have le : factor * m ≤ 2 * (factor * m') := by
    rw [Nat.mul_left_comm]
    exact Nat.mul_le_mul_left factor (by omega)
  exact ((overflows.of_le present le).of_double present').of_exponent_le (by omega)

theorem isInf_mul_of_lt (x : UnpackedFloat) {y z : UnpackedFloat} {e e' : Int}
    (known : exponent? y = some e) (known' : exponent? z = some e') (less : e < e')
    (overflows : (Float.Model.pack (mul Format.binary64 x y)).isInf = true) :
    (Float.Model.pack (mul Format.binary64 x z)).isInf = true := by
  obtain ⟨m, pos, rfl, bits⟩ := exists_of_exponent? known
  obtain ⟨m', pos', rfl, bits'⟩ := exists_of_exponent? known'
  cases x with
  | finite sign factor shift present =>
    have before := (isInf_pack_round (le_log2_mul present bits) _ _).1 overflows
    exact (isInf_pack_round (le_log2_mul present bits') _ _).2
      (before.of_lt present bits bits' less)
  -- Only a finite factor leaves anything to round.
  | infinity sign => exact overflows
  | notANumber => exact overflows
  | zero sign => exact overflows

/-! ## Powers of ten -/

theorem exponent?_unpack_packComponents {exponent : BitVec 11} (mantissa : BitVec 52)
    (subnormal : exponent ≠ 0#11) (infinite : exponent ≠ -1#11) :
    exponent? (unpack Format.binary64
        (packComponents Format.binary64 .positive exponent mantissa)) =
      some ((exponent.toNat : Int) - 1075) := by
  have sign : Sign.ofBitVec (unpackSign
      (packComponents Format.binary64 .positive exponent mantissa)) = .positive := by
    rw [unpackSign_packComponents, Sign.ofBitVec_toBitVec]
  have bits : (1#1 ++ mantissa).toNat.log2 = 52 := by
    have whole : (1#1 ++ mantissa).toNat = 2 ^ 52 + mantissa.toNat := by
      rw [BitVec.toNat_append, ← Nat.shiftLeft_add_eq_or_of_lt mantissa.isLt]
      rfl
    have := mantissa.isLt
    rw [whole, Nat.log2_eq_iff (by omega)]
    omega
  rw [unpack]
  simp only [unpackExponent_packComponents, unpackMantissa_packComponents, sign]
  rw [if_neg infinite, if_neg subnormal, exponent?]
  simp only [bits, if_true]
  rfl

theorem exponent?_unpack_pack {m : Nat} {e : Int} (pos : 0 < m) (bits : m.log2 = 52)
    (least : -1074 ≤ e) (most : e < 972) :
    exponent? (Float.Model.pack (.finite .positive m e pos)).unpack = some e := by
  show exponent? (unpack Format.binary64 (pack Format.binary64 (.finite .positive m e pos))) = _
  obtain ⟨biased, known⟩ : ∃ biased : Nat, e = biased - 1075 := ⟨(e + 1075).toNat, by omega⟩
  have bias : (e + (Format.exponentBias Format.binary64 : Nat) + (52 : Nat)).toNat = biased := by
    show (e + 1023 + 52).toNat = biased
    omega
  rw [pack]
  simp only [bias, bits]
  rw [if_neg (by omega), if_pos (show 52 + 1 = Format.binary64.mantissaBits from rfl),
    exponent?_unpack_packComponents]
  · rw [BitVec.toNat_ofNat, Nat.mod_eq_of_lt (by omega), known]
  · intro zero
    have zero := congrArg BitVec.toNat zero
    rw [BitVec.toNat_ofNat, Nat.mod_eq_of_lt (by omega)] at zero
    have zero : biased = 0 := zero
    omega
  · intro ones
    have ones := congrArg BitVec.toNat ones
    rw [BitVec.toNat_ofNat, Nat.mod_eq_of_lt (by omega)] at ones
    have ones : biased = 2047 := ones
    omega

theorem tenPow_ne_zero (n : Nat) : 10 ^ n ≠ 0 := Nat.ne_of_gt (Nat.pow_pos (by decide))

theorem log2_tenPow (n : Nat) : (2 ^ 53 * 10 ^ n).log2 = 53 + (10 ^ n).log2 := by
  have nonzero := tenPow_ne_zero n
  rw [Nat.log2_eq_iff (Nat.mul_ne_zero (Nat.ne_of_gt (Nat.two_pow_pos 53)) nonzero),
    Nat.add_assoc, Nat.pow_add, Nat.pow_add]
  exact ⟨Nat.mul_le_mul_left _ (Nat.log2_self_le nonzero),
    Nat.mul_lt_mul_of_pos_left Nat.lt_log2_self (Nat.two_pow_pos 53)⟩

theorem powerOfTen_toModel {n : Nat} (large : 22 < n) (bound : n ≤ 2048) :
    (powerOfTen n).toModel =
      Float.Model.pack (roundWithAccuracy Format.binary64 .positive (2 ^ 53 * 10 ^ n) (-53)
        .exact) := by
  have table : ¬ (1 < 2 ^ 53 ∧ n ≤ 22) := by omega
  show (Float.ofScientific 1 false n).toModel =
    Float.Model.pack (mul Format.binary64 (.finite .positive (1 <<< 53) (-53) (by decide))
      (.finite .positive (10 ^ n) 0 (Nat.pow_pos (by decide))))
  rw [Float.ofScientific, dif_neg table]
  show Float.Model.pack (UnpackedFloat.ofScientific Format.binary64 1 (n : Int)) = _
  rw [UnpackedFloat.ofScientific, dif_neg (by decide), if_neg (by simp; omega),
    if_neg (by simp; omega),
    if_pos (by omega)]
  rfl

/-- The powers of ten are doubles of 53 bits. The exponent is that of the exact power or, after a
carry, the next one. -/
theorem exponent?_powerOfTen {n : Nat} (bound : n ≤ 308) :
    ∃ e, exponent? (powerOfTen n).toModel.unpack = some e ∧
      ((10 ^ n).log2 : Int) - 52 ≤ e ∧ e ≤ ((10 ^ n).log2 : Int) - 51 := by
  have exact : ∀ n ≤ 22,
      exponent? (powerOfTen n).toModel.unpack = some (((10 ^ n).log2 : Int) - 52) := by
    decide +kernel
  have last : exponent? (powerOfTen 308).toModel.unpack = some (((10 ^ 308).log2 : Int) - 52) := by
    decide +kernel
  rcases Nat.lt_or_ge 22 n with large | small
  · rcases Nat.eq_or_lt_of_le bound with rfl | less
    · exact ⟨_, last, by omega⟩
    · have most : (10 ^ n).log2 < 1020 :=
        (Nat.log2_lt (tenPow_ne_zero n)).2 (Nat.lt_of_le_of_lt
          (Nat.pow_le_pow_right (by decide) (Nat.le_of_lt_succ less)) (by decide +kernel))
      have bits := log2_tenPow n
      obtain ⟨m, e, pos, rounded, kept, near⟩ :=
        exists_round (m := 2 ^ 53 * 10 ^ n) (e := -53) (by omega) (by omega) .positive
      rw [powerOfTen_toModel large (by omega), rounded]
      exact ⟨e, exponent?_unpack_pack pos kept (by omega) (by omega), by omega⟩
  · exact ⟨_, exact n small, by omega⟩

theorem isInf_mul_powerOfTen {x : Float} {n larger : Nat} (le : n ≤ larger) (bound : larger ≤ 308)
    (overflows : (x * powerOfTen n).isInf = true) : (x * powerOfTen larger).isInf = true := by
  rcases Nat.eq_or_lt_of_le le with rfl | less
  · exact overflows
  · obtain ⟨e, known, -, most⟩ := exponent?_powerOfTen (Nat.le_trans le bound)
    obtain ⟨e', known', least, -⟩ := exponent?_powerOfTen bound
    -- Ten is more than the third power of two.
    have bits : (10 ^ n).log2 + 3 ≤ (10 ^ larger).log2 := by
      have power := Nat.log2_self_le (tenPow_ne_zero n)
      have next : 10 ^ (n + 1) ≤ 10 ^ larger := Nat.pow_le_pow_right (by decide) less
      rw [Nat.pow_succ] at next
      rw [Nat.le_log2 (tenPow_ne_zero larger), Nat.pow_add]
      omega
    exact isInf_mul_of_lt _ known known' (by omega) overflows

theorem isInf_zero_mul {x : Float} (zero : (x == 0.0) = true) {n : Nat} (bound : n ≤ 308) :
    (x * powerOfTen n).isInf = false := by
  obtain ⟨e, known, -⟩ := exponent?_powerOfTen bound
  obtain ⟨m, pos, finite, -⟩ := exists_of_exponent? known
  have literal : (0.0 : Float).toModel.unpack = .zero .positive := by rfl
  have zero : (x.toModel.unpack).beq (0.0 : Float).toModel.unpack = true := zero
  show (Float.Model.pack (mul Format.binary64 x.toModel.unpack (powerOfTen n).toModel.unpack)).isInf
    = false
  rw [literal] at zero
  rw [finite]
  cases known : x.toModel.unpack with
  | zero sign => exact isInf_pack_zero _
  | infinity sign => rw [known] at zero; cases sign <;> cases zero
  | notANumber => rw [known] at zero; cases zero
  | finite sign => rw [known] at zero; cases sign <;> cases zero

end Unbraid.Json.Number
