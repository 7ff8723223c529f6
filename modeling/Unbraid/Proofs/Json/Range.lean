import Mathlib.Data.List.Induction
import Mathlib.Data.List.TakeWhile
import Unbraid.Json.Grammar
import Unbraid.Proofs.Json.Overflow

/-!
# Numbers out of range

A number that is out of range stays so while the digits of a positive exponent go on
(`Scaled.withExponent?_snoc`), and comes into range once the digits of a negative one have gone on
for long enough (`Scaled.exists_withExponent?`). What an exponent is applied to is fixed by the text
before it (`exists_ofText?`), and each byte that belongs to a number keeps its text in the shape
that this needs (`Spells.step`).
-/

namespace Unbraid.Json.Number

/-! ## Scaling -/

theorem shift?_ne_none_of_neg {x : Float} {exponent : Int} (neg : exponent < 0) :
    shift? x exponent ≠ none := by
  fun_induction shift? x exponent with
  | case1 x exponent far zero => exact Option.some_ne_none _
  | case2 x exponent far nonzero ih => exact ih (by omega)
  | case3 x exponent near down => exact Option.some_ne_none _
  | _ => omega

theorem shift?_natCast_eq_none_iff {x : Float} {exponent : Nat} :
    shift? x exponent = none ↔
      if exponent ≤ 308 then (x * powerOfTen exponent).isInf = true else (x == 0.0) = false := by
  have bound : ((exponent : Int) ≤ 308) = (exponent ≤ 308) := propext (by omega)
  rw [shift?, if_neg (by omega), if_neg (by omega)]
  simp only [Int.natAbs_natCast, bound]
  split <;> split <;> simp_all

theorem shift?_eq_none_of_le {x : Float} {exponent larger : Int} (le : exponent ≤ larger)
    (out : shift? x exponent = none) : shift? x larger = none := by
  have nonneg : 0 ≤ exponent := Int.not_lt.1 fun neg => shift?_ne_none_of_neg neg out
  obtain ⟨exponent, rfl⟩ := Int.eq_ofNat_of_zero_le nonneg
  obtain ⟨larger, rfl⟩ := Int.eq_ofNat_of_zero_le (Int.le_trans nonneg le)
  have le : exponent ≤ larger := Int.ofNat_le.1 le
  rw [shift?_natCast_eq_none_iff] at out ⊢
  split at out
  · next few =>
    split
    · next bound => exact isInf_mul_powerOfTen le bound out
    -- A product out of range is no multiple of zero.
    · refine Bool.eq_false_iff.2 fun zero => ?_
      rw [isInf_zero_mul zero few] at out
      cases out
  · next many =>
    rw [if_neg (by omega)]
    exact out

theorem shift?_zero_ne_none {x : Float} (zero : (x == 0.0) = true) (exponent : Int) :
    shift? x exponent ≠ none := by
  intro out
  have nonneg : 0 ≤ exponent := Int.not_lt.1 fun neg => shift?_ne_none_of_neg neg out
  have far := shift?_eq_none_of_le (Int.le_add_of_nonneg_right (by decide : (0 : Int) ≤ 309)) out
  obtain ⟨exponent, rfl⟩ := Int.eq_ofNat_of_zero_le nonneg
  have far : shift? x ((exponent + 309 : Nat) : Int) = none := far
  rw [shift?_natCast_eq_none_iff, if_neg (by omega), zero] at far
  cases far

/-! ## Digits -/

theorem ofDigits_le (digits : Bytes) : ofDigits digits ≤ wordEnd := by
  induction digits using List.reverseRecOn with
  | nil => exact Nat.zero_le _
  | append_singleton digits byte _ =>
    rw [ofDigits, List.foldl_append]
    exact Nat.min_le_left _ _

theorem ofDigits_le_snoc (digits : Bytes) (byte : UInt8) :
    ofDigits digits ≤ ofDigits (digits ++ [byte]) := by
  have bound := ofDigits_le digits
  have longer : ofDigits (digits ++ [byte]) =
      min wordEnd (ofDigits digits * 10 + digit byte) := by
    rw [ofDigits, List.foldl_append]
    rfl
  omega

theorem ofDigits_le_append (digits more : Bytes) : ofDigits more ≤ ofDigits (digits ++ more) := by
  have grows : ∀ (more : Bytes) (n m : Nat), n ≤ m →
      more.foldl (fun n byte => min wordEnd (n * 10 + digit byte)) n ≤
        more.foldl (fun n byte => min wordEnd (n * 10 + digit byte)) m := by
    intro more
    induction more with
    | nil => exact fun n m le => le
    | cons byte rest ih =>
      intro n m le
      have longer : min wordEnd (n * 10 + digit byte) ≤ min wordEnd (m * 10 + digit byte) := by
        omega
      exact ih _ _ longer
  rw [ofDigits, ofDigits, List.foldl_append]
  exact grows more 0 _ (Nat.zero_le _)

def AllDigits (bytes : Bytes) : Prop := ∀ byte ∈ bytes, Bytes.isDigit byte = true

theorem allDigits_nil : AllDigits [] := fun _ none => by cases none

theorem AllDigits.append {bytes more : Bytes} (first : AllDigits bytes) (second : AllDigits more) :
    AllDigits (bytes ++ more) :=
  fun byte present => (List.mem_append.1 present).elim (first byte) (second byte)

theorem AllDigits.snoc {digits : Bytes} {byte : UInt8} (all : AllDigits digits)
    (digit : Bytes.isDigit byte = true) : AllDigits (digits ++ [byte]) :=
  all.append fun _ present => List.mem_singleton.1 present ▸ digit

/-- Neither a digit nor a minus sign: the digits before the point end here. -/
def EndsDigits (rest : Bytes) : Prop :=
  ∀ byte, rest.head? = some byte → Bytes.isDigit byte = false ∧ byte ≠ 0x2D

theorem endsDigits_nil : EndsDigits [] := fun _ none => by cases none

theorem digits_split {digits rest : Bytes} (all : AllDigits digits) (ends : EndsDigits rest) :
    (digits ++ rest).takeWhile Bytes.isDigit = digits ∧
      (digits ++ rest).dropWhile Bytes.isDigit = rest := by
  rw [List.takeWhile_append_of_pos all, List.dropWhile_append_of_pos all]
  cases rest with
  | nil => exact ⟨List.append_nil digits, rfl⟩
  | cons byte more =>
    have other := (ends byte rfl).1
    rw [List.takeWhile_cons_of_neg (by simp [other]), List.dropWhile_cons_of_neg (by simp [other])]
    exact ⟨List.append_nil digits, rfl⟩

theorem head?_ne_minus {digits rest : Bytes} (all : AllDigits digits) (ends : EndsDigits rest) :
    (digits ++ rest).head? ≠ some 0x2D := by
  cases digits with
  | nil => exact fun minus => (ends 0x2D minus).2 rfl
  | cons byte more =>
    intro minus
    have digit := all 0x2D (List.mem_of_mem_head? minus)
    cases digit

/-! ## Exponents -/

/-- The sign of an exponent, or none. -/
def IsSign (sign : Bytes) : Prop := sign = [] ∨ sign = [0x2B] ∨ sign = [0x2D]

/-- Ten nines: more than the largest exponent that is told from all larger ones. -/
def nines : Bytes := List.replicate 10 0x39

theorem allDigits_nines : AllDigits nines := by
  intro byte present
  rw [List.eq_of_mem_replicate present]
  rfl

theorem head?_eq_minus_iff {sign digits : Bytes} (signed : IsSign sign) (all : AllDigits digits) :
    (sign ++ digits).head? = some 0x2D ↔ sign = [0x2D] := by
  rcases signed with rfl | rfl | rfl
  · have plain := head?_ne_minus all endsDigits_nil
    rw [List.append_nil] at plain
    exact iff_of_false plain (by decide)
  · exact iff_of_false (by simp) (by decide)
  · exact iff_of_true rfl rfl

namespace Scaled

variable {negative : Bool} {scaled : Scaled} {sign digits : Bytes}

theorem withExponent?_eq (signed : IsSign sign) (all : AllDigits digits) :
    scaled.withExponent? negative (sign ++ digits) =
      if maxExponent < ofDigits digits then
        if sign = [0x2D] ∨ scaled.significand = 0 then
          some (.double (if negative then -0.0 else 0.0))
        else none
      else double? negative ⟨scaled.significand,
        if sign = [0x2D] then scaled.exponent - ofDigits digits
        else scaled.exponent + ofDigits digits⟩ := by
  have unsigned : digits.dropWhile (fun byte => byte = 0x2B || byte = 0x2D) = digits := by
    rw [List.dropWhile_eq_self_iff]
    intro some plus
    have digit := all _ (List.getElem_mem some)
    simp only [Bool.or_eq_true, decide_eq_true_eq] at plus
    rcases plus with plus | minus
    · rw [plus] at digit; cases digit
    · rw [minus] at digit; cases digit
  have unsigned : (sign ++ digits).dropWhile (fun byte => byte = 0x2B || byte = 0x2D) = digits := by
    rcases signed with rfl | rfl | rfl
    all_goals exact unsigned
  rw [withExponent?]
  simp only [unsigned, head?_eq_minus_iff signed all]

theorem double?_eq_none_iff {exponent : Int} {significand : Nat} :
    double? negative ⟨significand, exponent⟩ = none ↔
      shift? significand.toUInt64.toFloat exponent = none := by
  rw [double?, Option.map_eq_none_iff]

/-- While the digits of a positive exponent go on, a number that is out of range stays so. -/
theorem withExponent?_snoc {byte : UInt8} (signed : IsSign sign) (up : sign ≠ [0x2D])
    (all : AllDigits digits) (digit : Bytes.isDigit byte = true)
    (out : scaled.withExponent? negative (sign ++ digits) = none) :
    scaled.withExponent? negative (sign ++ (digits ++ [byte])) = none := by
  have larger := ofDigits_le_snoc digits byte
  rw [withExponent?_eq signed all] at out
  rw [withExponent?_eq signed (all.snoc digit)]
  simp only [up, false_or, if_false] at out ⊢
  have nonzero : scaled.significand ≠ 0 := by
    intro zero
    rw [zero] at out
    split at out
    · cases out
    · exact shift?_zero_ne_none (by rfl) _ (double?_eq_none_iff.1 out)
  rw [if_neg nonzero]
  split
  · rfl
  · next told =>
    rw [if_neg (by omega)] at out
    rw [double?_eq_none_iff] at out ⊢
    exact shift?_eq_none_of_le (by omega) out

/-- The digits of a negative exponent can go on until the number is in range: ten nines more are
beyond all bounds, and then the number is zero. -/
theorem exists_withExponent? (all : AllDigits digits) :
    ∃ number, scaled.withExponent? negative (0x2D :: (digits ++ nines)) = some number := by
  have beyond : maxExponent < ofDigits (digits ++ nines) :=
    Nat.lt_of_lt_of_le (by decide) (ofDigits_le_append digits nines)
  have minus : IsSign [0x2D] := .inr (.inr rfl)
  refine ⟨.double (if negative then -0.0 else 0.0), ?_⟩
  rw [← List.singleton_append, withExponent?_eq minus (all.append allDigits_nines), if_pos beyond,
    if_pos (.inl rfl)]

end Scaled

/-! ## Texts -/

/-- The text of a number before its point, or the beginning of it. -/
def IsWhole (text : Bytes) : Prop :=
  ∃ sign digits : Bytes, text = sign ++ digits ∧ (sign = [] ∨ sign = [0x2D]) ∧ AllDigits digits

/-- The text of a number as far as the digits after its point. -/
def IsFraction (text : Bytes) : Prop :=
  ∃ whole digits : Bytes, text = whole ++ 0x2E :: digits ∧ IsWhole whole ∧ AllDigits digits

/-- What the exponent of a number follows. -/
def IsMantissa (text : Bytes) : Prop := IsWhole text ∨ IsFraction text

/-- The text of a number as far as the digits of its exponent. -/
def HasExponent (text : Bytes) : Prop :=
  ∃ (mantissa : Bytes) (mark : UInt8) (sign digits : Bytes),
    text = mantissa ++ mark :: (sign ++ digits) ∧ IsMantissa mantissa ∧
      NumberPart.isExponentMark mark = true ∧ IsSign sign ∧ AllDigits digits

/-- What has been written when a number has come as far as the given part of it. -/
def Spells (text : Bytes) : NumberPart → Prop
  | .sign | .zero | .whole => IsWhole text
  | .point | .fraction => IsFraction text
  | .exponentMark => ∃ mantissa mark, text = mantissa ++ [mark] ∧ IsMantissa mantissa ∧
      NumberPart.isExponentMark mark = true
  | .exponentSign | .exponent => HasExponent text

section

variable {text : Bytes} {byte : UInt8}

theorem IsWhole.snoc (whole : IsWhole text) (digit : Bytes.isDigit byte = true) :
    IsWhole (text ++ [byte]) := by
  obtain ⟨sign, digits, rfl, signed, all⟩ := whole
  exact ⟨sign, digits ++ [byte], List.append_assoc .., signed, all.snoc digit⟩

theorem IsFraction.snoc (fraction : IsFraction text) (digit : Bytes.isDigit byte = true) :
    IsFraction (text ++ [byte]) := by
  obtain ⟨whole, digits, rfl, before, all⟩ := fraction
  exact ⟨whole, digits ++ [byte], List.append_assoc .., before, all.snoc digit⟩

theorem HasExponent.snoc (exponent : HasExponent text) (digit : Bytes.isDigit byte = true) :
    HasExponent (text ++ [byte]) := by
  obtain ⟨mantissa, mark, sign, digits, rfl, before, known, signed, all⟩ := exponent
  refine ⟨mantissa, mark, sign, digits ++ [byte], ?_, before, known, signed, all.snoc digit⟩
  rw [List.append_assoc, List.cons_append, List.append_assoc]

theorem IsWhole.point (whole : IsWhole text) : IsFraction (text ++ [0x2E]) :=
  ⟨text, [], rfl, whole, allDigits_nil⟩

theorem Spells.step {part reached : NumberPart} (spells : Spells text part)
    (belongs : part.next? byte = some reached) : Spells (text ++ [byte]) reached := by
  cases part with
  | sign =>
    simp only [NumberPart.next?] at belongs
    split at belongs
    · next zero => cases belongs; subst zero; exact IsWhole.snoc spells rfl
    · split at belongs
      · next digit => cases belongs; exact IsWhole.snoc spells digit
      · cases belongs
  | zero =>
    simp only [NumberPart.next?] at belongs
    split at belongs
    · next point => cases belongs; subst point; exact IsWhole.point spells
    · split at belongs
      · next mark => cases belongs; exact ⟨text, byte, rfl, .inl spells, mark⟩
      · cases belongs
  | whole =>
    simp only [NumberPart.next?] at belongs
    split at belongs
    · next digit => cases belongs; exact IsWhole.snoc spells digit
    · split at belongs
      · next point => cases belongs; subst point; exact IsWhole.point spells
      · split at belongs
        · next mark => cases belongs; exact ⟨text, byte, rfl, .inl spells, mark⟩
        · cases belongs
  | point =>
    simp only [NumberPart.next?] at belongs
    split at belongs
    · next digit => cases belongs; exact IsFraction.snoc spells digit
    · cases belongs
  | fraction =>
    simp only [NumberPart.next?] at belongs
    split at belongs
    · next digit => cases belongs; exact IsFraction.snoc spells digit
    · split at belongs
      · next mark => cases belongs; exact ⟨text, byte, rfl, .inr spells, mark⟩
      · cases belongs
  | exponentMark =>
    obtain ⟨mantissa, mark, rfl, before, known⟩ := spells
    simp only [NumberPart.next?] at belongs
    split at belongs
    · next digit =>
      cases belongs
      exact ⟨mantissa, mark, [], [byte], List.append_assoc .., before, known, .inl rfl,
        allDigits_nil.snoc digit⟩
    · split at belongs
      · next sign =>
        cases belongs
        refine ⟨mantissa, mark, [byte], [], List.append_assoc .., before, known, .inr ?_,
          allDigits_nil⟩
        rcases sign with rfl | rfl
        · exact .inl rfl
        · exact .inr rfl
      · cases belongs
  | exponentSign =>
    simp only [NumberPart.next?] at belongs
    split at belongs
    · next digit => cases belongs; exact HasExponent.snoc spells digit
    · cases belongs
  | exponent =>
    simp only [NumberPart.next?] at belongs
    split at belongs
    · next digit => cases belongs; exact HasExponent.snoc spells digit
    · cases belongs

end

theorem isExponentMark_cases {mark : UInt8} (known : NumberPart.isExponentMark mark = true) :
    mark = 0x65 ∨ mark = 0x45 := by
  simpa [NumberPart.isExponentMark] using known

theorem endsDigits_mark {mark : UInt8} (known : NumberPart.isExponentMark mark = true)
    (written : Bytes) : EndsDigits (mark :: written) := by
  intro byte first
  obtain rfl := Option.some.inj first
  rcases isExponentMark_cases known with rfl | rfl <;> exact ⟨rfl, by decide⟩

theorem endsDigits_point (more : Bytes) : EndsDigits (0x2E :: more) := by
  intro byte first
  obtain rfl := Option.some.inj first
  exact ⟨rfl, by decide⟩

theorem unsigned_eq {sign digits rest : Bytes} (signed : sign = [] ∨ sign = [0x2D])
    (all : AllDigits digits) (ends : EndsDigits rest) :
    decide ((sign ++ (digits ++ rest)).head? = some 0x2D) = decide (sign = [0x2D]) ∧
      (if decide (sign = [0x2D]) = true then (sign ++ (digits ++ rest)).tail
        else sign ++ (digits ++ rest)) = digits ++ rest := by
  rcases signed with rfl | rfl
  · have plain := head?_ne_minus all ends
    exact ⟨decide_eq_decide.2 (iff_of_false plain (by decide)), rfl⟩
  · exact ⟨rfl, rfl⟩

/-- The text before the exponent fixes what the exponent is applied to, whatever exponent comes. So
whether more digits of it help depends on the exponent alone. -/
theorem exists_ofText? {mantissa : Bytes} (shape : IsMantissa mantissa) :
    ∃ negative scaled, ∀ mark written, NumberPart.isExponentMark mark = true →
      ofText? (mantissa ++ mark :: written) = Scaled.withExponent? negative scaled written := by
  rcases shape with ⟨sign, digits, rfl, signed, all⟩ |
    ⟨_, after, rfl, ⟨sign, digits, rfl, signed, all⟩, fine⟩
  · refine ⟨decide (sign = [0x2D]), Scaled.collectWhole 0 digits, fun mark written known => ?_⟩
    have ends := endsDigits_mark known written
    obtain ⟨negative, unsigned⟩ := unsigned_eq signed all ends
    obtain ⟨whole, rest⟩ := digits_split all ends
    rw [List.append_assoc, ofText?]
    simp only [negative, unsigned, whole, rest]
    rcases isExponentMark_cases known with rfl | rfl <;> rfl
  · refine ⟨decide (sign = [0x2D]), (Scaled.collectWhole 0 digits).collectFraction after,
      fun mark written known => ?_⟩
    have ends := endsDigits_point (after ++ mark :: written)
    obtain ⟨negative, unsigned⟩ := unsigned_eq signed all ends
    obtain ⟨whole, rest⟩ := digits_split all ends
    obtain ⟨fraction, exponent⟩ := digits_split fine (endsDigits_mark known written)
    rw [List.append_assoc, List.append_assoc, List.cons_append, ofText?]
    simp only [negative, unsigned, whole, rest, fraction, exponent]

/-- The sign and the digits of the exponent: all after its letter. -/
def writtenExponent (text : Bytes) : Bytes :=
  (text.dropWhile fun byte => !NumberPart.isExponentMark byte).tail

theorem writtenExponent_eq {mantissa : Bytes} (shape : IsMantissa mantissa) {mark : UInt8}
    (known : NumberPart.isExponentMark mark = true) (written : Bytes) :
    writtenExponent (mantissa ++ mark :: written) = written := by
  have digit : ∀ byte, Bytes.isDigit byte = true → NumberPart.isExponentMark byte = false := by
    intro byte digit
    refine Bool.eq_false_iff.2 fun mark => ?_
    rcases isExponentMark_cases mark with rfl | rfl <;> cases digit
  have whole : ∀ {text}, IsWhole text → ∀ byte ∈ text, NumberPart.isExponentMark byte = false := by
    rintro _ ⟨sign, digits, rfl, signed, all⟩ byte present
    rcases List.mem_append.1 present with first | later
    · rcases signed with rfl | rfl
      · cases first
      · rw [List.mem_singleton.1 first]; rfl
    · exact digit byte (all byte later)
  have plain : ∀ byte ∈ mantissa, NumberPart.isExponentMark byte = false := by
    rcases shape with before | ⟨text, digits, rfl, before, all⟩
    · exact whole before
    · intro byte present
      rcases List.mem_append.1 present with first | later
      · exact whole before byte first
      · rcases List.mem_cons.1 later with rfl | after
        · rfl
        · exact digit byte (all byte after)
  rw [writtenExponent,
    List.dropWhile_append_of_pos (fun byte present => by rw [plain byte present]; rfl),
    List.dropWhile_cons_of_neg (by rw [known]; decide), List.tail_cons]

/-- A number without an exponent is in range with a small enough one. -/
theorem exists_ofText?_of_mantissa {mantissa : Bytes} (shape : IsMantissa mantissa) :
    ∃ number, ofText? (mantissa ++ 0x65 :: 0x2D :: nines) = some number := by
  obtain ⟨negative, scaled, applied⟩ := exists_ofText? shape
  rw [applied 0x65 _ rfl]
  exact Scaled.exists_withExponent? allDigits_nil

/-- A number with a negative exponent is in range with enough digits more. -/
theorem exists_ofText?_of_exponent {text : Bytes} (exponent : HasExponent text)
    (down : (writtenExponent text).head? = some 0x2D) :
    ∃ number, ofText? (text ++ nines) = some number := by
  obtain ⟨mantissa, mark, sign, digits, rfl, before, known, signed, all⟩ := exponent
  rw [writtenExponent_eq before known, head?_eq_minus_iff signed all] at down
  obtain ⟨negative, scaled, applied⟩ := exists_ofText? before
  rw [down, List.append_assoc, List.cons_append, List.append_assoc, applied mark _ known]
  exact Scaled.exists_withExponent? all

end Unbraid.Json.Number
