/-!
# Shortest decimals

The shortest decimal that identifies a double. A double stands for an interval of numbers, those
that are nearer to it than to any other double; `Binary.readsBack` says exactly which decimals lie
in it. `Binary.shortest` takes the coarsest power of ten of which some multiple lies in the
interval, and of two such multiples the nearer one, a tie going to the even digit.
-/

namespace Unbraid

/-- A positive binary number `significand * 2 ^ exponent`. -/
structure Binary where
  significand : Nat
  exponent : Int
  /-- The gap to the double below is half as wide as the gap to the double above. -/
  narrowBelow : Bool
  deriving DecidableEq, Repr

/-- The number `digits * 10 ^ exponent`. -/
structure Decimal where
  digits : Nat
  exponent : Int
  deriving DecidableEq, Repr

namespace Binary

/-- The magnitude that the bits of a finite double stand for. -/
def ofBits (bits : UInt64) : Binary :=
  let exponent := ((bits >>> 52) &&& 0x7FF).toNat
  let fraction := (bits &&& 0xFFFFFFFFFFFFF).toNat
  if exponent = 0 then ⟨fraction, -1074, false⟩
  else ⟨0x10000000000000 + fraction, (exponent : Int) - 1075, fraction == 0 && exponent != 1⟩

/-- Orders `a * 10 ^ i` and `n * 2 ^ j`. -/
def compareScaled (a : Nat) (i : Int) (n : Nat) (j : Int) : Ordering :=
  compare (a * Nat.pow 10 i.toNat * Nat.pow 2 (-j).toNat)
    (n * Nat.pow 2 j.toNat * Nat.pow 10 (-i).toNat)

/-- Does a decimal lie in the interval of a double? The ends of the interval are halfway to the
neighbours; they belong to it if the significand is even. -/
def readsBack (x : Binary) (d : Decimal) : Bool :=
  let low := if x.narrowBelow then 4 * x.significand - 1 else 4 * x.significand - 2
  let high := 4 * x.significand + 2
  let withEnds := x.significand % 2 == 0
  let atLow := compareScaled d.digits d.exponent low (x.exponent - 2)
  let atHigh := compareScaled d.digits d.exponent high (x.exponent - 2)
  (atLow == .gt || (withEnds && atLow == .eq)) && (atHigh == .lt || (withEnds && atHigh == .eq))

/-- The greatest multiple of `10 ^ exponent` that is not above the number, counted in such steps. -/
def floorAt (x : Binary) (exponent : Int) : Nat :=
  (x.significand * Nat.pow 2 x.exponent.toNat * Nat.pow 10 (-exponent).toNat)
    / (Nat.pow 2 (-x.exponent).toNat * Nat.pow 10 exponent.toNat)

/-- The multiple of `10 ^ exponent` that stands for the number, if there is one. -/
def onGrid? (x : Binary) (exponent : Int) : Option Decimal :=
  let below : Decimal := ⟨x.floorAt exponent, exponent⟩
  let above : Decimal := ⟨x.floorAt exponent + 1, exponent⟩
  match x.readsBack below, x.readsBack above with
  | false, false => none
  | true, false => some below
  | false, true => some above
  | true, true =>
    match compareScaled (below.digits + above.digits) exponent (2 * x.significand) x.exponent with
    | .lt => some above
    | .gt => some below
    | .eq => some (if below.digits % 2 = 0 then below else above)

def search (x : Binary) : Nat → Int → Option Decimal
  | 0, _ => none
  | tries + 1, exponent => (x.onGrid? exponent).orElse fun _ => x.search tries (exponent - 1)

/-- A power of ten above the number, by less than a thousandfold. -/
def scale (x : Binary) : Int := ((x.significand.log2 : Int) + 1 + x.exponent) * 30103 / 100000 + 2

def exact (x : Binary) : Decimal :=
  if 0 ≤ x.exponent then ⟨x.significand * Nat.pow 2 x.exponent.toNat, 0⟩
  else ⟨x.significand * Nat.pow 5 (-x.exponent).toNat, x.exponent⟩

/-- The shortest decimal that identifies the number. Seventeen digits identify every double, so the
search ends before the exact digits are needed. -/
def shortest (x : Binary) : Decimal := (x.search 24 x.scale).getD x.exact

end Binary

end Unbraid
