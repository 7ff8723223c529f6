import Unbraid.Json.Value

/-!
# Numbers of JSON

The number that a number's text stands for. Integers of 64 bits are kept as they are. Every other
number becomes a double: its leading digits are collected in a significand of 64 bits, and the
significand is multiplied or divided by a power of ten. The result need not be the nearest double;
one that is too large is out of range.
-/

namespace Unbraid.Json.Number

/-- A number as digits and a power of ten. -/
structure Scaled where
  significand : Nat
  exponent : Int
  deriving DecidableEq, Repr

def digit (byte : UInt8) : Nat := byte.toNat - 0x30

/-- The least number that takes more than 64 bits. -/
def wordEnd : Nat := 0x10000000000000000

/-- The natural number that digits stand for. Those that take more than 64 bits are not told apart.
-/
def ofDigits (digits : Bytes) : Nat :=
  digits.foldl (fun n byte => min wordEnd (n * 10 + digit byte)) 0

/-- Collects the digits before the point. Once one does not fit, that one and all later ones only
count as powers of ten. -/
def Scaled.collectWhole (significand : Nat) : Bytes → Scaled
  | [] => ⟨significand, 0⟩
  | byte :: rest =>
    let longer := significand * 10 + digit byte
    if longer < wordEnd then collectWhole longer rest else ⟨significand, rest.length + 1⟩

/-- Collects the digits after the point. Once one does not fit, that one and all later ones are
left out. -/
def Scaled.collectFraction (scaled : Scaled) : Bytes → Scaled
  | [] => scaled
  | byte :: rest =>
    let longer := scaled.significand * 10 + digit byte
    if longer < wordEnd then collectFraction ⟨longer, scaled.exponent - 1⟩ rest else scaled

def powerOfTen (n : Nat) : Float := Float.ofScientific 1 false n

/-- Multiplies by a power of ten, in steps that the range of doubles allows; nothing if the result
is out of range. -/
def shift? (x : Float) (exponent : Int) : Option Float :=
  if exponent < -308 then
    if x == 0.0 then some x else shift? (x / powerOfTen 308) (exponent + 308)
  else if exponent < 0 then some (x / powerOfTen exponent.natAbs)
  else if exponent ≤ 308 then
    let product := x * powerOfTen exponent.natAbs
    if product.isInf then none else some product
  else if x == 0.0 then some x
  else none
termination_by exponent.natAbs
decreasing_by omega

def Scaled.double? (negative : Bool) (scaled : Scaled) : Option Number :=
  (shift? scaled.significand.toUInt64.toFloat scaled.exponent).map fun x =>
    .double (if negative then -x else x)

/-- The largest exponent that is told from all larger ones. -/
def maxExponent : Nat := 0x7FFFFFFF

/-- Applies a written exponent. One beyond all bounds gives zero if it is negative or there is
nothing to scale, and else is out of range. -/
def Scaled.withExponent? (negative : Bool) (scaled : Scaled) (written : Bytes) : Option Number :=
  let down := written.head? = some 0x2D
  let size := ofDigits (written.dropWhile fun byte => byte = 0x2B || byte = 0x2D)
  if maxExponent < size then
    if down ∨ scaled.significand = 0 then some (.double (if negative then -0.0 else 0.0)) else none
  else
    let exponent := if down then scaled.exponent - size else scaled.exponent + size
    Scaled.double? negative ⟨scaled.significand, exponent⟩

/-- An integer, if it has 64 bits; minus zero is no integer. -/
def integer? (negative : Bool) (digits : Bytes) : Option Number :=
  let n := ofDigits digits
  if negative then
    if n = 0 ∨ 0x8000000000000000 < n then none else some (.integer (-(n : Int)))
  else if n < wordEnd then some (.integer n)
  else none

/-- The number that a text stands for, if it is in range. The text follows the grammar of numbers.
-/
def ofText? (text : Bytes) : Option Number :=
  let negative : Bool := text.head? = some 0x2D
  let unsigned := if negative then text.tail else text
  let whole := unsigned.takeWhile Bytes.isDigit
  let rest := unsigned.dropWhile Bytes.isDigit
  let collected := Scaled.collectWhole 0 whole
  match rest with
  | [] => (integer? negative whole).orElse fun _ => collected.double? negative
  | 0x2E :: rest =>
    let collected := collected.collectFraction (rest.takeWhile Bytes.isDigit)
    match rest.dropWhile Bytes.isDigit with
    | [] => collected.double? negative
    | _ :: written => collected.withExponent? negative written
  | _ :: written => collected.withExponent? negative written

end Unbraid.Json.Number
