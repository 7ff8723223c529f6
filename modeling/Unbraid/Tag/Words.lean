import Unbraid.Tag

/-!
# Positions that are machine words

Whoever looks for tags gives a position as a word of 64 bits. The search first adds the length of a
tag, and near the largest word this sum does not fit. A program that checks its sums then stops.
One that does not goes on with the remainder: if the buffer reaches that far, the position passes
for one inside the buffer, and the program stops at the bytes it asks for there.
-/

namespace Unbraid

/-- What a program does about a sum or a difference that is no word. -/
inductive Overflow where
  /-- It stops. -/
  | stops
  /-- It goes on with the remainder modulo `UInt64.size`. -/
  | wraps
  deriving DecidableEq, Repr

/-- The sum of two words. Nothing if the program stops. -/
def Overflow.sum? (overflow : Overflow) (n m : Nat) : Option Nat :=
  if n + m < UInt64.size then some (n + m)
  else match overflow with
    | stops => none
    | wraps => some ((n + m) % UInt64.size)

namespace Overflow

theorem sum?_eq {n m : Nat} (overflow : Overflow) (word : n + m < UInt64.size) :
    overflow.sum? n m = some (n + m) := if_pos word

theorem sum?_stops {n m : Nat} (exceeds : UInt64.size ≤ n + m) : stops.sum? n m = none :=
  if_neg (Nat.not_lt_of_le exceeds)

theorem sum?_wraps {n m : Nat} (exceeds : UInt64.size ≤ n + m) :
    wraps.sum? n m = some ((n + m) % UInt64.size) :=
  if_neg (Nat.not_lt_of_le exceeds)

end Overflow

namespace TagPair

/-- As `kindAt?`. Nothing if the program stops. -/
def kindAtWord? (tags : TagPair) (overflow : Overflow) (buffer : Bytes) (position : UInt64) :
    Option (Option TagKind) := do
  let _ ← overflow.sum? position.toNat tags.length
  some (tags.kindAt? buffer position.toNat)

/-- As `findFrom`. Nothing if the program stops. -/
def findFromWord? (tags : TagPair) (overflow : Overflow) (buffer : Bytes) (start : UInt64) :
    Option (Option Hit) := do
  let stop ← overflow.sum? start.toNat tags.length
  if stop < start.toNat ∧ stop ≤ buffer.length then none
  else some (tags.findFrom buffer start.toNat)

/-- As `findNext`. Nothing if the program stops. -/
def findNextWord? (tags : TagPair) (overflow : Overflow) (buffer : Bytes) (offset : UInt64) :
    Option (Option Hit) := do
  let start ← overflow.sum? offset.toNat tags.length
  tags.findFromWord? overflow buffer (.ofNat start)

end TagPair

end Unbraid
