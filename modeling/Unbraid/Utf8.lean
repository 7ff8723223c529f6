import Unbraid.Bytes

/-!
# Text from any bytes

A reading of bytes as UTF-8 that never fails: where they are not well formed, the replacement
character stands for the longest beginning of a character that is there, or for one byte.
-/

namespace Unbraid.Utf8

/-- The range of bytes that carry on a character, apart from the second byte of some. -/
def tail : UInt8 × UInt8 := (0x80, 0xBF)

/-- The ranges of the bytes that must follow a first byte; nothing for a byte that is never the
first. The narrower ranges keep out longer forms than needed, surrogates and numbers above
`0x10FFFF`. -/
def following? (first : UInt8) : Option (List (UInt8 × UInt8)) :=
  if first < 0x80 then some []
  else if first < 0xC2 then none
  else if first < 0xE0 then some [tail]
  else if first = 0xE0 then some [(0xA0, 0xBF), tail]
  else if first = 0xED then some [(0x80, 0x9F), tail]
  else if first < 0xF0 then some [tail, tail]
  else if first = 0xF0 then some [(0x90, 0xBF), tail, tail]
  else if first < 0xF4 then some [tail, tail, tail]
  else if first = 0xF4 then some [(0x80, 0x8F), tail, tail]
  else none

/-- The longest beginning of the bytes that lies in the ranges, byte by byte. -/
def within : List (UInt8 × UInt8) → Bytes → Bytes
  | (low, high) :: ranges, byte :: rest =>
    if low ≤ byte ∧ byte ≤ high then byte :: within ranges rest else []
  | _, _ => []

def charOf (first : UInt8) (others : Bytes) : Char :=
  let lead := match others.length with
    | 0 => first.toNat
    | 1 => first.toNat - 0xC0
    | 2 => first.toNat - 0xE0
    | _ => first.toNat - 0xF0
  Char.ofNat (others.foldl (fun code byte => code * 64 + (byte.toNat - 0x80)) lead)

def lossyChars : Bytes → List Char
  | [] => []
  | first :: rest =>
    match following? first with
    | none => '\uFFFD' :: lossyChars rest
    | some ranges =>
      let others := within ranges rest
      (if others.length = ranges.length then charOf first others else '\uFFFD')
        :: lossyChars (rest.drop others.length)
termination_by bytes => bytes.length
decreasing_by all_goals (simp only [List.length_cons, List.length_drop]; omega)

end Unbraid.Utf8
