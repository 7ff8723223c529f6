import Unbraid.Decimal.Shortest
import Unbraid.Json.Value

/-!
# The compact text of JSON

The compact text of a value: no blanks, the members of an object in the order of their keys. Each
value has one such text, so it can stand for the value where values are compared.
-/

namespace Unbraid.Json

/-- The letter of a short escape, for the characters that have one. -/
def escapeLetter? (char : Char) : Option Char :=
  if char = '"' ∨ char = '\\' then some char
  else if char = '\x08' then some 'b'
  else if char = '\x0c' then some 'f'
  else if char = '\n' then some 'n'
  else if char = '\r' then some 'r'
  else if char = '\t' then some 't'
  else none

/-- A character inside a string. Only the quote, the backslash and the characters below the space
are escaped. -/
def escapeChar (char : Char) : List Char :=
  match escapeLetter? char with
  | some letter => ['\\', letter]
  | none =>
    if char.toNat < 0x20 then
      ['\\', 'u', '0', '0', Bytes.hexDigit (char.toNat / 16), Bytes.hexDigit (char.toNat % 16)]
    else [char]

def quoted (text : String) : List Char := '"' :: text.toList.flatMap escapeChar ++ ['"']

def digits (n : Nat) : List Char := Nat.toDigits 10 n

/-- A positive number from its shortest digits. From `0.00001` to below `1e+16` it is written with
a point, otherwise with a signed exponent. -/
def decimalText (decimal : Decimal) : List Char :=
  let written := digits decimal.digits
  let leading := decimal.exponent + written.length - 1
  if 0 ≤ decimal.exponent ∧ leading < 16 then
    written ++ List.replicate decimal.exponent.toNat '0' ++ ['.', '0']
  else if 0 ≤ leading ∧ leading < 16 then
    written.take (leading.toNat + 1) ++ '.' :: written.drop (leading.toNat + 1)
  else if -6 < leading ∧ leading < 0 then
    '0' :: '.' :: List.replicate (-leading - 1).toNat '0' ++ written
  else
    let fraction := written.drop 1
    written.take 1 ++ (if fraction = [] then [] else '.' :: fraction)
      ++ 'e' :: (if leading < 0 then '-' else '+') :: digits leading.natAbs

def doubleText (x : Float) : List Char :=
  let bits := x.toBits
  let magnitude := bits &&& 0x7FFFFFFFFFFFFFFF
  (if bits = magnitude then [] else ['-'])
    ++ if magnitude = 0 then ['0', '.', '0']
       else decimalText (Binary.ofBits magnitude).shortest

def Number.chars : Number → List Char
  | integer value => (if value < 0 then ['-'] else []) ++ digits value.natAbs
  | double value => doubleText value

mutual

def Value.chars : Value → List Char
  | .null => ['n', 'u', 'l', 'l']
  | .bool true => ['t', 'r', 'u', 'e']
  | .bool false => ['f', 'a', 'l', 's', 'e']
  | .number number => number.chars
  | .string text => quoted text
  | .list items => '[' :: itemsChars items
  | .object members => '\x7b' :: membersChars members

def itemsChars : List Value → List Char
  | [] => [']']
  | [item] => item.chars ++ [']']
  | item :: rest => item.chars ++ ',' :: itemsChars rest

def membersChars : List (String × Value) → List Char
  | [] => ['\x7d']
  | [(key, value)] => quoted key ++ ':' :: value.chars ++ ['\x7d']
  | (key, value) :: rest => quoted key ++ ':' :: value.chars ++ ',' :: membersChars rest

end

def Value.text (value : Value) : String := String.ofList value.chars

end Unbraid.Json
