import Unbraid.Toml.Scan

/-!
# Values of TOML

What a settings file says, once it is read. Numbers, dates and times are words without blanks, but
that a date and a time may have one space between them; so the word is read first and then sorted by
its form.
-/

namespace Unbraid.Toml

inductive Value where
  | string (text : String)
  | integer (value : Int)
  /-- A number with a fraction or an exponent, or one of the special ones, as it is written. -/
  | float (text : String)
  | bool (value : Bool)
  /-- A date, a time, or both, as it is written. -/
  | dateTime (text : String)
  | list (items : List Value)
  | table (entries : List (String × Value))

def isDigit (char : Char) : Bool := '0' ≤ char && char ≤ '9'

/-- The least number that takes more than 64 bits. -/
def wordEnd : Nat := 0x10000000000000000

/-- The number that digits of a base stand for; those that take more than 64 bits are not told
apart. Underscores between digits do not count; anything else, and an underscore elsewhere, is no
number. -/
def natural? (base : Nat) (text : List Char) : Option Nat :=
  let value? (char : Char) : Option Nat :=
    let value :=
      if isDigit char then char.toNat - '0'.toNat
      else if 'a' ≤ char ∧ char ≤ 'f' then char.toNat - 'a'.toNat + 10
      else if 'A' ≤ char ∧ char ≤ 'F' then char.toNat - 'A'.toNat + 10
      else base
    if value < base then some value else none
  let rec go (n : Nat) : List Char → Option Nat
    | [] => some n
    | '_' :: char :: rest =>
      (value? char).bind fun value => go (min wordEnd (n * base + value)) rest
    | char :: rest => (value? char).bind fun value => go (min wordEnd (n * base + value)) rest
  match text with
  | [] => none
  | first :: rest => (value? first).bind fun value => go value rest

def signed : List Char → Bool × List Char
  | '-' :: rest => (true, rest)
  | '+' :: rest => (false, rest)
  | text => (false, text)

/-- A decimal number that does not start with a zero in vain. -/
def decimal? (text : List Char) : Option Nat :=
  match text with
  | '0' :: _ :: _ => none
  | _ => natural? 10 text

/-- An integer of 64 bits. Only a decimal one has a sign. -/
def integer? (text : List Char) : Option Int :=
  let within (n : Nat) (negative : Bool) : Option Int :=
    if negative then (if n ≤ 0x8000000000000000 then some (-(n : Int)) else none)
    else if n < 0x8000000000000000 then some n
    else none
  match text with
  | '0' :: 'x' :: rest => (natural? 16 rest).bind (within · false)
  | '0' :: 'o' :: rest => (natural? 8 rest).bind (within · false)
  | '0' :: 'b' :: rest => (natural? 2 rest).bind (within · false)
  | _ =>
    let (negative, rest) := signed text
    (decimal? rest).bind (within · negative)

def exponent? (text : List Char) : Option Int :=
  let (negative, rest) := signed text
  (natural? 10 rest).map fun n => if negative then -(n : Int) else n

/-- How many digits the largest double has. -/
def maxDigits : Nat := 309

/-- The least number that is too large for a double: halfway between the largest one and the power
of two after it. -/
def doubleEnd : Nat := Nat.pow 2 1024 - Nat.pow 2 970

/-- Is the number that decimal digits and a power of ten stand for too large for a double? That
shows in the leading digits, as many as the largest double has, since the bound is an integer. -/
def overflows (digits : List Char) (exponent : Int) : Bool :=
  let digits := digits.dropWhile fun char => char = '0'
  let leading := digits.length + exponent
  if digits = [] ∨ leading < maxDigits then false
  else if maxDigits < leading then true
  else
    let value (n : Nat) (char : Char) : Nat := n * 10 + (char.toNat - '0'.toNat)
    doubleEnd ≤ (digits.take maxDigits).foldl value 0 * Nat.pow 10 (maxDigits - digits.length)

/-- Has the text the form of a decimal fraction, with digits before the point and a fraction, an
exponent or both after them? One that is too large is none. -/
def isFraction (text : List Char) : Bool :=
  let (negative, unsigned) := signed text
  let whole := unsigned.takeWhile fun char => isDigit char || char = '_'
  let rest := unsigned.drop whole.length
  let isExponentMark (char : Char) : Bool := char = 'e' || char = 'E'
  let small (digits : List Char) (exponent : Int) : Bool :=
    negative || !overflows (digits.filter isDigit) exponent
  match decimal? whole, rest with
  | some _, '.' :: rest =>
    let fraction := rest.takeWhile fun char => isDigit char || char = '_'
    let places := fraction.countP isDigit
    match natural? 10 fraction, rest.drop fraction.length with
    | some _, [] => small (whole ++ fraction) (-(places : Int))
    | some _, mark :: rest =>
      match isExponentMark mark, exponent? rest with
      | true, some exponent => small (whole ++ fraction) (exponent - places)
      | _, _ => false
    | none, _ => false
  | some _, mark :: rest =>
    match isExponentMark mark, exponent? rest with
    | true, some exponent => small whole exponent
    | _, _ => false
  | _, _ => false

def isSpecial (text : List Char) : Bool :=
  let (_, unsigned) := signed text
  unsigned = ['i', 'n', 'f'] || unsigned = ['n', 'a', 'n']

/-- The number of exactly so many digits at the beginning of a text. -/
def fixed? (count : Nat) : Scan Nat := fun text =>
  let digits := text.takeWhile isDigit |>.take count
  if digits.length = count then (natural? 10 digits).map (·, text.drop count) else none

def daysIn (year month : Nat) : Nat :=
  let leap := year % 4 = 0 ∧ (year % 100 ≠ 0 ∨ year % 400 = 0)
  if month = 2 then (if leap then 29 else 28)
  else if month ∈ [4, 6, 9, 11] then 30
  else 31

def afterDate? (text : List Char) : Option (List Char) := do
  let (year, text) ← fixed? 4 text
  let (month, text) ← fixed? 2 (← afterChar? '-' text)
  let (day, text) ← fixed? 2 (← afterChar? '-' text)
  guard (1 ≤ month ∧ month ≤ 12 ∧ 1 ≤ day ∧ day ≤ daysIn year month)
  return text

/-- What follows a time of day; the seconds may have a fraction and be sixty. -/
def afterTime? (text : List Char) : Option (List Char) := do
  let (hour, text) ← fixed? 2 text
  let (minute, text) ← fixed? 2 (← afterChar? ':' text)
  let (second, text) ← fixed? 2 (← afterChar? ':' text)
  guard (hour ≤ 23 ∧ minute ≤ 59 ∧ second ≤ 60)
  match text with
  | '.' :: digit :: rest => if isDigit digit then some (rest.dropWhile isDigit) else none
  | '.' :: [] => none
  | _ => some text

def isOffset (text : List Char) : Bool :=
  match text with
  | [] | ['Z'] | ['z'] => true
  | sign :: rest =>
    (sign = '+' || sign = '-') &&
    match fixed? 2 rest with
    | some (hour, ':' :: rest) =>
      match fixed? 2 rest with
      | some (minute, []) => hour ≤ 23 && minute ≤ 59
      | _ => false
    | _ => false

/-- Is the text a date, a time, or a date with a time and perhaps an offset? -/
def isDateTime (text : List Char) : Bool :=
  match afterDate? text with
  | some [] => true
  | some (delimiter :: rest) =>
    (delimiter = 'T' || delimiter = 't' || delimiter = ' ') && (afterTime? rest).any isOffset
  | none => afterTime? text = some []

def isWordChar (char : Char) : Bool :=
  isDigit char || ('a' ≤ char && char ≤ 'z') || ('A' ≤ char && char ≤ 'Z')
    || char = '+' || char = '-' || char = '_' || char = '.' || char = ':'

/-- The word at the beginning of a text. A date takes a space and a time after it along. -/
def word (text : List Char) : List Char :=
  let first := text.takeWhile isWordChar
  match afterDate? first, text.drop first.length with
  | some [], ' ' :: digit :: rest =>
    if isDigit digit then first ++ ' ' :: (digit :: rest).takeWhile isWordChar else first
  | _, _ => first

/-- A number, a date or time, or a truth value. -/
def scalar? : Scan Value := fun text =>
  let word := word text
  let rest := text.drop word.length
  if word = "true".toList then some (.bool true, rest)
  else if word = "false".toList then some (.bool false, rest)
  else if isDateTime word then some (.dateTime (String.ofList word), rest)
  else if isFraction word || isSpecial word then some (.float (String.ofList word), rest)
  else (integer? word).map fun value => (.integer value, rest)

end Unbraid.Toml
