import Unbraid.Bytes

/-!
# The grammar of JSON

The grammar of JSON as a machine that takes one byte at a time. `State.step` gives the state after
a byte, or nothing if no JSON text goes on like that; it also tells what the byte settled, as marks,
from which a reader can build the value. `State.ending` says what the text amounts to if it ends
in a state.

Nesting is unlimited here, numbers have no range, and the bytes of a string may be anything from
0x20 on: whoever builds values from the marks adds those limits.
-/

namespace Unbraid.Json

/-- The two kinds of container. -/
inductive Bracket where
  | list
  | object
  deriving DecidableEq, Repr

def Bracket.closing : Bracket → UInt8
  | list => 0x5D
  | object => 0x7D

/-- The three words of JSON. -/
inductive Word where
  | null
  | bool (value : Bool)
  deriving DecidableEq, Repr

def Word.letters : Word → Bytes
  | null => [0x6E, 0x75, 0x6C, 0x6C]
  | bool true => [0x74, 0x72, 0x75, 0x65]
  | bool false => [0x66, 0x61, 0x6C, 0x73, 0x65]

/-- How far a number has come. -/
inductive NumberPart where
  /-- Only the minus sign. -/
  | sign
  /-- A single zero before the point. -/
  | zero
  /-- Digits before the point, the first of them not zero. -/
  | whole
  /-- The point, with no digit after it yet. -/
  | point
  /-- Digits after the point. -/
  | fraction
  /-- The letter of the exponent. -/
  | exponentMark
  /-- The sign of the exponent. -/
  | exponentSign
  /-- Digits of the exponent. -/
  | exponent
  deriving DecidableEq, Repr

namespace NumberPart

def canEnd : NumberPart → Bool
  | zero | whole | fraction | exponent => true
  | sign | point | exponentMark | exponentSign => false

def isExponentMark (byte : UInt8) : Bool := byte = 0x65 || byte = 0x45

/-- How far the number has come with one more byte, if the byte belongs to it. -/
def next? (part : NumberPart) (byte : UInt8) : Option NumberPart :=
  match part with
  | sign => if byte = 0x30 then some zero else if Bytes.isDigit byte then some whole else none
  | zero =>
    if byte = 0x2E then some point else if isExponentMark byte then some exponentMark else none
  | whole =>
    if Bytes.isDigit byte then some whole
    else if byte = 0x2E then some point
    else if isExponentMark byte then some exponentMark
    else none
  | point => if Bytes.isDigit byte then some fraction else none
  | fraction =>
    if Bytes.isDigit byte then some fraction
    else if isExponentMark byte then some exponentMark
    else none
  | exponentMark =>
    if Bytes.isDigit byte then some exponent
    else if byte = 0x2B ∨ byte = 0x2D then some exponentSign
    else none
  | exponentSign | exponent => if Bytes.isDigit byte then some exponent else none

end NumberPart

/-- How far a string has come. -/
inductive StringPart where
  /-- Between two characters. -/
  | plain
  /-- After a backslash. -/
  | escape
  /-- After `\u`, with the bytes seen since; four are needed. -/
  | hex (seen : Bytes)
  deriving DecidableEq, Repr

/-- What a string is for. -/
inductive Role where
  | key
  | value
  deriving DecidableEq, Repr

/-- Where in a JSON text a reader stands. -/
inductive Place where
  /-- A value must start. -/
  | value
  /-- After an opening square bracket: a value, or the closing bracket. -/
  | firstItem
  /-- After an opening brace: a key, or the closing brace. -/
  | firstKey
  /-- After a comma in an object: a key. -/
  | key
  /-- After a key: the colon. -/
  | colon
  /-- After a value: a comma, a closing bracket, or nothing more at the outermost level. -/
  | after
  /-- In a word, with the letters still to come. -/
  | word (word : Word) (rest : Bytes)
  /-- In a number. -/
  | number (part : NumberPart)
  /-- In a string. -/
  | string (role : Role) (part : StringPart)
  deriving DecidableEq, Repr

/-- What a byte settles about the value that is being read. -/
inductive Mark where
  | opened (bracket : Bracket)
  | closed (bracket : Bracket)
  | word (word : Word)
  /-- A byte of a number. -/
  | numberByte (byte : UInt8)
  | numberEnd
  /-- A byte of a string; a short escape stands for one byte. -/
  | textByte (byte : UInt8)
  /-- A 16-bit unit written as `\u` and four digits. -/
  | textUnit (unit : Nat)
  | keyEnd
  | textEnd
  deriving DecidableEq, Repr

/-- A place, with the containers open around it, the innermost first. -/
structure State where
  place : Place
  opened : List Bracket
  deriving DecidableEq, Repr

/-- What a JSON text that ends in a state amounts to. -/
inductive Ending where
  /-- One whole value. -/
  | whole
  /-- A value that has not ended. -/
  | cut
  /-- A number without the digits that its sign, point or exponent asks for. -/
  | cutNumber
  deriving DecidableEq, Repr

namespace State

def start : State := ⟨.value, []⟩

/-- Is the byte a blank of JSON: space, tab, line feed or carriage return? -/
def isBlank (byte : UInt8) : Bool := byte = 0x20 || byte = 0x09 || byte = 0x0A || byte = 0x0D

def startValue (opened : List Bracket) (byte : UInt8) : Option (State × List Mark) :=
  if byte = 0x22 then some (⟨.string .value .plain, opened⟩, [])
  else if byte = 0x5B then some (⟨.firstItem, .list :: opened⟩, [.opened .list])
  else if byte = 0x7B then some (⟨.firstKey, .object :: opened⟩, [.opened .object])
  else if byte = 0x6E then some (⟨.word .null (Word.letters .null).tail, opened⟩, [])
  else if byte = 0x74 then some (⟨.word (.bool true) (Word.letters (.bool true)).tail, opened⟩, [])
  else if byte = 0x66 then
    some (⟨.word (.bool false) (Word.letters (.bool false)).tail, opened⟩, [])
  else if byte = 0x2D then some (⟨.number .sign, opened⟩, [.numberByte byte])
  else if byte = 0x30 then some (⟨.number .zero, opened⟩, [.numberByte byte])
  else if Bytes.isDigit byte then some (⟨.number .whole, opened⟩, [.numberByte byte])
  else none

def stepAfter : List Bracket → UInt8 → Option (State × List Mark)
  | [], byte => if isBlank byte then some (⟨.after, []⟩, []) else none
  | bracket :: outer, byte =>
    if isBlank byte then some (⟨.after, bracket :: outer⟩, [])
    else if byte = 0x2C then
      some (⟨match bracket with | .list => .value | .object => .key, bracket :: outer⟩, [])
    else if byte = bracket.closing then some (⟨.after, outer⟩, [.closed bracket])
    else none

def shortEscape? (byte : UInt8) : Option UInt8 :=
  if byte = 0x22 ∨ byte = 0x5C ∨ byte = 0x2F then some byte
  else if byte = 0x62 then some 0x08
  else if byte = 0x66 then some 0x0C
  else if byte = 0x6E then some 0x0A
  else if byte = 0x72 then some 0x0D
  else if byte = 0x74 then some 0x09
  else none

def unit? (digits : Bytes) : Option Nat :=
  digits.foldlM (fun n digit => (Bytes.hexValue? digit).map (n * 16 + ·)) 0

/-- A byte inside a string. The bytes after `\u` are judged when the fourth has come. -/
def stepString (opened : List Bracket) (role : Role) (part : StringPart) (byte : UInt8) :
    Option (State × List Mark) :=
  match part with
  | .plain =>
    if byte = 0x22 then
      match role with
      | .key => some (⟨.colon, opened⟩, [.keyEnd])
      | .value => some (⟨.after, opened⟩, [.textEnd])
    else if byte = 0x5C then some (⟨.string role .escape, opened⟩, [])
    else if byte < 0x20 then none
    else some (⟨.string role .plain, opened⟩, [.textByte byte])
  | .escape =>
    if byte = 0x75 then some (⟨.string role (.hex []), opened⟩, [])
    else (shortEscape? byte).map fun meant => (⟨.string role .plain, opened⟩, [.textByte meant])
  | .hex seen =>
    if seen.length < 3 then some (⟨.string role (.hex (seen ++ [byte])), opened⟩, [])
    else (unit? (seen ++ [byte])).map fun unit => (⟨.string role .plain, opened⟩, [.textUnit unit])

/-- The state after one more byte, and what the byte settles; nothing if no JSON text goes on so. -/
def step (state : State) (byte : UInt8) : Option (State × List Mark) :=
  match state.place with
  | .value => if isBlank byte then some (state, []) else startValue state.opened byte
  | .firstItem =>
    if isBlank byte then some (state, [])
    else if byte = Bracket.closing .list then stepAfter state.opened byte
    else startValue state.opened byte
  | .firstKey =>
    if isBlank byte then some (state, [])
    else if byte = Bracket.closing .object then stepAfter state.opened byte
    else if byte = 0x22 then some (⟨.string .key .plain, state.opened⟩, [])
    else none
  | .key =>
    if isBlank byte then some (state, [])
    else if byte = 0x22 then some (⟨.string .key .plain, state.opened⟩, [])
    else none
  | .colon =>
    if isBlank byte then some (state, [])
    else if byte = 0x3A then some (⟨.value, state.opened⟩, [])
    else none
  | .after => stepAfter state.opened byte
  | .word _ [] => none
  | .word word [last] => if byte = last then some (⟨.after, state.opened⟩, [.word word]) else none
  | .word word (letter :: rest) =>
    if byte = letter then some (⟨.word word rest, state.opened⟩, []) else none
  | .number part =>
    match part.next? byte with
    | some part => some (⟨.number part, state.opened⟩, [.numberByte byte])
    | none =>
      if part.canEnd then
        (stepAfter state.opened byte).map fun (next, marks) => (next, .numberEnd :: marks)
      else none
  | .string role part => stepString state.opened role part byte

/-- What the text amounts to if it ends here. -/
def ending (state : State) : Ending :=
  match state.place with
  | .after => if state.opened = [] then .whole else .cut
  | .number part =>
    if part.canEnd then (if state.opened = [] then .whole else .cut) else .cutNumber
  | _ => .cut

/-- What the end of the text settles: a number may end with it. -/
def endMarks (state : State) : List Mark :=
  match state.place with
  | .number part => if part.canEnd then [.numberEnd] else []
  | _ => []

end State

end Unbraid.Json
