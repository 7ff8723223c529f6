import Unbraid.Json.Grammar
import Unbraid.Json.Number

/-!
# Reading JSON

Reading one JSON value from the bytes of a body. A body that was cut is told from one that can
never be read: `probe` says so by the grammar alone, `decode` builds the value and so also
minds what the grammar leaves open: nesting, the range of numbers, UTF-8 and surrogate pairs.
-/

namespace Unbraid.Json

/-- How a body reads by the grammar alone. -/
inductive Verdict where
  /-- One whole value, with blanks around it or not. -/
  | complete
  /-- The beginning of a value. -/
  | incomplete
  /-- Neither. -/
  | malformed
  deriving DecidableEq, Repr

/-- How a body reads as a value. -/
inductive Decoded where
  | complete (value : Value)
  | incomplete
  | malformed

def Decoded.verdict : Decoded → Verdict
  | complete _ => .complete
  | incomplete => .incomplete
  | malformed => .malformed

/-- The state after some bytes, and what a reader made of the marks on the way. -/
def State.read {σ : Type} (take : σ → Mark → Option σ) (state : State) (reader : σ) :
    Bytes → Option (State × σ)
  | [] => some (state, reader)
  | byte :: rest =>
    match state.step byte with
    | none => none
    | some (next, marks) =>
      match marks.foldlM take reader with
      | none => none
      | some reader => next.read take reader rest

/-- Judges a body by the grammar alone: nesting, the range of numbers and the bytes of strings do
not matter. A number that ends where a digit is due is malformed, although the digit may come. -/
def probe (body : Bytes) : Verdict :=
  match State.start.read (fun _ _ => some ()) () body with
  | none => .malformed
  | some (state, _) =>
    match state.ending with
    | .whole => .complete
    | .cut => .incomplete
    | .cutNumber => .malformed

inductive Context where
  /-- The items so far, the latest first. -/
  | list (items : List Value)
  /-- The members so far, and the key of the member that is being read. -/
  | object (members : List (String × Value)) (key : String)

def Context.value : Context → Value
  | list items => .list items.reverse
  | object members _ => .object members

structure Builder where
  /-- The bytes of the string or number that is being read, the latest first. -/
  token : Bytes
  /-- The first half of a surrogate pair, when its second half is due. -/
  highUnit : Option Nat
  /-- The open containers, the innermost first. -/
  contexts : List Context
  /-- The outermost value, once it has ended. -/
  done : Option Value

namespace Builder

def empty : Builder := ⟨[], none, [], none⟩

/-- At most this many containers are open at a time. -/
def maxDepth : Nat := 127

/-- Puts a value where it belongs: into the innermost container, or at the top. -/
def deliver (builder : Builder) (value : Value) : Builder :=
  match builder.contexts with
  | [] => { builder with token := [], done := some value }
  | .list items :: outer =>
    { builder with token := [], contexts := .list (value :: items) :: outer }
  | .object members key :: outer =>
    { builder with token := [], contexts := .object (insert key value members) "" :: outer }

def addChar (builder : Builder) (char : Char) : Builder :=
  { builder with token := (String.utf8EncodeChar char).reverse ++ builder.token, highUnit := none }

/-- Adds a 16-bit unit to the string that is being read. A high surrogate waits for a low one, and
a low one stands only after a high one. -/
def addUnit (builder : Builder) (unit : Nat) : Option Builder :=
  let isLow := 0xDC00 ≤ unit && unit ≤ 0xDFFF
  match builder.highUnit with
  | none =>
    if isLow then none
    else if 0xD800 ≤ unit ∧ unit ≤ 0xDBFF then some { builder with highUnit := some unit }
    else some (builder.addChar (Char.ofNat unit))
  | some high =>
    if isLow then
      some (builder.addChar (Char.ofNat ((high - 0xD800) * 0x400 + (unit - 0xDC00) + 0x10000)))
    else none

def endText? (builder : Builder) : Option String :=
  if builder.highUnit.isSome then none else Bytes.text? builder.token.reverse

/-- Takes a mark; nothing if no value can have it. -/
def take (builder : Builder) (mark : Mark) : Option Builder :=
  match mark with
  | .opened bracket =>
    if builder.contexts.length < maxDepth then
      let context := match bracket with | .list => .list [] | .object => .object [] ""
      some { builder with contexts := context :: builder.contexts }
    else none
  | .closed _ =>
    match builder.contexts with
    | [] => none
    | context :: outer => some ({ builder with contexts := outer }.deliver context.value)
  | .word .null => some (builder.deliver .null)
  | .word (.bool value) => some (builder.deliver (.bool value))
  | .numberByte byte => some { builder with token := byte :: builder.token }
  | .numberEnd =>
    (Number.ofText? builder.token.reverse).map fun number => builder.deliver (.number number)
  | .textByte byte =>
    if builder.highUnit.isSome then none else some { builder with token := byte :: builder.token }
  | .textUnit unit => builder.addUnit unit
  | .keyEnd =>
    match builder.contexts, builder.endText? with
    | .object members _ :: outer, some key =>
      some { builder with token := [], contexts := .object members key :: outer }
    | _, _ => none
  | .textEnd => builder.endText?.map fun text => builder.deliver (.string text)

end Builder

/-- Reads a body as one value, with blanks around it. A body that no value begins with is malformed,
and one that ends before its value does is incomplete. A number is judged when it ends, so one that
is out of range is malformed even if a negative exponent could follow. -/
def decode (body : Bytes) : Decoded :=
  match State.start.read Builder.take .empty body with
  | none => .malformed
  | some (state, builder) =>
    match state.endMarks.foldlM Builder.take builder with
    | none => .malformed
    | some builder =>
      match state.ending, builder.done with
      | .whole, some value => .complete value
      | .whole, none => .malformed
      | .cut, _ => .incomplete
      | .cutNumber, _ => .incomplete

end Unbraid.Json
