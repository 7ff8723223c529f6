import Unbraid.Json.Decode
import Unbraid.Question

/-!
# Reading a question

A question is a JSON object with a string for each part, or a list of the two strings. Other members
of the object are passed over: of them only the grammar is minded.

A body may break the rules of JSON and also hold something else than a question. What shows first
decides, so the reader judges the shape mark by mark while the grammar goes through the body.
-/

namespace Unbraid.Question

/-- Why a body is not read as a question. -/
inductive Misread where
  /-- It is not a JSON text. -/
  | notJson
  /-- It holds something else. -/
  | notQuestion
  deriving DecidableEq, Repr

inductive Due where
  /-- The whole body. -/
  | whole
  /-- A key of the object, or its end. -/
  | key
  /-- The value of a member that holds a part. -/
  | member (part : Part)
  /-- The item of the list that holds a part. -/
  | item (part : Part)
  /-- The end of the list. -/
  | listEnd
  /-- The value of another member, so many containers inside it. -/
  | other (depth : Nat)
  deriving DecidableEq, Repr

/-- A question that is being read. -/
structure Reader where
  due : Due
  text : Option String
  thread : Option String
  /-- The string or number that is being read. -/
  token : Json.Builder

namespace Reader

def fresh : Reader := ⟨.whole, none, none, .empty⟩

def has (reader : Reader) : Part → Bool
  | .text => reader.text.isSome
  | .thread => reader.thread.isSome

def set (reader : Reader) (part : Part) (value : String) : Reader :=
  match part with
  | .text => { reader with text := some value }
  | .thread => { reader with thread := some value }

def question (reader : Reader) : Except Misread Question :=
  match reader.text, reader.thread with
  | some text, some thread => .ok ⟨text, thread⟩
  | _, _ => .error .notQuestion

/-- Goes on with an empty token. -/
def goOn (reader : Reader) (due : Due) : Except Misread Reader :=
  .ok { reader with due, token := .empty }

/-- Adds to the token what a mark holds of it, if a JSON text can hold it. -/
def extend (reader : Reader) (mark : Json.Mark) : Except Misread Reader :=
  match reader.token.take mark with
  | some token => .ok { reader with token }
  | none => .error .notJson

def tokenText (reader : Reader) : Except Misread String :=
  match reader.token.endText? with
  | some text => .ok text
  | none => .error .notJson

def passOver (reader : Reader) (depth : Nat) (mark : Json.Mark) : Except Misread Reader :=
  match mark, depth with
  | .opened _, _ => reader.goOn (.other (depth + 1))
  | .closed _, depth + 2 => reader.goOn (.other (depth + 1))
  | .closed _, _ => reader.goOn .key
  | .word _, 0 | .numberEnd, 0 | .textEnd, 0 => reader.goOn .key
  | _, _ => .ok reader

/-- Takes a key. A part has one value. -/
def takeKey (reader : Reader) : Except Misread Reader := do
  match Part.ofKey? (← reader.tokenText) with
  | none => reader.goOn (.other 0)
  | some part => if reader.has part then .error .notQuestion else reader.goOn (.member part)

def takeText (reader : Reader) : Except Misread Reader := do
  let text ← reader.tokenText
  match reader.due with
  | .member part => (reader.set part text).goOn .key
  | .item .text => (reader.set .text text).goOn (.item .thread)
  | .item .thread => (reader.set .thread text).goOn .listEnd
  | _ => .error .notQuestion

/-- Takes a mark of the grammar. After the last item of the list anything but its end is refused as
text that should not be there. -/
def take (reader : Reader) (mark : Json.Mark) : Except Misread Reader :=
  match reader.due, mark with
  | .other depth, mark => reader.passOver depth mark
  | _, .closed _ => reader.question.map fun _ => reader
  | .listEnd, _ => .error .notJson
  | .whole, .opened .object => reader.goOn .key
  | .whole, .opened .list => reader.goOn (.item .text)
  | _, .opened _ => .error .notQuestion
  | _, .word _ => .error .notQuestion
  | _, .numberEnd =>
    match Json.Number.ofText? reader.token.token.reverse with
    | some _ => .error .notQuestion
    | none => .error .notJson
  | _, .keyEnd => reader.takeKey
  | _, .textEnd => reader.takeText
  | _, mark => reader.extend mark

/-- What a byte settles that no JSON text can go on with: a number may end before it. A digit
after a leading zero belongs to the number and spoils it. -/
def marksBefore (state : Json.State) (byte : UInt8) : List Json.Mark :=
  if state.place = .number .zero ∧ Bytes.isDigit byte then [] else state.endMarks

def read (state : Json.State) (reader : Reader) : Bytes → Except Misread Question
  | [] => do
    let reader ← state.endMarks.foldlM take reader
    if state.ending = .whole then reader.question else .error .notJson
  | byte :: rest =>
    match state.step byte with
    | some (next, marks) => do
      let reader ← marks.foldlM take reader
      read next reader rest
    | none => do
      let _ ← (marksBefore state byte).foldlM take reader
      .error .notJson

end Reader

def ofBody (body : Bytes) : Except Misread Question := Reader.read .start .fresh body

end Unbraid.Question
