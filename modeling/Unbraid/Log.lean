import Unbraid.Json.Text

namespace Unbraid.Log

inductive Level where
  | info
  | error
  deriving DecidableEq, Repr

def Level.word : Level → String
  | info => "INFO"
  | error => "ERROR"

inductive Content where
  | text (text : String)
  | number (n : Nat)
  deriving DecidableEq, Repr

/-- What a program tells its operator while it runs. The time of a record is left to the one who
writes the line. -/
structure Record where
  level : Level
  /-- The part of the program that speaks. -/
  target : String
  message : String
  /-- Further fields, in the order in which they are written. -/
  fields : List (String × Content)
  deriving DecidableEq, Repr

inductive Format where
  | text
  | json
  deriving DecidableEq, Repr

def Format.ofName? : String → Option Format
  | "text" => some .text
  | "json" => some .json
  | _ => none

def Content.plain : Content → String
  | .text words => words
  | .number n => toString n

def Content.value : Content → Json.Value
  | .text words => .string words
  | .number n => .number (.integer n)

/-- The record as text: its level, who speaks, the message, and the fields. -/
def Record.plain (record : Record) : String :=
  let fields := record.fields.map fun (name, content) => " " ++ name ++ "=" ++ content.plain
  record.level.word ++ " " ++ record.target ++ ": " ++ record.message ++ String.join fields

/-- The record as a JSON object; the message is a field like the others. -/
def Record.value (record : Record) : Json.Value :=
  let fields := record.fields.foldl (fun fields (name, content) =>
    Json.insert name content.value fields) [("message", .string record.message)]
  .object [("fields", .object fields), ("level", .string record.level.word),
    ("target", .string record.target)]

/-- The lines of a record: one, unless a text in it has line ends, which JSON writes otherwise. -/
def Format.lines (format : Format) (record : Record) : List String :=
  match format with
  | text => record.plain.splitOn "\n"
  | json => [record.value.text]

end Unbraid.Log
