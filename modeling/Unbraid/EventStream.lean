import Unbraid.Relay

/-!
# Event streams

The event stream that browsers read: messages of lines, each with a field name, a colon and a value,
and a blank line after each message. Data that spans lines takes one field a line.
-/

namespace Unbraid.EventStream

structure Message where
  /-- The name of the event; without one it goes to the default handler. -/
  name : Option String
  data : String
  deriving DecidableEq, Repr

/-- The data field that every line of the data starts with. -/
def dataField : List Char := "data: ".toList

/-- The data with a field at the start of each line. Carriage returns and line feeds each end a
line, and are kept as they are. -/
def fielded : List Char → List Char
  | [] => []
  | char :: rest =>
    if char = '\n' ∨ char = '\r' then char :: dataField ++ fielded rest else char :: fielded rest

/-- The lines of a message. Empty data has no line. -/
def Message.chars (message : Message) : List Char :=
  (match message.name with
    | some name => "event: ".toList ++ name.toList ++ ['\n']
    | none => [])
  ++ (if message.data = "" then [] else dataField ++ fielded message.data.toList ++ ['\n'])
  ++ ['\n']

/-- A text in which each carriage return with a line feed after it is left out. -/
def joinLineEnds : List Char → List Char
  | '\r' :: '\n' :: rest => '\n' :: joinLineEnds rest
  | char :: rest => char :: joinLineEnds rest
  | [] => []

/-- The message for an item of a relay. The text of a delta goes out as it is, but a line end of
two characters as one, since a reader would take it for two. -/
def Message.ofItem : Item → Message
  | .ok (.tool payload) => ⟨some "tool", payload.text⟩
  | .ok (.delta text) => ⟨none, String.ofList (joinLineEnds text.toList)⟩
  | .ok (.complete text) =>
    ⟨some "content-complete", (Json.Value.object [("text", .string text)]).text⟩
  | .error fault => ⟨some "error", fault.text⟩

def encode (items : List Item) : String :=
  String.ofList (items.flatMap fun item => (Message.ofItem item).chars)

end Unbraid.EventStream
