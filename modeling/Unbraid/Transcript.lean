import Unbraid.Json.Decode
import Unbraid.Outbox

/-!
# The transcript

The text of an answer. Of the model's events only the streamed tokens of one node of the agent carry
text; all others pass without effect. Each piece of text is written down and handed to the consumer.
-/

namespace Unbraid

/-- Which events carry the text of the answer. -/
structure TokenFilter where
  /-- The node of the agent that writes the answer. -/
  node : String
  /-- The name of the event that carries a token. -/
  event : String
  deriving DecidableEq, Repr

namespace TokenFilter

/-- The text of one block of a token's content. -/
def blockText : Json.Value → String
  | .string text => text
  | .object members =>
    match (members.lookup "type").bind Json.Value.text? with
    | some "text" => ((members.lookup "text").bind Json.Value.text?).getD ""
    | _ => ""
  | _ => ""

/-- The text of a token's content: a string, or blocks of which the text blocks count. -/
def contentText? : Json.Value → Option String
  | .string text => some text
  | .list blocks => some (String.join (blocks.map blockText))
  | _ => none

/-- The text that an event adds to the answer, if it adds any. -/
def text? (filter : TokenFilter) (event : Json.Value) : Option String := do
  let name ← (← event.member? "event").text?
  guard (name = filter.event)
  let node ← (← event.at? ["metadata", "langgraph_node"]).text?
  guard (node = filter.node)
  let text ← contentText? (← event.at? ["data", "chunk", "content"])
  guard (text ≠ "")
  return text

end TokenFilter

/-- The text of an answer so far. -/
structure Transcript where
  filter : TokenFilter
  text : String
  /-- How many pieces were written down. -/
  deltas : Nat
  deriving DecidableEq, Repr

namespace Transcript

def empty (filter : TokenFilter) : Transcript := ⟨filter, "", 0⟩

/-- Writes a piece down and hands it to the consumer. It is written down and counted first, so a
piece that is refused is in the text and in the count. -/
def add (transcript : Transcript) (piece : String) (outbox : Outbox) : Handled Transcript :=
  let transcript :=
    { transcript with text := transcript.text ++ piece, deltas := transcript.deltas + 1 }
  match outbox.deliver (.event (.delta piece)) with
  | (some refusal, outbox) => ⟨.error refusal, transcript, outbox⟩
  | (none, outbox) => ⟨.ok .emitted, transcript, outbox⟩

/-- Handles the body of a model message. A body that was cut is left alone unless it is final; then
it is dropped, as is one that is no value. A value that carries no text of the answer is no fault,
and passes without effect. -/
def handle (transcript : Transcript) (body : Bytes) (final : Bool) (outbox : Outbox) :
    Handled Transcript :=
  match Json.decode body with
  | .incomplete => ⟨.ok (if final then .dropped else .deferred), transcript, outbox⟩
  | .malformed => ⟨.ok .dropped, transcript, outbox⟩
  | .complete event =>
    match transcript.filter.text? event with
    | none => ⟨.ok .emitted, transcript, outbox⟩
    | some piece => transcript.add piece outbox

/-- The transcript without its text; the count stays. -/
def clear (transcript : Transcript) : Transcript := { transcript with text := "" }

end Transcript

end Unbraid
