import Unbraid.Http
import Unbraid.Relay
import Unbraid.Utf8

namespace Unbraid.Agent

/-- What comes of a question. -/
inductive Reply where
  /-- No answer came back. -/
  | unreachable
  /-- A status code and a body, in the pieces in which it came. The body may break off. -/
  | answered (status : Nat) (pieces : List Bytes) (breaksOff : Bool)
  deriving DecidableEq, Repr

/-- Why there is no answer to relay. -/
inductive Failure where
  | unreachable
  | rejected (status : Nat) (body : String)
  | brokenOff
  deriving DecidableEq, Repr

/-- How many characters of a rejection are told. -/
def quoteLimit : Nat := 512

def Failure.fault : Failure → Fault
  | unreachable => ⟨.agent, "request failed"⟩
  | rejected status body => ⟨.agent, "agent answered " ++ Http.statusText status ++ ": " ++ body⟩
  | brokenOff => ⟨.agent, "stream read failed"⟩

/-- What is told of the body of a rejection: its beginning, and nothing if it breaks off. -/
def quote (pieces : List Bytes) (breaksOff : Bool) : String :=
  if breaksOff then "" else String.ofList ((Utf8.lossyChars pieces.flatten).take quoteLimit)

/-- What a relay gets to see of a reply: the pieces of the body, then how it ended. -/
def Reply.inputs : Reply → Except Failure (List Input)
  | unreachable => .error .unreachable
  | answered status pieces breaksOff =>
    if Http.isSuccess status then
      let last := if breaksOff then .failure Failure.brokenOff.fault else .eof
      .ok (pieces.map .chunk ++ [last])
    else .error (.rejected status (quote pieces breaksOff))

end Unbraid.Agent
