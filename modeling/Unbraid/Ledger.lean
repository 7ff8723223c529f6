import Unbraid.Json.Decode
import Unbraid.Outbox
import Unbraid.Sha256

/-!
# The ledger of tool notices

Tool notices. The agent announces a call of a tool again and again, so each notice is entered in a
ledger by the tool's name and its arguments, and only the first entry is passed on. A notice is
entered before it is handed to the consumer.
-/

namespace Unbraid

/-- The announcement of a tool call. -/
structure Notice where
  tool : String
  arguments : Json.Value
  /-- The announcement as it was read, with all its members. -/
  payload : Json.Value

namespace Notice

/-- The notice in a value; it must name the tool and hold arguments. -/
def ofValue? (payload : Json.Value) : Option Notice := do
  let tool ← (← payload.member? "tool_name").text?
  let arguments ← payload.member? "additional_kwargs"
  return ⟨tool, arguments, payload⟩

/-- What tells one call from another: the name, a zero byte, and the compact text of the
arguments. -/
def identity (tool : String) (arguments : Json.Value) : Bytes :=
  Bytes.ofText tool ++ 0 :: Bytes.ofText arguments.text

/-- The digest of the identity, under which a call is entered. -/
def key (tool : String) (arguments : Json.Value) : String :=
  (Sha256.digest (identity tool arguments)).hex

end Notice

/-- The calls that were announced in a session. -/
structure Ledger where
  keys : List String
  emitted : Nat
  duplicates : Nat
  deriving DecidableEq, Repr

namespace Ledger

def empty : Ledger := ⟨[], 0, 0⟩

/-- Enters a notice, and passes it on if its call is new. -/
def enter (ledger : Ledger) (notice : Notice) (outbox : Outbox) : Handled Ledger :=
  let key := Notice.key notice.tool notice.arguments
  if key ∈ ledger.keys then
    ⟨.ok .emitted, { ledger with duplicates := ledger.duplicates + 1 }, outbox⟩
  else
    let ledger := { ledger with keys := key :: ledger.keys }
    match outbox.deliver (.event (.tool notice.payload)) with
    | (some refusal, outbox) => ⟨.error refusal, ledger, outbox⟩
    | (none, outbox) => ⟨.ok .emitted, { ledger with emitted := ledger.emitted + 1 }, outbox⟩

/-- Handles the body of a tool message. The blanks around it do not count. A body that was cut is
left alone unless it is final; then it is dropped, as is one that is no value or names no call. -/
def handle (ledger : Ledger) (body : Bytes) (final : Bool) (outbox : Outbox) : Handled Ledger :=
  match Json.decode body.trimAscii with
  | .incomplete => ⟨.ok (if final then .dropped else .deferred), ledger, outbox⟩
  | .malformed => ⟨.ok .dropped, ledger, outbox⟩
  | .complete payload =>
    match Notice.ofValue? payload with
    | none => ⟨.ok .dropped, ledger, outbox⟩
    | some notice => ledger.enter notice outbox

def clear (ledger : Ledger) : Ledger := { ledger with keys := [] }

end Ledger

end Unbraid
