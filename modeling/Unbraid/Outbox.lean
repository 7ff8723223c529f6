import Unbraid.Fault
import Unbraid.Json.Text

/-!
# Events, consumers and outboxes

What a session makes of an answer, and the consumer at its other end. The consumer takes or refuses
each delivery, and may decide that by everything that was delivered to it before. An outbox keeps
the record of all deliveries.
-/

namespace Unbraid

/-- A message to the consumer of an answer. -/
inductive Event where
  /-- The agent calls a tool; told once for each distinct call. -/
  | tool (payload : Json.Value)
  /-- A piece of the answer's text. -/
  | delta (text : String)
  /-- The answer has ended; its whole text. -/
  | complete (text : String)

def Event.value : Event → Json.Value
  | tool payload => .object [("payload", payload), ("type", .string "tool")]
  | delta text => .object [("text", .string text), ("type", .string "content-delta")]
  | complete text => .object [("text", .string text), ("type", .string "content-complete")]

/-- What is handed to a consumer. -/
inductive Delivery where
  | event (event : Event)
  /-- The signal that the answer has failed. -/
  | failure (fault : Fault)

/-- A delivery, and the reason why the consumer refused it, if it did. -/
structure Attempt where
  delivery : Delivery
  refusal : Option Fault

namespace Attempt

def takenEvent? (attempt : Attempt) : Option Event :=
  match attempt with
  | ⟨.event event, none⟩ => some event
  | _ => none

def takenFailure? (attempt : Attempt) : Option Fault :=
  match attempt with
  | ⟨.failure fault, none⟩ => some fault
  | _ => none

end Attempt

/-- A consumer says whether it refuses a delivery, knowing those before it, the oldest first. -/
abbrev Consumer := List Attempt → Delivery → Option Fault

namespace Consumer

def accepting : Consumer := fun _ _ => none

/-- Takes a number of events and refuses every later one. The failure signal it takes or refuses
always. -/
def takesFirst (count : Nat) (refusal : Fault) (takesFailure : Bool) : Consumer
  | before, .event _ =>
    if (before.filterMap Attempt.takenEvent?).length < count then none else some refusal
  | _, .failure _ => if takesFailure then none else some refusal

end Consumer

/-- A consumer, and the deliveries made to it, the oldest first. -/
structure Outbox where
  consumer : Consumer
  log : List Attempt

namespace Outbox

def fresh (consumer : Consumer) : Outbox := ⟨consumer, []⟩

def deliver (outbox : Outbox) (delivery : Delivery) : Option Fault × Outbox :=
  let refusal := outbox.consumer outbox.log delivery
  (refusal, { outbox with log := outbox.log ++ [⟨delivery, refusal⟩] })

def events (outbox : Outbox) : List Event := outbox.log.filterMap Attempt.takenEvent?

def failures (outbox : Outbox) : List Fault := outbox.log.filterMap Attempt.takenFailure?

end Outbox

/-- What was done with the body of a message. -/
inductive Outcome where
  /-- It was read, and what it asks for was delivered. -/
  | emitted
  /-- It can never be read, or says nothing. -/
  | dropped
  /-- More of it may come. -/
  | deferred
  deriving DecidableEq, Repr

/-- The result of handling a body: an outcome or the refusal of the consumer, with the state of the
handler and the outbox afterwards. -/
structure Handled (σ : Type) where
  result : Except Fault Outcome
  state : σ
  outbox : Outbox

end Unbraid
