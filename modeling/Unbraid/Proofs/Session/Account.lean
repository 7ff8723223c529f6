import Mathlib.Data.List.Basic
import Unbraid.Proofs.Message
import Unbraid.Session

/-!
# What messages amount to

The notices, the pieces of text and the counts that a list of messages amounts to, each read off the
messages alone, and what a consumer was handed. Tool messages and model messages are accounted for
apart, so it makes no difference that a pass takes the former first (`notices_byKind` and the two
lemmas after it).
-/

namespace Unbraid

/-! ## What a body says -/

def Json.value? (body : Bytes) : Option Json.Value :=
  match decode body with
  | .complete value => some value
  | _ => none

namespace Message

/-- The notice in a tool message: blanks around it do not count, and it must name the tool and hold
arguments. This is read off the message alone, whatever was handled before. -/
def notice? (message : Message) : Option Notice :=
  match message.kind with
  | .tool => (Json.value? message.body.trimAscii).bind Notice.ofValue?
  | .model => none

/-- The text that a model message adds to the answer. -/
def piece? (filter : TokenFilter) (message : Message) : Option String :=
  match message.kind with
  | .tool => none
  | .model => (Json.value? message.body).bind filter.text?

/-- Is there nothing to read: a tool message without a notice, or a model message that does not
decode? -/
def isUnreadable (message : Message) : Bool :=
  match message.kind with
  | .tool => message.notice?.isNone
  | .model => (Json.value? message.body).isNone

def notices (messages : List Message) : List Notice := messages.filterMap notice?

def pieces (filter : TokenFilter) (messages : List Message) : List String :=
  messages.filterMap (piece? filter)

def unreadable (messages : List Message) : Nat := messages.countP isUnreadable

variable (filter : TokenFilter) (messages more : List Message)

@[simp]
theorem notices_append : notices (messages ++ more) = notices messages ++ notices more :=
  List.filterMap_append

@[simp]
theorem pieces_append :
    pieces filter (messages ++ more) = pieces filter messages ++ pieces filter more :=
  List.filterMap_append

@[simp]
theorem unreadable_append : unreadable (messages ++ more) = unreadable messages + unreadable more :=
  List.countP_append

theorem byKind_perm : (byKind messages).Perm messages := by
  have others : ofKind .model messages = messages.filter fun message =>
      !decide (message.kind = .tool) := by
    refine List.filter_congr fun message _ => ?_
    cases message.kind <;> rfl
  rw [byKind, others]
  exact List.filter_append_perm _ messages

theorem notices_byKind : notices (byKind messages) = notices messages := by
  have silent : notices (ofKind .model messages) = [] := by
    refine List.filterMap_eq_nil_iff.2 fun message present => ?_
    have kind : message.kind = .model := of_decide_eq_true (List.mem_filter.1 present).2
    simp only [notice?, kind]
  rw [byKind, notices_append, silent, List.append_nil, notices, ofKind, List.filterMap_filter,
    notices]
  congr 1
  funext message
  cases kind : message.kind <;> simp [notice?, kind]

theorem pieces_byKind : pieces filter (byKind messages) = pieces filter messages := by
  have silent : pieces filter (ofKind .tool messages) = [] := by
    refine List.filterMap_eq_nil_iff.2 fun message present => ?_
    have kind : message.kind = .tool := of_decide_eq_true (List.mem_filter.1 present).2
    simp only [piece?, kind]
  rw [byKind, pieces_append, silent, List.nil_append, pieces, ofKind, List.filterMap_filter, pieces]
  congr 1
  funext message
  cases kind : message.kind <;> simp [piece?, kind]

theorem unreadable_byKind : unreadable (byKind messages) = unreadable messages :=
  (byKind_perm messages).countP_eq isUnreadable

end Message

def Notice.callKey (notice : Notice) : String := Notice.key notice.tool notice.arguments

/-- Of some notices, the first of each call. -/
def Notice.firsts (notices : List Notice) : List Notice :=
  notices.foldl
    (fun kept notice =>
      if notice.callKey ∈ kept.map callKey then kept else kept ++ [notice]) []

theorem Notice.firsts_append (notices : List Notice) (notice : Notice) :
    firsts (notices ++ [notice]) =
      if notice.callKey ∈ (firsts notices).map callKey then firsts notices
      else firsts notices ++ [notice] := by
  rw [firsts, List.foldl_append]
  rfl

/-! ## What a consumer was handed -/

namespace Event

def payload? : Event → Option Json.Value
  | tool payload => some payload
  | _ => none

def piece? : Event → Option String
  | delta text => some text
  | _ => none

def whole? : Event → Option String
  | complete text => some text
  | _ => none

end Event

namespace Outbox

def payloads (outbox : Outbox) : List Json.Value := outbox.events.filterMap Event.payload?

def pieces (outbox : Outbox) : List String := outbox.events.filterMap Event.piece?

def wholes (outbox : Outbox) : List String := outbox.events.filterMap Event.whole?

def taking (outbox : Outbox) (event : Event) : Outbox :=
  { outbox with log := outbox.log ++ [⟨.event event, none⟩] }

theorem deliver_accepting {outbox : Outbox} (accepting : outbox.consumer = .accepting)
    (event : Event) : outbox.deliver (.event event) = (none, outbox.taking event) := by
  simp only [deliver, accepting, Consumer.accepting, taking]

theorem events_taking (outbox : Outbox) (event : Event) :
    (outbox.taking event).events = outbox.events ++ [event] := by
  rw [events, taking, List.filterMap_append]
  rfl

variable (outbox : Outbox)

theorem payloads_taking (event : Event) :
    (outbox.taking event).payloads = outbox.payloads ++ event.payload?.toList := by
  rw [payloads, events_taking, List.filterMap_append]
  cases event <;> rfl

theorem pieces_taking (event : Event) :
    (outbox.taking event).pieces = outbox.pieces ++ event.piece?.toList := by
  rw [pieces, events_taking, List.filterMap_append]
  cases event <;> rfl

theorem wholes_taking (event : Event) :
    (outbox.taking event).wholes = outbox.wholes ++ event.whole?.toList := by
  rw [wholes, events_taking, List.filterMap_append]
  cases event <;> rfl

end Outbox

end Unbraid
