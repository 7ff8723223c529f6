import Unbraid.Frame
import Unbraid.Ledger
import Unbraid.Settings
import Unbraid.Transcript

/-!
# Sessions

A session takes one answer of the agent, chunk by chunk, and hands the events it finds to a
consumer.

Each chunk is followed by a pass over the buffer. The messages that have ended are handled, the tool
notices first and then the model's events, both in the order of the stream; then the buffer is
consumed up to the first message that may still grow. The end of the answer ends every message.

A session ends with the event that the answer is complete, or fails: when the consumer refuses an
event, when more than the allowed number of bytes is left after a pass, or when it is aborted or
cancelled. A session that has ended holds nothing back and takes no more input.

A call leaves behind, besides the session and the outbox, the messages that it handled (`Step`),
written down where they are handled (`Session.handleAll`). Whoever calls a session several times
does so by `run`, and differs only in when to stop: `Session.receive` and `Session.feedAll` stop at
the first fault, `Session.performAll` makes every call.
-/

namespace Unbraid

/-- The life of a session. -/
inductive Phase where
  /-- Takes chunks. -/
  | receiving
  /-- The answer has ended; the last pass is under way. -/
  | draining
  | completed
  | failed
  deriving DecidableEq, Repr

namespace Phase

def isClosed : Phase → Bool
  | completed | failed => true
  | receiving | draining => false

def label : Phase → String
  | receiving => "open"
  | draining => "draining"
  | completed => "completed"
  | failed => "failed"

end Phase

/-- Why a session refuses input. -/
inductive SessionFault where
  | notOpen (id : String) (phase : Phase)
  | overLimit (limit : Nat)
  deriving DecidableEq, Repr

def SessionFault.fault : SessionFault → Fault
  | notOpen id phase => ⟨.stream, "session " ++ id ++ " is " ++ phase.label⟩
  | overLimit limit => ⟨.stream, "unconsumed input exceeded " ++ toString limit ++ " bytes"⟩

structure Statistics where
  bytesIn : Nat
  toolEvents : Nat
  duplicates : Nat
  deltas : Nat
  dropped : Nat
  deriving DecidableEq, Repr

/-- One answer on its way to a consumer. -/
structure Session where
  id : String
  phase : Phase
  /-- The bytes that were received and not yet consumed. -/
  buffer : Bytes
  lexer : Lexer
  ledger : Ledger
  transcript : Transcript
  maxBufferBytes : Nat
  bytesIn : Nat
  dropped : Nat

/-- A message that is handled, with the session and the outbox as its handler finds them. -/
structure Step where
  session : Session
  outbox : Outbox
  final : Bool
  frame : Frame

/-- What a call leaves behind: the fault it reports, the session, the outbox, and the messages that
were handled in it, in the order in which they were. -/
structure Called where
  fault : Option Fault
  session : Session
  outbox : Outbox
  steps : List Step

/-- The call when one more message is handled before the others. -/
def Called.after (step : Step) (called : Called) : Called :=
  { called with steps := step :: called.steps }

namespace Session

def start (id : String) (settings : DemuxSettings) : Except TagFault Session :=
  settings.tags.map fun tags =>
    { id, phase := .receiving, buffer := [], lexer := .fresh tags, ledger := .empty
      transcript := .empty ⟨settings.generationNode, settings.streamEvent⟩
      maxBufferBytes := settings.maxBufferBytes, bytesIn := 0, dropped := 0 }

def statistics (session : Session) : Statistics :=
  ⟨session.bytesIn, session.ledger.emitted, session.ledger.duplicates, session.transcript.deltas,
    session.dropped⟩

/-- The messages in the buffer, in the order of the stream. -/
def frames (session : Session) : List Frame :=
  Frame.allFrom session.lexer session.buffer 0 session.lexer.hits

/-- Can the body of a message no longer grow? -/
def isSettled (final : Bool) (frame : Frame) : Bool := final || frame.complete

/-- The messages to handle in a pass, in the order in which they are handled: the tool notices and
then the model's events, of each kind those before the first that may still grow. Only the last
message of a buffer can still grow, so nothing that has ended is put off. -/
def agenda (final : Bool) (frames : List Frame) : List Frame :=
  [TagKind.tool, .model].flatMap fun kind =>
    (frames.filter fun frame => frame.kind = kind).takeWhile (isSettled final)

def handle (session : Session) (final : Bool) (frame : Frame) (outbox : Outbox) : Handled Session :=
  let handled : Handled Session :=
    match frame.kind with
    | .tool =>
      let handled := session.ledger.handle frame.body (isSettled final frame) outbox
      ⟨handled.result, { session with ledger := handled.state }, handled.outbox⟩
    | .model =>
      let handled := session.transcript.handle frame.body (isSettled final frame) outbox
      ⟨handled.result, { session with transcript := handled.state }, handled.outbox⟩
  match handled.result with
  | .ok .dropped =>
    { handled with state := { handled.state with dropped := handled.state.dropped + 1 } }
  | _ => handled

end Session

/-- What comes of handling the message of a step, with the session and the outbox as they were
then. -/
def Step.handled (step : Step) : Handled Session :=
  step.session.handle step.final step.frame step.outbox

namespace Session

/-- Handles messages one after the other and writes each of them down, until the consumer refuses an
event. The message that led to the refused event is written down as well; those after it are not
handled. -/
def handleAll (final : Bool) (outbox : Outbox) (session : Session) : List Frame → Called
  | [] => ⟨none, session, outbox, []⟩
  | frame :: rest =>
    let step : Step := ⟨session, outbox, final, frame⟩
    let handled := step.handled
    match handled.result with
    | .error refusal => ⟨some refusal, handled.state, handled.outbox, [step]⟩
    | .ok _ => (handleAll final handled.outbox handled.state rest).after step

/-- How many bytes of the buffer are done with after a pass: those before the first message that may
still grow, or all messages, or what comes before the first tag. -/
def consumed (session : Session) (final : Bool) (frames : List Frame) : Nat :=
  match frames.find? fun frame => !isSettled final frame with
  | some frame => frame.tagOffset
  | none =>
    if final then session.buffer.length
    else match frames.getLast? with
      | some frame => frame.stop
      | none => session.lexer.preamble

def consume (session : Session) (count : Nat) : Session :=
  { session with
    buffer := session.buffer.drop count
    lexer := session.lexer.consume count }

/-- The session at the beginning of a pass: the lexer has read the buffer. -/
def lexed (session : Session) : Session :=
  { session with lexer := session.lexer.advance session.buffer }

/-- A pass over the buffer. The lexer reads what is new, the messages that have ended are handled,
and the buffer is consumed up to the first that may still grow. After a refusal nothing is consumed,
since the session is about to fail. -/
def drain (session : Session) (final : Bool) (outbox : Outbox) : Called :=
  let session := session.lexed
  let frames := session.frames
  let called := handleAll final outbox session (agenda final frames)
  match called.fault with
  | some _ => called
  | none => { called with session := called.session.consume (session.consumed final frames) }

/-- Ends the session. Nothing is kept but the counts, and the text of a complete answer. -/
def release (session : Session) (phase : Phase) : Session :=
  { session with
    phase
    buffer := []
    lexer := session.lexer.reset
    ledger := session.ledger.clear
    transcript := if phase = .failed then session.transcript.clear else session.transcript }

/-- Fails the session and tells the consumer, unless it is over already. Whether the consumer takes
the signal makes no difference. -/
def abort (session : Session) (fault : Fault) (outbox : Outbox) : Called :=
  if session.phase.isClosed then ⟨some fault, session, outbox, []⟩
  else
    let (_, outbox) := outbox.deliver (.failure fault)
    ⟨some fault, session.release .failed, outbox, []⟩

/-- Ends the session because the consumer has left; it is told nothing. -/
def cancel (session : Session) : Session :=
  if session.phase.isClosed then session else session.release .failed

def notOpen (session : Session) : Fault := (SessionFault.notOpen session.id session.phase).fault

def add (session : Session) (chunk : Bytes) : Session :=
  { session with buffer := session.buffer ++ chunk, bytesIn := session.bytesIn + chunk.length }

/-- Takes a chunk and delivers the events of every message that ends with it. The call fails if the
consumer refuses one of them, or if more bytes are left after the pass than are allowed; the
consumer is told of the second, and knows of the first. -/
def feed (session : Session) (chunk : Bytes) (outbox : Outbox) : Called :=
  if session.phase = .receiving then
    let called := (session.add chunk).drain false outbox
    match called.fault with
    | some refusal =>
      ⟨some refusal, called.session.release .failed, called.outbox, called.steps⟩
    | none =>
      if called.session.maxBufferBytes < called.session.buffer.length then
        let fault := (SessionFault.overLimit called.session.maxBufferBytes).fault
        { called.session.abort fault called.outbox with steps := called.steps }
      else called
  else ⟨some session.notOpen, session, outbox, []⟩

/-- Takes the end of the answer: handles what is left, whether it is whole or not, and delivers the
whole text. The answer is complete only when the consumer has taken that as well. -/
def finish (session : Session) (outbox : Outbox) : Called :=
  if session.phase = .receiving then
    let called := { session with phase := .draining }.drain true outbox
    match called.fault with
    | some refusal =>
      ⟨some refusal, called.session.release .failed, called.outbox, called.steps⟩
    | none =>
      let whole := Event.complete called.session.transcript.text
      match called.outbox.deliver (.event whole) with
      | (some refusal, outbox) =>
        ⟨some refusal, called.session.release .failed, outbox, called.steps⟩
      | (none, outbox) => ⟨none, called.session.release .completed, outbox, called.steps⟩
  else ⟨some session.notOpen, session, outbox, []⟩

end Session

/-! ## Several calls -/

inductive Call where
  | feed (chunk : Bytes)
  | finish
  | abort (fault : Fault)
  | cancel

namespace Session

def perform (session : Session) (outbox : Outbox) : Call → Called
  | .feed chunk => session.feed chunk outbox
  | .finish => session.finish outbox
  | .abort fault => session.abort fault outbox
  | .cancel => ⟨none, session.cancel, outbox, []⟩

/-- A session and an outbox before the first call. -/
def uncalled (session : Session) (outbox : Outbox) : Called := ⟨none, session, outbox, []⟩

end Session

namespace Called

/-- What each of some calls leaves behind. Each call is made on what the one before it left, and
none is made after one at which the caller stops. -/
def trace (stops : Called → Bool) (before : Called) : List Call → List Called
  | [] => []
  | call :: rest =>
    let called := before.session.perform before.outbox call
    called :: if stops called then [] else trace stops called rest

/-- What the last of the calls that are made leaves behind. -/
def run (stops : Called → Bool) (before : Called) (calls : List Call) : Called :=
  (before.trace stops calls).getLastD before

def isFault (called : Called) : Bool := called.fault.isSome

end Called

namespace Session

/-- Feeds chunks one after the other, up to the first fault. -/
def feedAll (session : Session) (outbox : Outbox) (chunks : List Bytes) : Called :=
  (session.uncalled outbox).run Called.isFault (chunks.map .feed)

/-- The calls that feed a stream in chunks and then end the answer. -/
def wholeStream (chunks : List Bytes) : List Call := chunks.map .feed ++ [.finish]

/-- Feeds chunks one after the other and then ends the answer, up to the first fault. -/
def receive (session : Session) (outbox : Outbox) (chunks : List Bytes) : Called :=
  (session.uncalled outbox).run Called.isFault (wholeStream chunks)

/-- The session and the outbox after some calls, whatever each of them reports. -/
def performAll (session : Session) (outbox : Outbox) (calls : List Call) : Called :=
  (session.uncalled outbox).run (fun _ => false) calls

end Session

end Unbraid
