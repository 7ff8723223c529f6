import Unbraid.Agent
import Unbraid.EventStream
import Unbraid.Question.Reader
import Unbraid.Relay.Play

/-!
# The HTTP service

`POST /stream` takes a question and answers with the event stream of the agent's answer; `GET
/health` says that the service is up.

A request is judged from the outside in: the path, the method, the media type, the length of the
body, the body, the settings of the session, and at last the agent.
-/

namespace Unbraid

structure Request where
  method : String
  /-- What the request asks for: a path or an address. -/
  target : String
  contentType : Option String
  body : Bytes
  deriving DecidableEq, Repr

structure Response where
  status : Nat
  contentType : Option String
  /-- The methods that the path knows. -/
  allow : Option String
  body : String
  deriving DecidableEq, Repr

namespace Response

def empty (status : Nat) : Response := ⟨status, none, none, ""⟩

def plain (status : Nat) (text : String) : Response :=
  ⟨status, some "text/plain; charset=utf-8", none, text⟩

def failure (status : Nat) (fault : Fault) : Response :=
  ⟨status, some "application/json", none, (Json.Value.object [("error", .string fault.text)]).text⟩

def otherMethod (known : List String) : Response :=
  { empty 405 with allow := some (",".intercalate known) }

end Response

/-- The state of the service that matters for an answer. -/
structure Service where
  demux : DemuxSettings
  /-- Is the service being shut down? Then every relay is cancelled. -/
  isClosing : Bool
  deriving DecidableEq, Repr

namespace Service

/-- How many items wait for a client at most. -/
def channelCapacity : Nat := 64

/-- How many bytes the body of a request may have. -/
def bodyLimit : Nat := 2 * 1048576

/-- The event stream of an answer. The client takes what there is each time the relay waits. -/
def stream (service : Service) (session : Session) (inputs : List Input) : Response :=
  let relay := Relay.start session channelCapacity
  let early : List Move := if service.isClosing then [.cancel] else []
  let relay := (relay.applyAll (early ++ inputs.map .arrive)).play none false
  { Response.empty 200 with
    contentType := some "text/event-stream"
    body := EventStream.encode relay.received }

def answer (service : Service) (agent : Question → Agent.Reply) (question : Question) : Response :=
  match Session.start question.thread service.demux with
  | .error cause => .failure 500 cause.fault
  | .ok session =>
    match (agent question).inputs with
    | .error cause => .failure 502 cause.fault
    | .ok inputs => service.stream session inputs

def answerBody (service : Service) (agent : Question → Agent.Reply) (request : Request) :
    Response :=
  if !(request.contentType.bind Http.MediaType.read?).any Http.MediaType.isJson then
    .plain 415 "Expected request with `Content-Type: application/json`"
  else if bodyLimit < request.body.length then
    .plain 413 "Failed to buffer the request body: length limit exceeded"
  else match Question.ofBody request.body with
    | .error .notJson => .plain 400 "The body is not a JSON text"
    | .error .notQuestion => .plain 422 "The body is not a question"
    | .ok question => service.answer agent question

def respond (service : Service) (agent : Question → Agent.Reply) (request : Request) : Response :=
  match Http.Target.path request.target, request.method with
  | "/health", "GET" => .plain 200 "ok"
  | "/health", "HEAD" => .plain 200 ""
  | "/health", _ => .otherMethod ["GET", "HEAD"]
  | "/stream", "POST" => service.answerBody agent request
  | "/stream", _ => .otherMethod ["POST"]
  | _, _ => .empty 404

end Service

end Unbraid
