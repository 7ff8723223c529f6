import Unbraid.Json.Text

namespace Unbraid

/-- A question, put in a thread of conversation. -/
structure Question where
  text : String
  thread : String
  deriving DecidableEq, Repr

namespace Question

inductive Part where
  | text
  | thread
  deriving DecidableEq, Repr

def Part.key : Part → String
  | text => "question"
  | thread => "thread_id"

def Part.ofKey? (key : String) : Option Part :=
  [Part.text, .thread].find? fun part => part.key = key

def value (question : Question) : Json.Value :=
  .object [(Part.key .text, .string question.text), (Part.key .thread, .string question.thread)]

end Question

end Unbraid
