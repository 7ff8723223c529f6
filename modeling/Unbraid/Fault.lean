namespace Unbraid

/-- The kinds of failure. -/
inductive FaultKind where
  /-- The settings cannot be read or are not usable. -/
  | config
  /-- The agent could not be asked or stopped answering. -/
  | agent
  /-- A session was misused, or its input exceeded a limit. -/
  | stream
  /-- The consumer refused an event. -/
  | sink
  /-- The consumer left before the answer was complete. -/
  | cancelled
  /-- A file or a socket failed. -/
  | io
  deriving DecidableEq, Repr

/-- The word that a message of this kind starts with. -/
def FaultKind.label : FaultKind → String
  | config => "config"
  | agent => "upstream"
  | stream => "stream"
  | sink => "sink"
  | cancelled => "cancelled"
  | io => "io"

/-- What goes wrong, as it is told to others. The modules that find something wrong name the cause
by a type of their own, and say there how it is worded. -/
structure Fault where
  kind : FaultKind
  message : String
  deriving DecidableEq, Repr

def Fault.text (fault : Fault) : String := fault.kind.label ++ ": " ++ fault.message

end Unbraid
