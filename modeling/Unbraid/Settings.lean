import Unbraid.Tag

/-!
# Settings

The settings of the program, and what makes them usable. `DemuxSettings.check` and `Settings.check`
report the first rule that is broken.
-/

namespace Unbraid

structure DemuxSettings where
  toolTag : String
  modelTag : String
  /-- The node of the agent that writes the answer. -/
  generationNode : String
  /-- The name of the event that carries a token. -/
  streamEvent : String
  /-- How many bytes a session holds at most between two chunks. -/
  maxBufferBytes : Nat
  deriving DecidableEq, Repr

/-- What makes settings unusable. -/
inductive SettingsFault where
  | tags (cause : TagFault)
  | emptyNode
  | emptyEvent
  | smallBuffer (tagLength : Nat)
  | notHttp (url : String)
  | noHost (url : String)
  deriving DecidableEq, Repr

namespace SettingsFault

def message : SettingsFault → String
  | tags cause => cause.message
  | emptyNode => "generation_node must not be empty"
  | emptyEvent => "stream_event must not be empty"
  | smallBuffer tagLength =>
    "max_buffer_bytes must be at least the tag length (" ++ toString tagLength ++ ")"
  | notHttp url => "upstream.url must be an http(s) URL, got '" ++ url ++ "'"
  | noHost url => "upstream.url is missing a host: '" ++ url ++ "'"

def fault (cause : SettingsFault) : Fault := ⟨.config, cause.message⟩

end SettingsFault

namespace DemuxSettings

def standard : DemuxSettings where
  toolTag := "Tool :"
  modelTag := "Toly :"
  generationNode := "Toly"
  streamEvent := "on_chat_model_stream"
  maxBufferBytes := 4 * 1048576

def tags (settings : DemuxSettings) : Except TagFault TagPair :=
  TagPair.ofTexts settings.toolTag settings.modelTag

def check (settings : DemuxSettings) : Except SettingsFault Unit :=
  match settings.tags with
  | .error cause => .error (.tags cause)
  | .ok tags =>
    if settings.generationNode = "" then .error .emptyNode
    else if settings.streamEvent = "" then .error .emptyEvent
    else if settings.maxBufferBytes < tags.length then .error (.smallBuffer tags.length)
    else .ok ()

end DemuxSettings

structure AgentSettings where
  url : String
  /-- How long an answer may take; zero stands for any time. -/
  timeoutSeconds : Nat
  deriving DecidableEq, Repr

namespace AgentSettings

/-- How long an answer may take, if there is a limit. -/
def timeout? (settings : AgentSettings) : Option Nat :=
  if 0 < settings.timeoutSeconds then some settings.timeoutSeconds else none

def afterScheme? (url : String) : Option (List Char) :=
  if "http://".toList.isPrefixOf url.toList then some (url.toList.drop 7)
  else if "https://".toList.isPrefixOf url.toList then some (url.toList.drop 8)
  else none

/-- Checks that the URL has a scheme that the program speaks, and a host. -/
def check (settings : AgentSettings) : Except SettingsFault Unit :=
  match afterScheme? settings.url with
  | none => .error (.notHttp settings.url)
  | some [] => .error (.noHost settings.url)
  | some ('/' :: _) => .error (.noHost settings.url)
  | some _ => .ok ()

end AgentSettings

structure Settings where
  httpPort : Nat
  agent : AgentSettings
  demux : DemuxSettings
  deriving DecidableEq, Repr

def Settings.check (settings : Settings) : Except SettingsFault Unit :=
  settings.agent.check.bind fun _ => settings.demux.check

end Unbraid
