import Unbraid.File
import Unbraid.Settings
import Unbraid.Toml.Document

/-!
# Settings in a document

The settings in a TOML document. A group of settings is a table; it may also be a list of the
settings in their usual order, in which those at the end may be left out. Names that are not known
do not matter.
-/

namespace Unbraid.Settings

/-- The settings of a group: by name, or by position. -/
inductive Group where
  | named (entries : List (String × Toml.Value))
  | listed (items : List Toml.Value)

/-- The group that a value holds. A date has no setting that is known. -/
def Group.ofValue? : Toml.Value → Option Group
  | .table entries => some (.named entries)
  | .list items => some (.listed items)
  | .dateTime _ => some (.named [])
  | _ => none

/-- The setting of a name, which has a position among the settings of its group. -/
def Group.setting? (group : Group) (name : String) (position : Nat) : Option Toml.Value :=
  match group with
  | named entries => entries.lookup name
  | listed items => items[position]?

def settingOr {α : Type} (read : Toml.Value → Option α) (usual : Option α) :
    Option Toml.Value → Option α
  | some value => read value
  | none => usual

def text? : Toml.Value → Option String
  | .string text => some text
  | _ => none

def natBelow? (bound : Nat) : Toml.Value → Option Nat
  | .integer value => if 0 ≤ value ∧ value < bound then some value.toNat else none
  | _ => none

/-- Where the agent is reached: the URL must be given. -/
def agent? (value : Toml.Value) : Option AgentSettings := do
  let group ← Group.ofValue? value
  let url ← settingOr text? none (group.setting? "url" 0)
  let timeoutSeconds ←
    settingOr (natBelow? 0x10000000000000000) (some 300) (group.setting? "timeout_seconds" 1)
  return { url, timeoutSeconds }

/-- The settings of a session; what is not given is standard. -/
def demux? (value : Toml.Value) : Option DemuxSettings := do
  let group ← Group.ofValue? value
  let standard := DemuxSettings.standard
  let toolTag ← settingOr text? (some standard.toolTag) (group.setting? "tool_tag" 0)
  let modelTag ← settingOr text? (some standard.modelTag) (group.setting? "model_tag" 1)
  let generationNode ←
    settingOr text? (some standard.generationNode) (group.setting? "generation_node" 2)
  let streamEvent ←
    settingOr text? (some standard.streamEvent) (group.setting? "stream_event" 3)
  let maxBufferBytes ←
    settingOr (natBelow? 0x10000000000000000) (some standard.maxBufferBytes)
      (group.setting? "max_buffer_bytes" 4)
  return { toolTag, modelTag, generationNode, streamEvent, maxBufferBytes }

def ofTable? (entries : List (String × Toml.Value)) : Option Settings := do
  let group := Group.named entries
  let httpPort ← settingOr (natBelow? 0x10000) (some 3000) (group.setting? "http_port" 0)
  let agent ← settingOr agent? none (group.setting? "upstream" 1)
  let demux ← settingOr demux? (some .standard) (group.setting? "demux" 2)
  return { httpPort, agent, demux }

def unreadable : Fault := ⟨.config, "invalid config"⟩

/-- The settings of a document, if they are usable. -/
def ofDocument (document : String) : Except Fault Settings :=
  match (Toml.read? document).bind ofTable? with
  | none => .error unreadable
  | some settings =>
    match settings.check with
    | .ok () => .ok settings
    | .error cause => .error cause.fault

def ofFile (file : File) : Except Fault Settings :=
  let unread (reason : String) : Except Fault Settings :=
    .error ⟨.config, "failed to read config: " ++ reason⟩
  match file.read with
  | .error cause => unread cause.message
  | .ok content =>
    match Bytes.text? content with
    | none => unread "stream did not contain valid UTF-8"
    | some document => ofDocument document

end Unbraid.Settings
