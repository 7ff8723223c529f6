import Unbraid.Agent
import Unbraid.CommandLine
import Unbraid.Relay.Play
import Unbraid.Settings.Document
import Unbraid.Question

/-!
# The console

The program that runs a session at the terminal: on a capture of an answer, or on the answer to a
question. Each event is printed as one line of JSON.
-/

namespace Unbraid.Console

inductive Command where
  /-- Run a session on a captured answer. -/
  | replay (file : String) (chunkSize : Nat) (settings : Option String)
  /-- Put a question to the agent and run a session on the answer. -/
  | ask (settings : String) (question : Question)
  deriving DecidableEq, Repr

def program : String := "agent-demux-ctl"

def programHelp : List String :=
  ["Local CLI for the agent-demux stream demultiplexer",
    "",
    "Usage: agent-demux-ctl <COMMAND>",
    "",
    "Commands:",
    "  replay  Demultiplex a captured upstream answer",
    "  ask     Ask the configured agent a question and print its answer events",
    "  help    Print this message or the help of the given subcommand(s)",
    "",
    "Options:",
    "  -h, --help     Print help",
    "  -V, --version  Print version"]

def replayHelp : List String :=
  ["Demultiplex a captured upstream answer",
    "",
    "Usage: agent-demux-ctl replay [OPTIONS] <FILE>",
    "",
    "Arguments:",
    "  <FILE>  File holding the raw answer bytes",
    "",
    "Options:",
    "      --chunk-size <CHUNK_SIZE>  Feed the file in chunks of this many bytes [default: 64]",
    "      --config <CONFIG>          Take demux constants from this TOML configuration",
    "  -h, --help                     Print help"]

def askHelp : List String :=
  ["Ask the configured agent a question and print its answer events",
    "",
    "Usage: agent-demux-ctl ask [OPTIONS] --config <CONFIG> --question <QUESTION>",
    "",
    "Options:",
    "      --config <CONFIG>        Path to the TOML configuration file",
    "      --question <QUESTION>    Question text",
    "      --thread-id <THREAD_ID>  Conversation thread identifier [default: ctl]",
    "  -h, --help                   Print help"]

def helpHelp : List String :=
  ["Print this message or the help of the given subcommand(s)",
    "",
    "Usage: agent-demux-ctl help [COMMAND]...",
    "",
    "Arguments:",
    "  [COMMAND]...  Print help for the subcommand(s)"]

def chunkSize? (text : String) : Option Nat :=
  (CommandLine.natural? text).filter fun size => size < 0x10000000000000000

def replayUsage : CommandLine.Usage where
  options := [⟨"chunk-size", fun text => (chunkSize? text).isSome⟩, ⟨"config", CommandLine.isPath⟩]
  operands := [⟨"file", CommandLine.isPath⟩]
  hasVersion := false

def askUsage : CommandLine.Usage where
  options := [⟨"config", CommandLine.isPath⟩, ⟨"question", CommandLine.anyText⟩,
    ⟨"thread-id", CommandLine.anyText⟩]
  operands := []
  hasVersion := false

/-- The parameters before the name of a command. -/
def programUsage : CommandLine.Usage := ⟨[], [], true⟩

def replayOf (given : CommandLine.Given) : Option Command := do
  let file ← given.lookup "file"
  let chunkSize := ((given.lookup "chunk-size").bind chunkSize?).getD 64
  return .replay file chunkSize (given.lookup "config")

def askOf (given : CommandLine.Given) : Option Command := do
  let settings ← given.lookup "config"
  let text ← given.lookup "question"
  return .ask settings ⟨text, (given.lookup "thread-id").getD "ctl"⟩

/-- What the arguments of the program say: a command, or a report that can be given at once. -/
def read (arguments : List String) : Except Report Command :=
  let misuse := Except.error (Report.misuse program)
  let readAs (usage : CommandLine.Usage) (help : List String)
      (command : CommandLine.Given → Option Command) (rest : List String) :
      Except Report Command :=
    match usage.read rest with
    | .help => .error (.success help)
    | .version => .error (.success [program ++ " 0.1.0"])
    | .refused => misuse
    | .given given => match command given with
      | some command => .ok command
      | none => misuse
  match arguments with
  | "replay" :: rest => readAs replayUsage replayHelp replayOf rest
  | "ask" :: rest => readAs askUsage askHelp askOf rest
  | ["help"] => .error (.success programHelp)
  | ["help", "replay"] => .error (.success replayHelp)
  | ["help", "ask"] => .error (.success askHelp)
  | ["help", "help"] => .error (.success helpHelp)
  | arguments => readAs programUsage programHelp (fun _ => none) arguments

def line : Delivery → String
  | .event event => event.value.text
  | .failure fault =>
    (Json.Value.object [("message", .string fault.text), ("type", .string "error")]).text

/-- The lines of all deliveries to a printer, which takes every one. -/
def linesOf (outbox : Outbox) : List String := outbox.log.map fun attempt => line attempt.delivery

def report (lines : List String) : Option Fault → Report
  | none => .success lines
  | some fault => ⟨1, lines, some ("Error: " ++ fault.text)⟩

/-- Cuts bytes into chunks of a size; the last one may be shorter. -/
def chunks (size : Nat) (bytes : Bytes) : List Bytes :=
  match bytes with
  | [] => []
  | first :: rest => (first :: rest.take (size - 1)) :: chunks size (rest.drop (size - 1))
termination_by bytes.length
decreasing_by simp only [List.length_drop, List.length_cons]; omega

def demuxFrom (files : String → File) (settings : Option String) : Except Fault DemuxSettings :=
  match settings with
  | some path => (Settings.ofFile (files path)).map fun settings => settings.demux
  | none => .ok .standard

/-- Runs a session on a captured answer. -/
def replay (files : String → File) (file : String) (chunkSize : Nat) (settings : Option String) :
    Except Fault Called := do
  if chunkSize = 0 then throw ⟨.config, "--chunk-size must be positive"⟩
  let demux ← demuxFrom files settings
  let capture ← match (files file).read with
    | .ok capture => pure capture
    | .error cause => throw ⟨.io, "cannot read " ++ file ++ ": " ++ cause.message⟩
  match Session.start file demux with
  | .error cause => throw cause.fault
  | .ok session => return session.receive (.fresh .accepting) (chunks chunkSize capture)

def itemLine : Item → String
  | .ok event => line (.event event)
  | .error fault => line (.failure fault)

def faultOf (relay : Relay) : Option Fault :=
  match relay.outcome with
  | some (.completed _) => none
  | _ =>
    let faults := relay.received.filterMap fun
      | .error fault => some fault
      | .ok _ => none
    some (faults.getLast?.getD ⟨.cancelled, "relay stopped early"⟩)

/-- Relays the answer to a question, through a channel for 64 items. -/
def ask (files : String → File) (agent : Question → Agent.Reply) (settings : String)
    (question : Question) : Except Fault Relay := do
  let settings ← Settings.ofFile (files settings)
  match Session.start question.thread settings.demux, (agent question).inputs with
  | .error cause, _ => throw cause.fault
  | _, .error cause => throw cause.fault
  | .ok session, .ok inputs =>
    return ((Relay.start session 64).applyAll (inputs.map .arrive)).play none false

def Command.report (files : String → File) (agent : Question → Agent.Reply) : Command → Report
  | replay file chunkSize settings =>
    match Console.replay files file chunkSize settings with
    | .error fault => Console.report [] (some fault)
    | .ok called => Console.report (linesOf called.outbox) called.fault
  | ask settings question =>
    match Console.ask files agent settings question with
    | .error fault => Console.report [] (some fault)
    | .ok relay => Console.report (relay.received.map itemLine) (faultOf relay)

def Command.paths : Command → List String
  | replay file _ settings => file :: settings.toList
  | ask settings _ => [settings]

def reportOf (files : String → File) (agent : Question → Agent.Reply) (arguments : List String) :
    Report :=
  match read arguments with
  | .error report => report
  | .ok command => command.report files agent

end Unbraid.Console
