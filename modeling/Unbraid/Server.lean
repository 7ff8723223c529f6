import Unbraid.CommandLine
import Unbraid.Log
import Unbraid.Settings.Document
import Unbraid.Text

/-!
# The server

The program that serves questions over HTTP: it reads its settings, listens on a port of the local
host, and goes on until it is told to stop. This module says what it writes to its log and how it
ends; what it answers to requests is the matter of `Unbraid.Service`.
-/

namespace Unbraid.Server

structure Options where
  settings : String
  logFormat : Log.Format
  /-- The port to listen on instead of the one in the settings. -/
  port : Option Nat
  deriving DecidableEq, Repr

def program : String := "agent-demux"

def help : List String :=
  ["Streaming agent answer demultiplexer",
    "",
    "Usage: agent-demux [OPTIONS] --config <CONFIG>",
    "",
    "Options:",
    "      --config <CONFIG>          Path to the TOML configuration file",
    "      --log-format <LOG_FORMAT>  Log output format (text or json) [default: text] "
      ++ "[possible values: text, json]",
    "      --port <PORT>              Override the configured HTTP port",
    "  -h, --help                     Print help",
    "  -V, --version                  Print version"]

/-- A port. Zero may have a minus sign. -/
def port? (text : String) : Option Nat :=
  match text.toList with
  | '-' :: digit :: rest =>
    if digit.isDigit then
      (CommandLine.natural? (String.ofList (digit :: rest))).filter fun n => n = 0
    else none
  | _ => (CommandLine.natural? text).filter fun n => n < 0x10000

def usage : CommandLine.Usage where
  options := [⟨"config", CommandLine.isPath⟩,
    ⟨"log-format", fun text => (Log.Format.ofName? text).isSome⟩,
    ⟨"port", fun text => (port? text).isSome⟩]
  operands := []
  hasVersion := true

/-- What the arguments say: how to start, or a report that can be given at once. -/
def read (arguments : List String) : Except Report Options :=
  match usage.read arguments with
  | .help => .error (.success help)
  | .version => .error (.success [program ++ " 0.1.0"])
  | .refused => .error (.misuse program)
  | .given given =>
    match given.lookup "config" with
    | none => .error (.misuse program)
    | some settings =>
      .ok { settings
            logFormat := ((given.lookup "log-format").bind Log.Format.ofName?).getD .text
            port := (given.lookup "port").bind port? }

def Options.apply (options : Options) (settings : Settings) : Settings :=
  { settings with httpPort := options.port.getD settings.httpPort }

def target (listens : Bool) : String := if listens then "agent_demux::server" else "agent_demux"

def info (message : String) (fields : List (String × Log.Content)) : Log.Record :=
  ⟨.info, target false, message, fields⟩

def listenerInfo (message : String) (fields : List (String × Log.Content)) : Log.Record :=
  ⟨.info, target true, message, fields⟩

def address (port : Nat) : String := "127.0.0.1:" ++ toString port

/-- What the attempt to listen on a port comes to: the port, which the system chooses if none is
asked for, or the reason why it failed. -/
abbrev Network := Nat → Except String Nat

def bindFault (port : Nat) (reason : String) : Fault :=
  ⟨.io, "failed to bind " ++ address port ++ ": " ++ reason⟩

/-- The records of the time from listening to the end. The server ends when it is told to stop, or
at once if it cannot listen. -/
def serve (network : Network) (settings : Settings) : List Log.Record :=
  let ended := [info "agent-demux shut down" []]
  match network settings.httpPort with
  | .error reason =>
    let fault := bindFault settings.httpPort reason
    ⟨.error, target false, "http relay failed", [("err", .text fault.text)]⟩ :: ended
  | .ok port =>
    [listenerInfo "starting HTTP/SSE relay" [("addr", .text (address port))],
      info "shutdown signal received" [],
      listenerInfo "HTTP/SSE relay shut down" []] ++ ended

def kindName : FaultKind → String
  | .config => "Config"
  | .agent => "Upstream"
  | .stream => "Stream"
  | .sink => "Sink"
  | .cancelled => "Cancelled"
  | .io => "Io"

def complaint (fault : Fault) : String :=
  "Error: " ++ kindName fault.kind ++ "(" ++ Text.quoted fault.message ++ ")"

/-- A whole run of the server: its report and the lines of its log. -/
structure Run where
  report : Report
  log : List String
  deriving DecidableEq, Repr

/-- The run of a server that is told to stop once it listens. -/
def run (files : String → File) (network : Network) (arguments : List String) : Run :=
  match read arguments with
  | .error report => ⟨report, []⟩
  | .ok options =>
    let lines := fun records : List Log.Record => records.flatMap options.logFormat.lines
    let started := info "agent-demux bootstrap" []
    match Settings.ofFile (files options.settings) with
    | .error fault => ⟨⟨1, [], some (complaint fault)⟩, lines [started]⟩
    | .ok settings =>
      let settings := options.apply settings
      let loaded := info "configuration loaded"
        [("upstream", .text settings.agent.url), ("http_port", .number settings.httpPort)]
      ⟨.success [], lines (started :: loaded :: serve network settings)⟩

end Unbraid.Server
