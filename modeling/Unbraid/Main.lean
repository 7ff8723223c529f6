import Unbraid.Console

namespace Unbraid.Console

/-- What stands under a path, as the system says when it is read. -/
def fileAt (path : String) : IO File := do
  try
    return .regular (← IO.FS.readBinFile path).data.toList
  catch
    | .inappropriateType _ 21 _ => return .directory
    | .inappropriateType _ _ _ => return .beyondFile
    | .invalidArgument _ _ _ => return .nameTooLong
    | _ => return .missing

def print (report : Report) : IO UInt32 := do
  for line in report.output do
    IO.println line
  if let some complaint := report.complaint then
    IO.eprintln complaint
  return report.status.toUInt32

end Unbraid.Console

open Unbraid Unbraid.Console in
/-- Reads the files that a command names, runs the command, and prints its report. This program
opens no connections, so a question finds no agent. -/
def main (arguments : List String) : IO UInt32 :=
  match read arguments with
  | .error report => print report
  | .ok command => do
    let files ← command.paths.mapM fun path => return (path, ← fileAt path)
    print (command.report (fun path => (files.lookup path).getD .missing) fun _ => .unreachable)
