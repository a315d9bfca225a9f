import Signet.Server

/-!
# The program

Reads the command line, the environment and the configuration, and serves. The exit code tells
whether it ended as it should, failed, or was misused.
-/

namespace Signet

/-- The variables of the environment that matter. -/
def readEnvironment : IO (List (String × String)) := do
  let names := CommandLine.Setting.all.filterMap CommandLine.Setting.environmentName?
  let values ← names.mapM fun name => return (name, ← IO.getEnv name)
  return values.filterMap fun (name, value?) => value?.map (name, ·)

def readFile (path : String) : IO (Except FileFault Octets) := do
  try
    return .ok (← IO.FS.readBinFile path).toList
  catch
    | .noFileOrDirectory .. => return .error .missing
    | .inappropriateType _ code _ => return .error (if code = 20 then .notDirectory else .directory)
    | problem => return .error (.other (toString problem))

def complain (lines : List String) : IO Unit := do
  for line in lines do
    IO.eprintln line

end Signet

open Signet in
def main (arguments : List String) : IO UInt32 := do
  let environment ← readEnvironment
  let named := fun name => environment.lookup name
  let file ← match CommandLine.read arguments named with
    | .ok settings => readFile settings.config
    | .error _ => pure (.error .missing)
  match Startup.start arguments named fun _ => file with
  | .help lines =>
    lines.forM IO.println
    return 0
  | .misuse fault =>
    complain (Startup.advise fault)
    return 2
  | .failed settings log error =>
    Server.print settings log
    complain (Startup.report error)
    return 1
  | .ready settings log service =>
    Server.print settings log
    try
      Server.run settings service
      return 0
    catch problem =>
      complain [s!"Error: binding {Startup.address settings}", "", "Caused by:", s!"    {problem}"]
      return 1
