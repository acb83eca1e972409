import FleetLink.Cli
import FleetLink.Timestamp
import Std.Time

/-!
# The program

Looks at the files that a run may need, carries the run out, and prints what it gives.  Time in a
replay passes as the capture says, from the moment at which the program starts.
-/

namespace FleetLink

/-- What stands at a path now.  What is there but cannot be read as text counts as a directory. -/
def lookAt (path : String) : IO FileEntry := do
  match ← (IO.FS.readFile path).toBaseIO with
  | .ok text => return .file text
  | .error (.noFileOrDirectory ..) => return .absent
  | .error (.inappropriateType ..) => return .unreachable
  | .error _ => return .directory

/-- What stands at some paths now; everything else counts as absent. -/
def lookAtAll (paths : List String) : IO Files := do
  let entries ← paths.mapM fun path => do return (path, ← lookAt path)
  return fun path => ((entries.find? (·.1 = path)).map (·.2)).getD .absent

/-- The milliseconds since the beginning of 1970. -/
def wallClock : IO Nat := do
  return (← Std.Time.Timestamp.now).toMillisecondsSinceUnixEpoch.toInt.toNat

end FleetLink

open FleetLink in
def main (args : List String) : IO UInt32 := do
  let environment ← IO.getEnv "FLOCK_CONFIG"
  let settings ← lookAtAll (Cli.configPaths environment args)
  let others := Cli.replayPaths settings environment args
  let files ← lookAtAll (Cli.configPaths environment args ++ others)
  if let some (config, _) := Cli.replayed? settings environment args then
    let _ ← (IO.FS.createDirAll config.logging.directory).toBaseIO
  let start ← wallClock
  let output := Cli.run files environment (fun millis => timestampText (start + millis)) args
  for line in output.stderr do
    IO.eprintln line
  for line in output.stdout do
    IO.println line
  return UInt32.ofNat output.code
