import FleetLink.Cli.Arguments
import FleetLink.Config.Load
import FleetLink.Report

/-!
# The command line tool

`flockd` shows the configuration in effect, lists vehicle ids, and replays captures.  A run is a
function of the arguments, the environment and the files; the program around it only looks at the
files and prints.

**Which configuration is in effect.**  The one that loading gives.  When loading fails, the standard
configuration takes its place unless a file was named on the command line.

**Exit codes.**  Zero for success, one for a fault, two for faulty arguments, and one hundred and
one when an id has more columns than can be formatted or the log file cannot be written.
-/

namespace FleetLink.Cli

/-- What a run prints, line by line, and how it ends. -/
structure Output where
  code : Nat
  stdout : List String
  stderr : List String
  deriving DecidableEq, Repr

/-- The configuration file that is looked for when none is named. -/
def standardFile : String := "configs/flockd.toml"

/-- The version of the tool. -/
def versionLine : String := "flockd 0.1.0"

/-- The help on a topic. -/
def helpLines : Topic → List String
  | .tool =>
    ["FlockLink fleet driver tool", "", "Usage: flockd [OPTIONS] <COMMAND>", "", "Commands:",
      "  check-config  Load and validate the configuration, then print it",
      "  format-id     Print the vehicle ids the driver would assign",
      "  replay        Replay a JSONL packet capture through an in-memory driver",
      "  help          Print this message or the help of the given subcommand(s)", "", "Options:",
      "      --config <FILE>  Path to configuration file",
      "  -h, --help           Print help", "  -V, --version        Print version"]
  | .checkConfig =>
    ["Load and validate the configuration, then print it", "", "Usage: flockd check-config", "",
      "Options:", "  -h, --help  Print help"]
  | .formatId =>
    ["Print the vehicle ids the driver would assign", "",
      "Usage: flockd format-id [OPTIONS] <INDICES>...", "", "Arguments:",
      "  <INDICES>...  Numeric fleet indices", "", "Options:",
      "      --format <FORMAT>  Override the configured id format",
      "  -h, --help             Print help"]
  | .help =>
    ["Print this message or the help of the given subcommand(s)", "",
      "Usage: flockd help [COMMAND]...", "", "Arguments:",
      "  [COMMAND]...  Print help for the subcommand(s)"]
  | .replay =>
    ["Replay a JSONL packet capture through an in-memory driver", "",
      "Usage: flockd replay [OPTIONS] <FILE>", "", "Arguments:", "  <FILE>  ", "", "Options:",
      "      --metrics  Print Prometheus metrics after the replay",
      "  -h, --help     Print help"]

/-- What is said of faulty arguments. -/
def usageLines : List String :=
  ["error: the arguments are not understood", "", "Usage: flockd [OPTIONS] <COMMAND>", "",
    "For more information, try --help."]

/-- The files that may hold the configuration, the named one first. -/
def candidates (named : Option String) : List String :=
  named.toList ++ [standardFile]

/-- The line for a fault that ends a run. -/
def errorLine (message : String) : String := "Error: " ++ message

/-- A run that ends with a fault. -/
def failed (message : String) : Output := ⟨1, [], [errorLine message]⟩

/-- The end of a run that cannot format an id or cannot write its log. -/
def crashed : Output := ⟨101, [], []⟩

/-- The configuration in effect, its source, and the lines that tell of it; or the fault that ends
the run. -/
def configure (files : Files) (environment named : Option String) :
    Except LoadFault (Config × Option String × List String) :=
  match Config.load files environment (candidates named) with
  | .ok loaded => .ok (loaded.config, some loaded.source, [])
  | .error fault =>
    if named.isSome then .error fault
    else .ok (.standard, none, ["using built-in defaults: " ++ fault.chain])

/-- The listing of ids. -/
def listIds (template : Template) (indices : List UInt32) : Output :=
  if template.fits then
    ⟨0, indices.map fun i => toString i.toNat ++ "\t" ++ VehicleId.ofIndex template i, []⟩
  else crashed

/-- The start of the name of the log file, without what tells its day. -/
def logFile (s : LoggingSettings) : String :=
  Files.join s.directory (s.filePrefix.getD "flockd" ++ ".log")

/-- A replay of a file, once there is a log. -/
def replayFile (files : Files) (time : Nat → String) (config : Config) (file : String)
    (metrics : Bool) : Output :=
  match files file with
  | .absent | .unreachable => failed ("unable to open " ++ file)
  | .directory => failed "Is a directory (os error 21)"
  | .file text =>
    match Replay.run (.new config Algorithm.all) text with
    | .error (.malformed line) =>
      failed (file ++ ":" ++ toString line ++ ": malformed replay record")
    | .error .unformattable => crashed
    | .ok r =>
      let shown :=
        if metrics ∧ config.metrics.enabled then r.session.fleet.metrics.exposition else []
      ⟨0, (Report.replay time r).sorted.pretty :: shown, []⟩

/-- A replay of a file.  First the directory of the log is made, then the log file is begun, which
may stand further down. -/
def replay (files : Files) (time : Nat → String) (config : Config) (file : String)
    (metrics : Bool) : Output :=
  let log := config.logging
  if !files.canMake log.directory then
    failed ("unable to create log directory " ++ log.directory)
  else
    let files := files.making log.directory
    let below := Files.parent (logFile log)
    if !files.canMake below ∨ '\x00' ∈ (logFile log).toList then crashed
    else replayFile (files.making below) time config file metrics

/-- Carries out a command under a configuration. -/
def perform (files : Files) (time : Nat → String) (config : Config) (source : Option String) :
    Command → Output
  | .checkConfig =>
    match config.validate with
    | .error fault => failed fault.message
    | .ok () => ⟨0, [(Report.config config source).sorted.pretty], []⟩
  | .formatId indices template => listIds (template.getD config.driver.idFormat) indices
  | .replay file metrics => replay files time config file metrics

/-- A run of the tool, given how points in time are written. -/
def run (files : Files) (environment : Option String) (time : Nat → String) (args : List String) :
    Output :=
  match request none args with
  | none => ⟨2, [], usageLines⟩
  | some .version => ⟨0, [versionLine], []⟩
  | some (.help topic) => ⟨0, helpLines topic, []⟩
  | some (.run named command) =>
    match configure files environment named with
    | .error fault => failed fault.message
    | .ok (config, source, told) =>
      let output := perform files time config source command
      { output with stderr := told ++ output.stderr }

/-- The paths that a run looks at to find its configuration. -/
def configPaths (environment : Option String) (args : List String) : List String :=
  match request none args with
  | some (.run named _) => environment.toList ++ candidates named
  | _ => []

/-- The configuration and the capture of a replay, if that is what a run is to do. -/
def replayed? (files : Files) (environment : Option String) (args : List String) :
    Option (Config × String) :=
  match request none args with
  | some (.run named (.replay file _)) =>
    match configure files environment named with
    | .ok (config, _) => some (config, file)
    | .error _ => none
  | _ => none

/-- The paths that a run looks at once it has its configuration. -/
def replayPaths (files : Files) (environment : Option String) (args : List String) : List String :=
  match replayed? files environment args with
  | some (config, file) => [config.logging.directory, Files.parent (logFile config.logging), file]
  | none => []

end FleetLink.Cli
