import FleetLink.Config
import FleetLink.Files
import FleetLink.Toml

/-!
# Loading a configuration

A configuration is read from one file.  An operator may name it in the environment; otherwise it is
the first of a list of candidates that exists.  The files behind it are never looked at, so a broken
file is reported even if a later candidate is fine.

**Faults have layers.**  `message` says what went wrong with which file, and `chain` adds why.  A
setting that breaks a rule is reported by itself, whatever file it came from.

## Main Definitions

* `Config.ofText` — a configuration from the text of a file
* `Config.choose`, `Config.load` — which file is read, and what comes of it
-/

namespace FleetLink

/-! ### From text -/

/-- Why a text is no configuration that can be used. -/
inductive ConfigTextFault where
  /-- It is no TOML; it is wrong at a place. -/
  | badDocument (place : Text.Place)
  /-- It holds something else than settings. -/
  | badSetting (document : Toml.Document) (fault : Fault)
  /-- It breaks a rule. -/
  | broken (fault : ConfigFault)

/-- The place that a fault points to. -/
def ConfigTextFault.place? : ConfigTextFault → Option Text.Place
  | badDocument place => some place
  | badSetting document fault => some (document.place fault)
  | broken _ => none

namespace Config

/-- The configuration that a text holds. -/
def ofText (text : String) : Except ConfigTextFault Config :=
  match Toml.parse text with
  | .error place => .error (.badDocument place)
  | .ok document =>
    match codec.read .document document.toValue with
    | .error fault => .error (.badSetting document fault)
    | .ok config =>
      match config.validate with
      | .error fault => .error (.broken fault)
      | .ok () => .ok config

end Config

/-! ### From files -/

/-- Why no configuration was loaded. -/
inductive LoadFault where
  | noFile (inspected : List String)
  | missing (path : String)
  | unreachable (path : String)
  | isDirectory (path : String)
  | badFile (path : String) (fault : ConfigTextFault)

namespace LoadFault

/-- What went wrong. -/
def message : LoadFault → String
  | noFile inspected =>
    "no configuration files found. inspected: " ++ ", ".intercalate inspected
  | missing path | unreachable path | isDirectory path => s!"unable to read config file {path}"
  | badFile _ (.broken fault) => fault.message
  | badFile path _ => s!"failed to parse config file {path}"

/-- Why it went wrong, if there is more to say. -/
def cause? : LoadFault → Option String
  | noFile _ => none
  | missing _ => some "No such file or directory (os error 2)"
  | unreachable _ => some "Not a directory (os error 20)"
  | isDirectory _ => some "Is a directory (os error 21)"
  | badFile _ fault =>
    fault.place?.map fun place =>
      s!"TOML parse error at line {place.line}, column {place.column}"

/-- What went wrong and why, in one line. -/
def chain (fault : LoadFault) : String :=
  match fault.cause? with
  | none => fault.message
  | some cause => fault.message ++ ": " ++ cause

end LoadFault

/-- A configuration and the file it came from. -/
structure LoadedConfig where
  config : Config
  source : String
  deriving DecidableEq, Repr

namespace Config

/-- The configuration in a file. -/
def ofFile (files : Files) (path : String) : Except LoadFault LoadedConfig :=
  match files path with
  | .absent => .error (.missing path)
  | .unreachable => .error (.unreachable path)
  | .directory => .error (.isDirectory path)
  | .file text =>
    match ofText text with
    | .error fault => .error (.badFile path fault)
    | .ok config => .ok ⟨config, path⟩

/-- The file to read: the one the environment names unless that is blank, else the first candidate
that exists. -/
def choose (files : Files) (named : Option String) (candidates : List String) : Option String :=
  match named.filter fun path => ¬Text.IsBlankText path with
  | some path => some path
  | none => candidates.find? files.exist

/-- Loads the configuration. -/
def load (files : Files) (named : Option String) (candidates : List String) :
    Except LoadFault LoadedConfig :=
  match choose files named candidates with
  | none => .error (.noFile candidates)
  | some path => ofFile files path

end Config

end FleetLink
