import FleetLink.Codec.Record
import FleetLink.Text.Blank
import FleetLink.VehicleId.Template

/-!
# Configuration

What an operator can set, and what holds when nothing is set.  Every section and every setting has a
default, so the empty configuration is complete.  Times are whole seconds.

Reading checks each setting on its own; `validate` checks what reading cannot: a fleet must have a
medium to send on, and every bound has to leave room for something.

## Main Definitions

* `Config` and its four sections
* `Config.codec` — a configuration in data
* `Config.validate` — the checks, in the order in which they are reported
-/

namespace FleetLink

/-- Settings of the fleet. -/
structure DriverSettings where
  /-- How a fleet index becomes an id. -/
  idFormat : Template
  /-- A new command takes the place of a pending one. -/
  allowMultipleCommands : Bool
  /-- How many seconds to wait for a response. -/
  commandTimeout : UInt64
  /-- The media to send on, the preferred one first. -/
  preferredMedia : List String
  deriving DecidableEq, Repr

/-- Settings of the assembler. -/
structure ReassemblySettings where
  /-- How many seconds a response may take to arrive. -/
  chunkTimeout : UInt64
  maxPendingBuffers : UInt64
  maxBodyBytes : UInt64
  deriving DecidableEq, Repr

/-- How log lines look on the console. -/
inductive LogFormat where
  | structuredJson
  | pretty
  | compact
  deriving DecidableEq, Repr

/-- Settings of the log. -/
structure LoggingSettings where
  directory : String
  format : LogFormat
  filePrefix : Option String
  deriving DecidableEq, Repr

/-- Settings of the metrics. -/
structure MetricsSettings where
  enabled : Bool
  deriving DecidableEq, Repr

/-- A configuration. -/
structure Config where
  driver : DriverSettings
  reassembly : ReassemblySettings
  logging : LoggingSettings
  metrics : MetricsSettings
  deriving DecidableEq, Repr

/-- A newer command takes the place of the pending one, which has half a minute. -/
def DriverSettings.standard : DriverSettings := ⟨.standard, true, 30, ["wireless"]⟩

/-- Half a minute, 256 buffers, and a megabyte. -/
def ReassemblySettings.standard : ReassemblySettings := ⟨30, 256, 1048576⟩

/-- Structured lines below the build directory. -/
def LoggingSettings.standard : LoggingSettings := ⟨"target/logs", .structuredJson, none⟩

/-- Metrics are on. -/
def MetricsSettings.standard : MetricsSettings := ⟨true⟩

/-- The configuration of whoever configures nothing. -/
def Config.standard : Config := ⟨.standard, .standard, .standard, .standard⟩

instance : Inhabited Config := ⟨.standard⟩

/-- A second command for a vehicle is refused while one is pending. -/
def DriverSettings.strictCommands (s : DriverSettings) : Bool := !s.allowMultipleCommands

/-! ### In data -/

/-- A template in data, as its text. -/
def Template.codec : Codec Template where
  read intake v :=
    match Codec.string.read intake v with
    | .error fault => .error fault
    | .ok text =>
      match Template.parse text with
      | .error fault => .error (.refused fault.message)
      | .ok template => .ok template
  write t := .string t.text

namespace LogFormat

/-- The name of a format. -/
def name : LogFormat → String
  | structuredJson => "structured-json"
  | pretty => "pretty"
  | compact => "compact"

/-- Every format. -/
def all : List LogFormat := [structuredJson, pretty, compact]

/-- A format in data. -/
def codec : Codec LogFormat where
  read intake v :=
    match Codec.readName (all.map name) intake v with
    | .error fault => .error fault
    | .ok chosen => .ok ((all.find? (·.name = chosen)).getD structuredJson)
  write f := .string f.name

end LogFormat

/-- Settings of the fleet in data. -/
def DriverSettings.codec : Codec DriverSettings :=
  .record "struct DriverConfig"
    (.cons (.defaulted "id_format" Template.codec .standard) <|
      .cons (.defaulted "allow_multiple_commands_per_vehicle" .boolean true) <|
      .cons (.defaulted "command_timeout" .word64 30) <|
      .cons (.defaulted "preferred_media" (.list .string) ["wireless"]) .nil)
    (fun (idFormat, allow, timeout, media, ()) => ⟨idFormat, allow, timeout, media⟩)
    (fun s => (s.idFormat, s.allowMultipleCommands, s.commandTimeout, s.preferredMedia, ()))

/-- Settings of the assembler in data. -/
def ReassemblySettings.codec : Codec ReassemblySettings :=
  .record "struct ReassemblyConfig"
    (.cons (.defaulted "chunk_timeout" .word64 30) <|
      .cons (.defaulted "max_pending_buffers" .count64 256) <|
      .cons (.defaulted "max_body_bytes" .count64 1048576) .nil)
    (fun (timeout, buffers, bytes, ()) => ⟨timeout, buffers, bytes⟩)
    (fun s => (s.chunkTimeout, s.maxPendingBuffers, s.maxBodyBytes, ()))

/-- Settings of the log in data. -/
def LoggingSettings.codec : Codec LoggingSettings :=
  .record "struct LoggingConfig"
    (.cons (.defaulted "directory" (.text "path string") "target/logs") <|
      .cons (.defaulted "format" LogFormat.codec .structuredJson) <|
      .cons (.optional "file_prefix" .string) .nil)
    (fun (directory, format, filePrefix, ()) => ⟨directory, format, filePrefix⟩)
    (fun s => (s.directory, s.format, s.filePrefix, ()))

/-- Settings of the metrics in data. -/
def MetricsSettings.codec : Codec MetricsSettings :=
  .record "struct MetricsConfig" (.cons (.defaulted "enabled" .boolean true) .nil)
    (fun (enabled, ()) => ⟨enabled⟩)
    (fun s => (s.enabled, ()))

/-- A configuration in data. -/
def Config.codec : Codec Config :=
  .record "struct AppConfig"
    (.cons (.defaulted "driver" DriverSettings.codec .standard) <|
      .cons (.defaulted "reassembly" ReassemblySettings.codec .standard) <|
      .cons (.defaulted "logging" LoggingSettings.codec .standard) <|
      .cons (.defaulted "metrics" MetricsSettings.codec .standard) .nil)
    (fun (driver, reassembly, logging, metrics, ()) => ⟨driver, reassembly, logging, metrics⟩)
    (fun c => (c.driver, c.reassembly, c.logging, c.metrics, ()))

/-! ### Checks -/

/-- What is wrong with a configuration that can be read. -/
inductive ConfigFault where
  | noMedium
  | blankMedium
  | zeroCommandTimeout
  | zeroChunkTimeout
  | zeroBuffers
  | zeroBodyBytes
  deriving DecidableEq, Repr

/-- The wording of a fault. -/
def ConfigFault.message : ConfigFault → String
  | noMedium => "driver.preferred_media must list at least one medium"
  | blankMedium => "driver.preferred_media must not contain empty names"
  | zeroCommandTimeout => "driver.command_timeout must be positive"
  | zeroChunkTimeout => "reassembly.chunk_timeout must be positive"
  | zeroBuffers => "reassembly.max_pending_buffers must be positive"
  | zeroBodyBytes => "reassembly.max_body_bytes must be positive"

/-- The first fault of a configuration. -/
def Config.fault? (c : Config) : Option ConfigFault :=
  if c.driver.preferredMedia = [] then some .noMedium
  else if ∃ medium ∈ c.driver.preferredMedia, Text.IsBlankText medium then some .blankMedium
  else if c.driver.commandTimeout = 0 then some .zeroCommandTimeout
  else if c.reassembly.chunkTimeout = 0 then some .zeroChunkTimeout
  else if c.reassembly.maxPendingBuffers = 0 then some .zeroBuffers
  else if c.reassembly.maxBodyBytes = 0 then some .zeroBodyBytes
  else none

/-- A configuration that can be used. -/
def Config.validate (c : Config) : Except ConfigFault Unit :=
  match c.fault? with
  | some fault => .error fault
  | none => .ok ()

end FleetLink
