import FleetLink.Text.Digits
import FleetLink.VehicleId.Template

/-!
# Command line arguments

Arguments are read from the left.  A request for the version or for help ends the reading, whatever
follows it; a fault ends it too, and then there is no request.

An option's value is the argument behind it or stands behind an equals sign.  It cannot be empty,
and if it is an argument of its own it cannot look like an option.  No option may be given twice.
Behind two dashes nothing is an option.
-/

namespace FleetLink.Cli

/-- What the tool is to do. -/
inductive Command where
  /-- Prints the configuration in effect. -/
  | checkConfig
  /-- Prints the ids of indices. -/
  | formatId (indices : List UInt32) (template : Option Template)
  /-- Replays a capture. -/
  | replay (file : String) (metrics : Bool)
  deriving DecidableEq, Repr

/-- What help is about. -/
inductive Topic where
  | tool
  | checkConfig
  | formatId
  | replay
  | help
  deriving DecidableEq, Repr

/-- What the arguments ask for. -/
inductive Request where
  | version
  | help (topic : Topic)
  | run (config : Option String) (command : Command)
  deriving DecidableEq, Repr

/-- An argument that looks like an option.  A single dash does not. -/
def isOption (arg : String) : Bool :=
  "-".isPrefixOf arg && arg ≠ "-"

/-- The value that an argument gives to a long option behind an equals sign. -/
def assigned? (option arg : String) : Option String :=
  let marked := (option ++ "=").toList
  if marked.isPrefixOf arg.toList then some (String.ofList (arg.toList.drop marked.length))
  else none

/-- An argument that asks for help. -/
def asksHelp (arg : String) : Bool :=
  arg = "--help" || "-h".isPrefixOf arg

/-- An argument that asks for the version. -/
def asksVersion (arg : String) : Bool :=
  arg = "--version" || "-V".isPrefixOf arg

/-- The index that an argument gives: digits behind a sign, if there is one. -/
def index? (arg : String) : Option UInt32 :=
  let (negative, ds) :=
    match arg.toList with
    | '-' :: ds => (true, ds)
    | '+' :: ds => (false, ds)
    | ds => (false, ds)
  let n := Text.decimalValue ds
  if ds = [] ∨ ¬ds.all Char.isDigit then none
  else if negative then if n = 0 then some 0 else none
  else if n < UInt32.size then some (UInt32.ofNat n) else none

/-- The template that an argument gives. -/
def template? (arg : String) : Option Template := (Template.parse arg).toOption

/-- The arguments of the configuration report: there are none. -/
def checkConfigRequest (config : Option String) : List String → Option Request
  | [] => some (.run config .checkConfig)
  | "--" :: rest => if rest = [] then some (.run config .checkConfig) else none
  | arg :: _ => if asksHelp arg then some (.help .checkConfig) else none

/-- The arguments of the listing of ids, given the indices so far, last first. -/
def formatIdRequest (config : Option String) (indices : List UInt32) (template : Option Template) :
    List String → Option Request
  | [] => if indices = [] then none else some (.run config (.formatId indices.reverse template))
  | arg :: rest =>
    if arg = "--" then
      match rest.mapM index? with
      | none => none
      | some more =>
        if indices = [] ∧ more = [] then none
        else some (.run config (.formatId (indices.reverse ++ more) template))
    else if asksHelp arg then some (.help .formatId)
    else if arg = "--format" then
      match rest with
      | [] => none
      | value :: rest =>
        if isOption value ∨ template.isSome then none
        else
          match template? value with
          | none => none
          | some t => formatIdRequest config indices (some t) rest
    else
      match assigned? "--format" arg with
      | some value =>
        if template.isSome then none
        else
          match template? value with
          | none => none
          | some t => formatIdRequest config indices (some t) rest
      | none =>
        if isOption arg then none
        else
          match index? arg with
          | none => none
          | some i => formatIdRequest config (i :: indices) template rest

/-- The arguments of a replay. -/
def replayRequest (config : Option String) (file : Option String) (metrics : Bool) :
    List String → Option Request
  | [] => file.map fun f => .run config (.replay f metrics)
  | arg :: rest =>
    if arg = "--" then
      match file, rest with
      | some f, [] => some (.run config (.replay f metrics))
      | none, [f] => if f = "" then none else some (.run config (.replay f metrics))
      | _, _ => none
    else if asksHelp arg then some (.help .replay)
    else if arg = "--metrics" then
      if metrics then none else replayRequest config file true rest
    else if isOption arg ∨ arg = "" ∨ file.isSome then none
    else replayRequest config (some arg) metrics rest

/-- What help is asked for by name. -/
def helpRequest : List String → Option Request
  | [] => some (.help .tool)
  | ["check-config"] => some (.help .checkConfig)
  | ["format-id"] => some (.help .formatId)
  | ["replay"] => some (.help .replay)
  | ["help"] => some (.help .help)
  | _ => none

/-- What the arguments ask for, given the configuration file named so far; none if they
are faulty. -/
def request (config : Option String) : List String → Option Request
  | [] => none
  | arg :: rest =>
    if asksVersion arg then some .version
    else if asksHelp arg then some (.help .tool)
    else if arg = "--config" then
      match rest with
      | [] => none
      | value :: rest =>
        if isOption value ∨ value = "" ∨ config.isSome then none else request (some value) rest
    else
      match assigned? "--config" arg with
      | some value => if value = "" ∨ config.isSome then none else request (some value) rest
      | none =>
        match arg with
        | "check-config" => checkConfigRequest config rest
        | "format-id" => formatIdRequest config [] none rest
        | "replay" => replayRequest config none false rest
        | "help" => helpRequest rest
        | _ => none

end FleetLink.Cli
