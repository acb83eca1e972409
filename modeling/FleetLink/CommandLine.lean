import FleetLink.Packet
import FleetLink.Binary64.Shortest
import FleetLink.Text.Blank
import FleetLink.Text.Utf8

/-!
# Command lines

The lines that are sent to vehicles.  A few commands have a fixed line; a flight to a position
carries its coordinates with seven places, which is about a centimetre, and the height above the
ground if there is one.  A generic command is a word with arguments, set apart by single blanks: an
argument that held a blank would read as two, so `validate` refuses it.
-/

namespace FleetLink

/-- Why a generic command is not sent. -/
inductive CommandFault where
  | empty
  | keywordArguments
  | blankInArgument
  deriving DecidableEq, Repr

/-- The wording of a fault. -/
def CommandFault.message : CommandFault → String
  | empty => "Empty command"
  | keywordArguments => "Keyword arguments not supported"
  | blankInArgument => "Arguments must not contain whitespace"

namespace CommandLine

/-- Starts the motors. -/
def takeoff : String := "motoron"

/-- Lands where the vehicle is. -/
def land : String := "land"

/-- Returns to where the vehicle started. -/
def returnToHome : String := "rth"

/-- Stops everything. -/
def shutdown : String := "halt"

/-- Flies to a position. -/
def flyTo (target : Position) : String :=
  "go N" ++ target.lat.fixed 7 ++ " E" ++ target.lon.fixed 7 ++
    match target.agl with
    | none => ""
    | some agl => " " ++ agl.plain

/-- A command and its arguments, set apart by single blanks. -/
def generic (command : String) (args : List String) : String :=
  " ".intercalate (command :: args)

/-- A generic command is fine when it is not blank, takes no keywords, and no argument holds a
blank.  Of several faults the first of these is reported. -/
def validate (command : String) (args : List String) (keywords : List (String × String)) :
    Except CommandFault Unit :=
  if Text.IsBlankText command then .error .empty
  else if keywords ≠ [] then .error .keywordArguments
  else if args.any Text.hasBlank then .error .blankInArgument
  else .ok ()

/-- The packet that carries a line. -/
def packet (line : String) : Packet := .commandRequest (Text.encode line)

end CommandLine

end FleetLink
