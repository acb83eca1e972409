import FleetLink.Text.Blank
import FleetLink.VehicleId.Template

/-!
# Vehicle ids

An id names a vehicle everywhere in the program: in the registry, the address book, the command
table and in front of every channel.  `ofRaw` turns any text into an id by replacing what an id
may not hold; `ofIndex` makes the id of a fleet index from a template.
-/

namespace FleetLink

/-- The name of a vehicle. -/
abbrev VehicleId := String

namespace VehicleId

/-- The characters an id may hold: ASCII letters, digits and four marks. -/
def isAllowed (c : Char) : Bool :=
  c.isAlphanum || c = '-' || c = '_' || c = '.' || c = ':'

/-- The characters of an id made from any characters: blanks around them go, whatever is not allowed
becomes an underscore, and nothing at all becomes one underscore. -/
def sanitise (raw : List Char) : List Char :=
  match (Text.trimChars raw).map fun c => if isAllowed c then c else '_' with
  | [] => ['_']
  | cs => cs

/-- The id made from any text. -/
def ofRaw (raw : String) : VehicleId :=
  String.ofList (sanitise raw.toList)

/-- The id of a fleet index. -/
def ofIndex (template : Template) (index : UInt32) : VehicleId :=
  ofRaw (template.render index)

end VehicleId

end FleetLink
