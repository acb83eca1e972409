import Std.Data.ExtTreeMap
import FleetLink.Source
import FleetLink.VehicleId

/-!
# The address book

Which address each vehicle uses on each medium, and which vehicle each source belongs to.

**Addresses are write-once.**  The first address a vehicle is seen with on a medium stays until the
vehicle is forgotten, and so does the first vehicle that is seen at an address.  A vehicle that
shows up at another address, or an address that shows up under another vehicle, is refused and
leaves the book as it was.

**Two maps that say the same.**  Commands are addressed through `byVehicle`, responses are
attributed through `bySource`.  The book writes both together and clears both together.

## Main Definitions

* `AddressBook` — the two maps
* `AddressFault` — why a claim is refused
* `AddressBook.record`, `AddressBook.forget` — the two ways the book changes
* `AddressBook.owner?`, `AddressBook.preferred?` — the two ways it is asked
-/

namespace FleetLink

open Std (ExtTreeMap)

/-- Why a claim to an address is refused. -/
inductive AddressFault where
  /-- The vehicle has another address on the medium. -/
  | conflict (vehicle : VehicleId) (medium existing incoming : String)
  /-- The address belongs to another vehicle. -/
  | inUse (medium address : String) (owner claimant : VehicleId)
  deriving DecidableEq, Repr

/-- The wording of a refusal. -/
def AddressFault.message : AddressFault → String
  | conflict vehicle medium existing incoming =>
    s!"vehicle {vehicle} already has address {existing} on {medium}; refusing {incoming}"
  | inUse medium address owner claimant =>
    s!"address {address} on {medium} belongs to vehicle {owner}; refusing claim by {claimant}"

/-- The addresses of a vehicle, by medium. -/
abbrev Addresses := ExtTreeMap String String

/-- The addresses of all vehicles. -/
structure AddressBook where
  byVehicle : ExtTreeMap VehicleId Addresses
  bySource : ExtTreeMap Source VehicleId
  deriving Inhabited

namespace AddressBook

/-- A book without entries. -/
def empty : AddressBook := ⟨∅, ∅⟩

/-- The addresses of a vehicle; none of them when the book does not know it. -/
def addresses (book : AddressBook) (vehicle : VehicleId) : Addresses :=
  book.byVehicle[vehicle]?.getD ∅

/-- The address of a vehicle on a medium. -/
def address? (book : AddressBook) (vehicle : VehicleId) (medium : String) : Option String :=
  (book.addresses vehicle)[medium]?

/-- The vehicle a source belongs to. -/
def owner? (book : AddressBook) (source : Source) : Option VehicleId :=
  book.bySource[source]?

/-- The book with a claim written to both maps. -/
def write (book : AddressBook) (vehicle : VehicleId) (source : Source) : AddressBook where
  byVehicle := book.byVehicle.insert vehicle
    ((book.addresses vehicle).insert source.medium source.address)
  bySource := book.bySource.insert source vehicle

/-- What an accepted claim did. -/
inductive Recorded where
  /-- The address was not known, and is now. -/
  | new
  /-- The address was known already. -/
  | unchanged
  deriving DecidableEq, Repr

/-- A vehicle was seen at a source.  The vehicle's own address on the medium is compared first, the
owner of the source after it. -/
def record (book : AddressBook) (vehicle : VehicleId) (source : Source) :
    Except AddressFault (Recorded × AddressBook) :=
  match book.address? vehicle source.medium with
  | some existing =>
    if existing = source.address then .ok (.unchanged, book)
    else .error (.conflict vehicle source.medium existing source.address)
  | none =>
    match book.owner? source with
    | some owner =>
      if owner = vehicle then .ok (.new, book.write vehicle source)
      else .error (.inUse source.medium source.address owner vehicle)
    | none => .ok (.new, book.write vehicle source)

/-- The source to reach a vehicle at: its address on the first medium of a list on which it has
one. -/
def preferred? (book : AddressBook) (media : List String) (vehicle : VehicleId) : Option Source :=
  media.findSome? fun medium => (book.address? vehicle medium).map fun address => ⟨medium, address⟩

/-- A source is among some addresses. -/
def lists (addresses : Addresses) (source : Source) : Bool :=
  addresses[source.medium]? = some source.address

/-- Clears all addresses of a vehicle from both maps. -/
def forget (book : AddressBook) (vehicle : VehicleId) : AddressBook where
  byVehicle := book.byVehicle.erase vehicle
  bySource := book.bySource.filter fun source _ => !lists (book.addresses vehicle) source

/-- How many addresses are cleared when a vehicle is forgotten. -/
def cleared (book : AddressBook) (vehicle : VehicleId) : Nat :=
  (book.addresses vehicle).size

@[simp] theorem addresses_empty (vehicle : VehicleId) : empty.addresses vehicle = ∅ := by
  simp [addresses, empty]

@[simp] theorem owner?_empty (source : Source) : empty.owner? source = none := by
  simp [owner?, empty]

end AddressBook

end FleetLink
