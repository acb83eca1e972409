import FleetLink.ErrorClass
import FleetLink.VehicleId

/-!
# Status notices

Whoever subscribes is told of every status report that is taken in.  A subscriber that does not
keep up loses the oldest notices, and is told how many.  Without a subscriber notices are not kept
at all.
-/

namespace FleetLink

/-- A vehicle reported its status. -/
structure StatusNotice where
  vehicle : VehicleId
  error : ErrorClass
  time : Nat
  deriving DecidableEq, Repr

/-- What waits for a subscriber. -/
structure Inbox where
  /-- How many notices were lost. -/
  lost : Nat
  /-- The notices that are left, oldest first. -/
  waiting : List StatusNotice
  deriving DecidableEq, Repr

namespace Inbox

/-- Nothing waits. -/
def empty : Inbox := ⟨0, []⟩

/-- How many notices may wait. -/
def capacity : Nat := 256

/-- Takes in a notice; the oldest one makes room for it. -/
def push (inbox : Inbox) (notice : StatusNotice) : Inbox :=
  let all := inbox.waiting ++ [notice]
  let excess := all.length - capacity
  ⟨inbox.lost + excess, all.drop excess⟩

end Inbox

end FleetLink
