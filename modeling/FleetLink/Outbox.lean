import FleetLink.Packet
import FleetLink.Text.Utf8

/-!
# The outbox

Packets leave through a link that may be down.  What was handed to it while it was up is kept, in
order.
-/

namespace FleetLink

/-- A packet that was sent. -/
structure SentPacket where
  destination : Source
  packet : Packet
  deriving DecidableEq, Repr

/-- The link and what went through it. -/
structure Outbox where
  /-- The link is down. -/
  failing : Bool
  /-- What was sent, the first packet first. -/
  sent : List SentPacket
  deriving DecidableEq, Repr, Inhabited

namespace Outbox

/-- Nothing was sent yet. -/
def empty : Outbox := ⟨false, []⟩

/-- Sends a packet, unless the link is down. -/
def send? (o : Outbox) (destination : Source) (packet : Packet) : Option Outbox :=
  if o.failing then none else some { o with sent := o.sent ++ [⟨destination, packet⟩] }

/-- The command lines among what was sent. -/
def lines (o : Outbox) : List String :=
  o.sent.filterMap fun s =>
    match s.packet with
    | .commandRequest line => some (Text.decodeLossy line)
    | _ => none

end Outbox

end FleetLink
