import FleetLink.Capture
import FleetLink.Session

/-!
# Replaying captures

A capture is fed to a fleet record by record.  Packets are taken in at once.  A command begins as a
call that waits while the records behind it are applied; once there are no more records, the calls
are waited for in the order of their records.

**A command for a busy vehicle begins late.**  Whoever replays goes on at once when the vehicle of a
command has a pending command, whether or not that is the one just issued.  The new call then begins
only when time passes, when another command lets the calls begin, or at the end.

**A replay that fails** has applied exactly the records in front of the line that is no record.

## Main Definitions

* `Replay` — how far a replay has come
* `Replay.apply` — one record
* `Replay.feed` — the lines of a capture, up to the first fault
* `Replay.summary` — what the records came to
-/

namespace FleetLink

/-- The index that a packet makes its handler ask for. -/
def Packet.index? : Packet → Option UInt32
  | .status report => some report.index
  | .algorithmData data => some data.index
  | _ => none

/-- The id of an index is known or can be formatted. -/
def Fleet.canIdentify (f : Fleet) (index : UInt32) : Bool :=
  f.ids.contains index || f.settings.idFormat.fits

/-- A command of a capture. -/
structure IssuedCommand where
  /-- The number of the call it begins. -/
  id : CallId
  vehicle : VehicleId
  line : String
  deriving DecidableEq, Repr

/-- How far a replay has come. -/
structure Replay where
  session : Session
  /-- The commands whose calls have not begun. -/
  queued : List IssuedCommand
  /-- Every command so far. -/
  issued : List IssuedCommand
  /-- How many records were applied. -/
  records : Nat
  /-- What became of the packets. -/
  outcomes : Tally

/-- Why a replay stops. -/
inductive ReplayFault where
  /-- A line is no record. -/
  | malformed (line : Nat)
  /-- An id would have more columns than can be formatted; the program does not survive that. -/
  | unformattable
  deriving DecidableEq, Repr

/-- What a command of a capture came to. -/
structure CommandReport where
  vehicle : VehicleId
  line : String
  result : CallResult

/-- What a capture came to. -/
structure ReplaySummary where
  records : Nat
  outcomes : Tally
  commands : List CommandReport

namespace Replay

/-- A replay at its start. -/
def new (session : Session) : Replay := ⟨session, [], [], 0, .empty⟩

/-- The calls of the queued commands begin. -/
def startQueued (r : Replay) : Replay :=
  { r with
    session := (r.queued.foldl (fun s c => s.begin true c.vehicle c.line) r.session).settle
    queued := [] }

/-- Time passes, if there is any to pass. -/
def pause (r : Replay) (millis : Nat) : Replay :=
  if millis = 0 then r
  else
    let r := r.startQueued
    { r with session := r.session.step (.advance millis) }

/-- A packet arrives. -/
def inbound (r : Replay) (source : Source) (packet : Packet) : Replay :=
  let handling := (r.session.fleet.receive r.session.now source packet).2
  { r with
    session := r.session.step (.packet source packet)
    outcomes := r.outcomes.bump handling.label }

/-- A command is issued. -/
def issue (r : Replay) (vehicle : VehicleId) (line : String) : Replay :=
  let command : IssuedCommand := ⟨r.session.next + r.queued.length, vehicle, line⟩
  let r := { r with queued := r.queued ++ [command], issued := r.issued ++ [command] }
  if r.session.fleet.commands.isPending vehicle then r else r.startQueued

/-- What a record is about happens. -/
def act (r : Replay) : CaptureAction → Replay
  | .inbound source packet => r.inbound source packet
  | .command vehicle line => r.issue vehicle line

/-- Applies a record. -/
def apply (r : Replay) (record : CaptureRecord) : Replay :=
  let r := (r.pause ((record.delay.getD 0).toNat)).act record.action
  { r with records := r.records + 1 }

/-- A record would need an id that cannot be formatted. -/
def stopsAt (r : Replay) (record : CaptureRecord) : Bool :=
  match record.action with
  | .inbound _ packet => packet.index?.any fun index => !r.session.fleet.canIdentify index
  | .command _ _ => false

/-- Applies numbered lines, up to the first fault. -/
def feed (r : Replay) : List (Nat × String) → Replay × Option ReplayFault
  | [] => (r, none)
  | (number, line) :: rest =>
    match CaptureRecord.ofLine? line with
    | none => (r, some (.malformed number))
    | some record =>
      if r.stopsAt record then (r, some .unformattable) else (r.apply record).feed rest

/-- Time passes until a call has ended, whatever it takes. -/
def outlast (s : Session) (call : Call) : Session :=
  match call.deadline with
  | none => s
  | some time => s.step (.advance (time - s.now))

/-- Waits for every call, in order. -/
def finish (r : Replay) : Replay :=
  let r := r.startQueued
  { r with session := r.session.waiting.foldl (fun s w => outlast s w.2) r.session }

/-- What the commands came to, in the order of the capture. -/
def reports (r : Replay) : List CommandReport :=
  r.issued.filterMap fun c =>
    (r.session.results.find? (·.1 = c.id)).map fun found => ⟨c.vehicle, c.line, found.2⟩

/-- What the records came to. -/
def summary (r : Replay) : ReplaySummary := ⟨r.records, r.outcomes, r.reports⟩

/-- Replays a capture in a session. -/
def run (session : Session) (text : String) : Except ReplayFault Replay :=
  match (new session).feed (Capture.numbered text) with
  | (_, some fault) => .error fault
  | (r, none) => .ok r.finish

end Replay

end FleetLink
