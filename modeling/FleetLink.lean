import FleetLink.Cli
import FleetLink.Main
import FleetLink.Proofs.AddressBook.Agreement
import FleetLink.Proofs.AddressBook.FirstClaim
import FleetLink.Proofs.CommandTable.Coherence
import FleetLink.Proofs.CommandTable.History
import FleetLink.Proofs.CommandTable.Interleaving
import FleetLink.Proofs.Assembler.Gathering
import FleetLink.Proofs.Assembler.History
import FleetLink.Proofs.Assembler.Undisturbed
import FleetLink.Proofs.Assembler.Provenance
import FleetLink.Proofs.Assembler.Separation
import FleetLink.Proofs.Text.Base64
import FleetLink.Proofs.Text.Utf8
import FleetLink.Proofs.Codec.Record
import FleetLink.Proofs.Codec.Edits
import FleetLink.Proofs.Packet.Tolerance
import FleetLink.Proofs.Packet.RoundTrip
import FleetLink.Proofs.VehicleId.Distinct
import FleetLink.Proofs.Fleet.Links
import FleetLink.Proofs.DeviceTree.Landing
import FleetLink.Proofs.Sensor.Footprint
import FleetLink.Proofs.Binary64.Rounding
import FleetLink.Proofs.Sensor.Rates
import FleetLink.Proofs.Sensor.Retention
import FleetLink.Proofs.Session.Moves
import FleetLink.Proofs.Session.Delivery
import FleetLink.Proofs.Session.Identities
import FleetLink.Proofs.Session.Confinement
import FleetLink.Proofs.Session.Answers
import FleetLink.Proofs.Session.Forgetting
import FleetLink.Proofs.Session.Calls
import FleetLink.Proofs.Session.Accounting
import FleetLink.Proofs.Fleet.Counters
import FleetLink.Proofs.Session.Counts
import FleetLink.Proofs.Session.Registration
import FleetLink.Proofs.Fleet.Places
import FleetLink.Proofs.Session.Commuting
import FleetLink.Proofs.Session.Exchange
import FleetLink.Proofs.Session.Sending
import FleetLink.Proofs.Session.Callable
import FleetLink.Proofs.Session.Modes
import FleetLink.Proofs.Replay.Beginning
import FleetLink.Proofs.Assembler.BodyLimit
import FleetLink.Proofs.Assembler.Sparing
import FleetLink.Proofs.Assembler.Integrity
import FleetLink.Proofs.VehicleId.Grammar
import FleetLink.Proofs.VehicleId.Placeholders
import FleetLink.Proofs.VehicleId.RoundTrip
import FleetLink.Proofs.VehicleId.Faults
import FleetLink.Proofs.Codec.Rereading
import FleetLink.Proofs.Config.RoundTrip
import FleetLink.Proofs.Session.Survival
import FleetLink.Proofs.Session.Reports
import FleetLink.Proofs.Replay.Ending
import FleetLink.Proofs.Replay.Summary
import FleetLink.Proofs.Cli.NamedFile
import FleetLink.Proofs.CommandLine.FlyTo
