import CellWorld.Bots.Density
import CellWorld.Bots.Wander
import CellWorld.Cell.Basic
import CellWorld.Cell.Occupancy
import CellWorld.Clock
import CellWorld.CommandLine.Command
import CellWorld.CommandLine.Program
import CellWorld.CommandLine.Scan
import CellWorld.Engine
import CellWorld.Entity
import CellWorld.Handover.Border
import CellWorld.Handover.Event
import CellWorld.Handover.Pass
import CellWorld.Json.Basic
import CellWorld.Json.Decode
import CellWorld.Json.Tree
import CellWorld.Lifecycle
import CellWorld.Main
import CellWorld.Metrics
import CellWorld.Node.Basic
import CellWorld.Node.Query
import CellWorld.Node.Route
import CellWorld.Number.Binary
import CellWorld.Number.Decimal
import CellWorld.Number.Literal
import CellWorld.Point
import CellWorld.Proofs.Agreement
import CellWorld.Proofs.Answers
import CellWorld.Proofs.Arrival
import CellWorld.Proofs.Births
import CellWorld.Proofs.Bits
import CellWorld.Proofs.Books
import CellWorld.Proofs.Bots
import CellWorld.Proofs.Bytes
import CellWorld.Proofs.Cadence
import CellWorld.Proofs.Chronicle
import CellWorld.Proofs.Crossings
import CellWorld.Proofs.Deadlines
import CellWorld.Proofs.Density
import CellWorld.Proofs.Documents
import CellWorld.Proofs.Doubles
import CellWorld.Proofs.Edges
import CellWorld.Proofs.Effects
import CellWorld.Proofs.Endpoint
import CellWorld.Proofs.Evaluation
import CellWorld.Proofs.Events
import CellWorld.Proofs.Exact
import CellWorld.Proofs.Exchange
import CellWorld.Proofs.Housing
import CellWorld.Proofs.Independence
import CellWorld.Proofs.Inputs
import CellWorld.Proofs.Interest
import CellWorld.Proofs.Kinematics
import CellWorld.Proofs.Lag
import CellWorld.Proofs.Membership
import CellWorld.Proofs.Naming
import CellWorld.Proofs.Nearest
import CellWorld.Proofs.Network
import CellWorld.Proofs.Numerals
import CellWorld.Proofs.Overdue
import CellWorld.Proofs.Ownership
import CellWorld.Proofs.Packing
import CellWorld.Proofs.Pass
import CellWorld.Proofs.Periods
import CellWorld.Proofs.Placements
import CellWorld.Proofs.Players
import CellWorld.Proofs.Queries
import CellWorld.Proofs.Races
import CellWorld.Proofs.Redemption
import CellWorld.Proofs.Repayment
import CellWorld.Proofs.Restoring
import CellWorld.Proofs.Return
import CellWorld.Proofs.Room
import CellWorld.Proofs.RoundTrip
import CellWorld.Proofs.Rounding
import CellWorld.Proofs.Run
import CellWorld.Proofs.Seconds
import CellWorld.Proofs.Sections
import CellWorld.Proofs.Settled
import CellWorld.Proofs.Shortest
import CellWorld.Proofs.Steering
import CellWorld.Proofs.Tiling
import CellWorld.Proofs.Traces
import CellWorld.Proofs.Trail
import CellWorld.Proofs.Transfers
import CellWorld.Proofs.Turns
import CellWorld.Proofs.Unrolled
import CellWorld.Proofs.Walk
import CellWorld.Random
import CellWorld.Restore
import CellWorld.Scalar
import CellWorld.Settings
import CellWorld.Territory
import CellWorld.Text.Blank
import CellWorld.Text.Printable
import CellWorld.Text.Quoted
import CellWorld.Text.Utf8
import CellWorld.Ticker
import CellWorld.Transfer.Basic
import CellWorld.Transfer.Gateway
import CellWorld.Transfer.Message
import CellWorld.Transfer.Peer
import CellWorld.Wire.Settings
import CellWorld.Wire.Transfer
import CellWorld.Wire.World
import CellWorld.World
