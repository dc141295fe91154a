import Replica.Blueprint
import Replica.CallQueue
import Replica.Channel
import Replica.Directory
import Replica.Draft
import Replica.Error
import Replica.Event
import Replica.Fault
import Replica.HandlePool
import Replica.IdBlock
import Replica.Ident
import Replica.Localize
import Replica.Operation
import Replica.Outstanding
import Replica.Proofs.Alike
import Replica.Proofs.Allocation
import Replica.Proofs.Announcement
import Replica.Proofs.Answers
import Replica.Proofs.Authority
import Replica.Proofs.Authority.Heard
import Replica.Proofs.CallQueue
import Replica.Proofs.CallQueue.Faithful
import Replica.Proofs.CallQueue.History
import Replica.Proofs.Commands
import Replica.Proofs.Construction
import Replica.Proofs.Course
import Replica.Proofs.Course.Carries
import Replica.Proofs.Course.Strides
import Replica.Proofs.Course.Tidy
import Replica.Proofs.Directory
import Replica.Proofs.Directory.History
import Replica.Proofs.Drain
import Replica.Proofs.Frame
import Replica.Proofs.Gating
import Replica.Proofs.Gating.Course
import Replica.Proofs.Gating.Loading
import Replica.Proofs.Gating.Timing
import Replica.Proofs.Graph.Agreement
import Replica.Proofs.Graph.Catchup
import Replica.Proofs.Graph.Convergence
import Replica.Proofs.Graph.Faithful
import Replica.Proofs.Graph.Fill
import Replica.Proofs.Graph.Growth
import Replica.Proofs.Graph.Members
import Replica.Proofs.Graph.Mirrors
import Replica.Proofs.Graph.Notices
import Replica.Proofs.Graph.Overwriting
import Replica.Proofs.Graph.Places
import Replica.Proofs.Graph.Reflects
import Replica.Proofs.Graph.Standing
import Replica.Proofs.HandlePool
import Replica.Proofs.HandlePool.History
import Replica.Proofs.Housing
import Replica.Proofs.Ledger
import Replica.Proofs.Ledger.Accounts
import Replica.Proofs.Ledger.Holes
import Replica.Proofs.Ledger.Overtaking
import Replica.Proofs.Log
import Replica.Proofs.Neighbours
import Replica.Proofs.Ownership
import Replica.Proofs.Pursuit
import Replica.Proofs.Refusal
import Replica.Proofs.Removal
import Replica.Proofs.Retries
import Replica.Proofs.Roots
import Replica.Proofs.Section
import Replica.Proofs.Section.Cancelling
import Replica.Proofs.Section.Existence
import Replica.Proofs.Section.Grouping
import Replica.Proofs.Section.Reordering
import Replica.Proofs.Section.Unbuildable
import Replica.Proofs.Spares
import Replica.Proofs.Stalled
import Replica.Proofs.Traces
import Replica.Proofs.Waitlist
import Replica.Proofs.Waitlist.Entries
import Replica.Proofs.Wakeup
import Replica.Proofs.Wire.Endings
import Replica.Proofs.Wire.Formats
import Replica.Proofs.Wire.Orientation
import Replica.Proofs.Wire.Oversize
import Replica.Proofs.Wire.RoundTrip
import Replica.Proofs.World
import Replica.Protocol
import Replica.Requests
import Replica.Section
import Replica.Session
import Replica.Session.Arrival
import Replica.Session.Basic
import Replica.Session.Construction
import Replica.Session.Response
import Replica.Session.Update
import Replica.Settings
import Replica.Stock
import Replica.Update
import Replica.Value
import Replica.Waiters
import Replica.Waitlist
import Replica.Wire.Reader
import Replica.Wire.Utf8
import Replica.Wire.Writer
import Replica.World
import Replica.World.Call
import Replica.World.Payload
import Replica.Proofs.Requests
import Replica.Proofs.Graph.Parking
import Replica.Proofs.IdBlock
import Replica.Proofs.Protocol
