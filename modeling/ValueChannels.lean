import ValueChannels.Main
import ValueChannels.Exchange.Dispatcher
import ValueChannels.Queue.Station
import ValueChannels.Value.Identical
import ValueChannels.Proofs.Exchange.Traffic
import ValueChannels.Proofs.Exchange.Delivery
import ValueChannels.Proofs.Exchange.Conduct
import ValueChannels.Proofs.Exchange.Order
import ValueChannels.Proofs.Heap.Access
import ValueChannels.Proofs.Heap.Reach
import ValueChannels.Proofs.Transfer.Description
import ValueChannels.Proofs.Transfer.Conversion
import ValueChannels.Proofs.Transfer.Construction
import ValueChannels.Proofs.Transfer.Building
import ValueChannels.Proofs.Graph.Reading
import ValueChannels.Proofs.Pack.RoundTrip
import ValueChannels.Proofs.Graph.Heads
import ValueChannels.Proofs.Transfer.Correspondence
import ValueChannels.Proofs.Transfer.Isolation
import ValueChannels.Proofs.Heap.Soundness
import ValueChannels.Proofs.Expr.Rereading
import ValueChannels.Proofs.Number.Rounding
import ValueChannels.Proofs.Expr.Packing
import ValueChannels.Proofs.Graph.Packing
import ValueChannels.Proofs.Graph.Leaves
import ValueChannels.Proofs.Exchange.Columns
import ValueChannels.Proofs.Exchange.Directory
import ValueChannels.Proofs.Exchange.Reuse
import ValueChannels.Proofs.Graph.Lossless
import ValueChannels.Proofs.Graph.Depiction
import ValueChannels.Proofs.Heap.Cycles
import ValueChannels.Proofs.Graph.Writing
import ValueChannels.Proofs.Graph.Reviving
import ValueChannels.Proofs.Graph.Reproduction
import ValueChannels.Proofs.Transfer.Resemblance
import ValueChannels.Proofs.Transfer.Sharing
import ValueChannels.Proofs.Transfer.Crossing
import ValueChannels.Proofs.Transfer.Isomorphism
import ValueChannels.Proofs.Number.Numerals
import ValueChannels.Proofs.Expr.RoundTrip
import ValueChannels.Proofs.Queue.Hall
import ValueChannels.Proofs.Queue.Wakeups
import ValueChannels.Proofs.Graph.Names
import ValueChannels.Proofs.Transfer.Missing
import ValueChannels.Proofs.Heap.Updates
import ValueChannels.Proofs.Heap.Frozen
import ValueChannels.Proofs.Transfer.Handing
import ValueChannels.Proofs.Transfer.Receipt
import ValueChannels.Proofs.Transfer.Freezing
import ValueChannels.Proofs.Transfer.Footprint
import ValueChannels.Proofs.Transfer.Attachments
import ValueChannels.Proofs.Transfer.Reentry
import ValueChannels.Proofs.Transfer.Refusal
import ValueChannels.Proofs.Exchange.Acceptance
import ValueChannels.Proofs.Transfer.Keeping
import ValueChannels.Proofs.Transfer.Tampering
import ValueChannels.Proofs.Graph.References
import ValueChannels.Proofs.Exchange.Failure
import ValueChannels.Proofs.Heap.Ageing
import ValueChannels.Proofs.Exchange.Entries
import ValueChannels.Proofs.Demo.Samples
import ValueChannels.Proofs.Demo.Passing
import ValueChannels.Proofs.Demo.Receiving
import ValueChannels.Proofs.Demo.Agenda
import ValueChannels.Proofs.Demo.Calls
import ValueChannels.Proofs.Demo.Desks
import ValueChannels.Proofs.Demo.Course
import ValueChannels.Proofs.Demo.Working
import ValueChannels.Proofs.Demo.Opening
import ValueChannels.Proofs.Demo.Managing
import ValueChannels.Proofs.Demo.Schedules
import ValueChannels.Proofs.Exchange.Occupancy
import ValueChannels.Proofs.Queue.Interrupts
import ValueChannels.Proofs.Transfer.Termination
import ValueChannels.Proofs.Heap.Comparison
import ValueChannels.Proofs.Heap.Equality
import ValueChannels.Proofs.Transfer.Reachable
import ValueChannels.Proofs.Expr.Recognition
import ValueChannels.Proofs.Expr.Faults
import ValueChannels.Proofs.Context.Chains
import ValueChannels.Proofs.Context.SearchPath
import ValueChannels.Proofs.Exchange.Reports
import ValueChannels.Proofs.Number.Exact
import ValueChannels.Proofs.Builtin.Numbers
import ValueChannels.Proofs.Builtin.Restraint
import ValueChannels.Proofs.Transfer.Visiting
import ValueChannels.Proofs.Transfer.Scoping
