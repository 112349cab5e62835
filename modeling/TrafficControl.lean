import TrafficControl.OrderedSet
import TrafficControl.Table
import TrafficControl.Resource
import TrafficControl.Cost
import TrafficControl.Text.Hex
import TrafficControl.Text.Quoted
import TrafficControl.Position
import TrafficControl.Vehicle
import TrafficControl.Settings
import TrafficControl.Plant.Membership
import TrafficControl.Plant.Versions
import TrafficControl.Allocation.Rehearsal
import TrafficControl.Journal.Csv
import TrafficControl.Journal.Tape
import TrafficControl.Route.Router
import TrafficControl.Transport.Rerouting
import TrafficControl.Proofs.Plant.Closure
import TrafficControl.Proofs.Allocation.Run
import TrafficControl.Proofs.Allocation.ClaimHead
import TrafficControl.Proofs.Allocation.Exclusion
import TrafficControl.Proofs.Allocation.Checks
import TrafficControl.Proofs.Allocation.WakeUp
import TrafficControl.Proofs.Plant.WellFormed
import TrafficControl.Proofs.Plant.Incidence
import TrafficControl.Proofs.Route.Arcs
import TrafficControl.Proofs.Route.Settling
import TrafficControl.Proofs.Route.Dijkstra
import TrafficControl.Proofs.Route.Optimal
import TrafficControl.Proofs.Route.Sweeping
import TrafficControl.Proofs.Route.Kept
import TrafficControl.Proofs.Transport.History
import TrafficControl.Proofs.Transport.Splicing
import TrafficControl.Proofs.Transport.SentSteps
import TrafficControl.Proofs.Allocation.BlockHolder
import TrafficControl.Proofs.Allocation.Signals
import TrafficControl.Proofs.Allocation.Answers
import TrafficControl.Proofs.Allocation.Docket
import TrafficControl.Proofs.Allocation.Dealings
import TrafficControl.Proofs.Allocation.Registry
import TrafficControl.Proofs.Allocation.Accounting
import TrafficControl.Proofs.Allocation.ClaimOrder
import TrafficControl.Proofs.Transport.KeptPlan
import TrafficControl.Proofs.Allocation.Entries
import TrafficControl.Proofs.Allocation.Precedence
import TrafficControl.Proofs.Allocation.Replay
import TrafficControl.Proofs.Transport.AllOrNothing
import TrafficControl.Proofs.Route.Fresh
import TrafficControl.Proofs.Route.Transparent
import TrafficControl.Proofs.Route.Reaching
import TrafficControl.Proofs.Transport.Connected
import TrafficControl.Proofs.Transport.Replanning
import TrafficControl.Proofs.Route.Queueing
import TrafficControl.Proofs.Route.Agreeing
import TrafficControl.Proofs.Route.Batching
import TrafficControl.Proofs.Transport.Itinerary
import TrafficControl.Proofs.Transport.Restricting
import TrafficControl.Proofs.Transport.Idempotent
import TrafficControl.Proofs.Route.Retracing
import TrafficControl.Proofs.Allocation.Draining
import TrafficControl.Proofs.Allocation.Matching
import TrafficControl.Proofs.Allocation.Departure
import TrafficControl.Proofs.Transport.Apart
import TrafficControl.Proofs.Transport.Bulk
import TrafficControl.Proofs.Plant.Expansion
import TrafficControl.Proofs.Route.Directions
import TrafficControl.Proofs.Route.Twins
import TrafficControl.Proofs.Route.Avoiding
import TrafficControl.Proofs.Allocation.Decision
import TrafficControl.Proofs.Plant.Locking
import TrafficControl.Proofs.Plant.Drawing
import TrafficControl.Proofs.Plant.Assembly
import TrafficControl.Proofs.Route.UpToDate
import TrafficControl.Proofs.Route.Locking
import TrafficControl.Proofs.Route.Ranking
import TrafficControl.Proofs.Allocation.Returning
import TrafficControl.Proofs.Allocation.Procedures
import TrafficControl.Proofs.Allocation.Refusals
import TrafficControl.Proofs.Transport.Marking
import TrafficControl.Proofs.Journal.Reading
import TrafficControl.Proofs.Route.Composing
import TrafficControl.Proofs.Allocation.InOrder
import TrafficControl.Proofs.Allocation.Worker
import TrafficControl.Proofs.Journal.Finishing
