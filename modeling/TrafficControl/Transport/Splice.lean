import TrafficControl.Route.Router
import TrafficControl.Transport.Order

namespace TrafficControl

inductive RerouteFault where
  | routing (fault : RoutingFault)
  | unknownTransportOrder (name : String)
  | noCurrentDriveOrder (name : String)
  | noController (vehicle : String)
  | unknownPosition (vehicle : String)
  | undecidedPosition (vehicle : String)
  | noBranchingPoint (point : PointId)
  | emptyReplacement
deriving DecidableEq, Repr

def RerouteFault.message : RerouteFault → String
  | routing fault => "routing failed: " ++ fault.message
  | unknownTransportOrder name => "transport order '" ++ name ++ "' does not exist"
  | noCurrentDriveOrder name => "transport order '" ++ name ++ "' has no current drive order"
  | noController vehicle => "no vehicle controller for '" ++ vehicle ++ "'"
  | unknownPosition vehicle => "position of vehicle '" ++ vehicle ++ "' is unknown"
  | undecidedPosition vehicle => "position of vehicle '" ++ vehicle ++ "' is undecided"
  | noBranchingPoint point => "no step of the current route starts at " ++ toString point
  | emptyReplacement => "replacement route for the current drive order has no steps"

def spliceSteps (old new : List Step) : Except RerouteFault (List Step) :=
  match new with
  | [] => .error .emptyReplacement
  | first :: _ =>
    match old.findIdx? fun s => s.source = first.source with
    | none => .error (.noBranchingPoint first.source)
    | some branch => .ok (renumber (old.take branch ++ new))

/-- The old drive order with the new one's way spliced into its own. What it costs is what the
    router says of the way from its first point to its last. -/
def Router.splice (r : Router) (v : Vehicle) (old new : DriveOrder) :
    Except RerouteFault DriveOrder × Router :=
  match spliceSteps old.steps new.steps with
  | .error fault => (.error fault, r)
  | .ok steps =>
    match steps.head?, steps.getLast? with
    | some first, some last =>
      match r.cost v first.source last.destination with
      | (.error fault, r) => (.error (.routing fault), r)
      | (.ok cost, r) => (.ok { old with route := some { steps, cost } }, r)
    | _, _ => (.error .emptyReplacement, r)

end TrafficControl
