import TrafficControl.Route.Basic

namespace TrafficControl

inductive DriveState where
  | pristine
  | travelling
  | finished
  | failed
deriving DecidableEq, Repr, Inhabited

instance : ToString DriveState where
  toString
    | .pristine => "Pristine"
    | .travelling => "Travelling"
    | .finished => "Finished"
    | .failed => "Failed"

structure DriveOrder where
  destination : PointId
  operation : String := "MOVE"
  route : Option Route := none
  state : DriveState := .pristine
deriving DecidableEq, Repr

namespace DriveOrder

def steps (o : DriveOrder) : List Step := (o.route.map (·.steps)).getD []

def routeEnd? (o : DriveOrder) : Option PointId := o.route.bind (·.destination?)

def mapSteps (o : DriveOrder) (change : List Step → List Step) : DriveOrder :=
  { o with route := o.route.map fun r => { r with steps := change r.steps } }

instance : ToString DriveOrder where
  toString o :=
    "DriveOrder(" ++ toString o.destination ++ " " ++ o.operation ++ ", " ++ toString o.state ++
      (match o.route with
        | some r => ", " ++ toString r.steps.length ++ " steps"
        | none => "") ++ ")"

end DriveOrder

structure TransportOrder where
  name : String
  driveOrders : List DriveOrder
  current : Nat := 0
deriving DecidableEq, Repr

namespace TransportOrder

def past (t : TransportOrder) : List DriveOrder := t.driveOrders.take t.current

def current? (t : TransportOrder) : Option DriveOrder := t.driveOrders[t.current]?

def future (t : TransportOrder) : List DriveOrder := t.driveOrders.drop (t.current + 1)

def unfinished (t : TransportOrder) : List DriveOrder := t.driveOrders.drop t.current

/-- Finishes the current drive order, if there is one, and goes on to the next. -/
def advance (t : TransportOrder) : TransportOrder :=
  let next := if t.current < t.driveOrders.length then t.current + 1 else t.current
  let finished := t.driveOrders.modify t.current fun o => { o with state := .finished }
  { t with
    driveOrders := finished.modify next fun o => { o with state := .travelling }
    current := next }

end TransportOrder

end TrafficControl
