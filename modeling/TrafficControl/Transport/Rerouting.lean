import TrafficControl.Transport.OrderBook
import TrafficControl.Transport.Restriction

namespace TrafficControl

inductive Activity where
  | idle
  | awaitingOrder
  | processingOrder
deriving DecidableEq, Repr

instance : ToString Activity where
  toString
    | .idle => "Idle"
    | .awaitingOrder => "AwaitingOrder"
    | .processingOrder => "ProcessingOrder"

structure VehicleReport where
  vehicle : Vehicle
  activity : Activity := .idle
  point : Option PointId := none
  position : Option Position := none
  order : Option String := none

structure Controller where
  /-- The steps that were sent to the vehicle and that it has not executed yet. -/
  sent : List Step := []
  order : Option TransportOrder := none
  attached : Bool := false
deriving DecidableEq, Repr

structure Fleet where
  router : Router
  fallback : Fallback := .pauseAtPathLock
  book : OrderBook := {}
  controllers : Table String Controller := ∅

inductive RerouteOutcome where
  | notProcessingOrder
  | rerouted
  | restricted
deriving DecidableEq, Repr

instance : ToString RerouteOutcome where
  toString
    | .notProcessingOrder => "NotProcessingOrder"
    | .rerouted => "Rerouted"
    | .restricted => "Restricted"

namespace Fleet

def plant (f : Fleet) : Plant := f.router.plant.current

def controller (f : Fleet) (name : String) : Controller := (f.controllers.get? name).getD {}

def setController (f : Fleet) (name : String) (c : Controller) : Fleet :=
  { f with controllers := f.controllers.insert name c }

def attach (f : Fleet) (name : String) : Fleet :=
  f.setController name { f.controller name with attached := true }

def detach (f : Fleet) (name : String) : Fleet :=
  f.setController name { f.controller name with attached := false }

def send (f : Fleet) (name : String) (steps : List Step) : Fleet :=
  let c := f.controller name
  f.setController name { c with sent := c.sent ++ steps }

def executed (f : Fleet) (name : String) : Option Step × Fleet :=
  let c := f.controller name
  (c.sent.head?, f.setController name { c with sent := c.sent.tail })

def attached? (f : Fleet) (name : String) : Option Controller :=
  (f.controllers.get? name).filter (·.attached)

/-- Where new routes of the vehicle start: where it is after all steps that were sent to it, or
    else where it says it is, or else the nearest point. -/
def source (f : Fleet) (v : VehicleReport) (c : Controller) : Except RerouteFault PointId :=
  match c.sent.getLast? with
  | some last => .ok last.destination
  | none =>
    match v.point with
    | some point => .ok point
    | none =>
      match v.position.map f.plant.nearest with
      | some (.point point) => .ok point
      | some .undecided => .error (.undecidedPosition v.vehicle.name)
      | some .noPoint | none => .error (.unknownPosition v.vehicle.name)

def rerouteOrder (o : DriveOrder) (route : Route) : DriveOrder :=
  let steps := route.steps.map fun s => { s with rerouted := true }
  { o with route := some { route with steps } }

def replan (f : Fleet) (v : VehicleReport) (source : PointId) (orders : List DriveOrder) :
    Except RerouteFault (List DriveOrder × RerouteOutcome) × Fleet :=
  match f.router.legs v.vehicle source (orders.map (·.destination)) with
  | (.error fault, router) => (.error (.routing fault), { f with router })
  | (.ok (some routes), router) =>
    (.ok (List.zipWith rerouteOrder orders routes, .rerouted), { f with router })
  | (.ok none, router) =>
    (.ok (restrict f.fallback source (refreshLocks f.plant orders), .restricted), { f with router })

/-- Joins the new plan to what a vehicle on its way is driving already. The current drive order
    stays if all of its steps have been sent, and gets the new way spliced in otherwise. -/
def adjoin (f : Fleet) (v : VehicleReport) (current : Option DriveOrder) (source : PointId)
    (plan : List DriveOrder) : Except RerouteFault (List DriveOrder) × Fleet :=
  if v.activity ≠ .processingOrder then (.ok plan, f)
  else
    match current, plan with
    | some current, first :: rest =>
      if current.routeEnd? = some source then (.ok (current :: rest), f)
      else
        match f.router.splice v.vehicle current first with
        | (.error fault, router) => (.error fault, { f with router })
        | (.ok spliced, router) => (.ok (spliced :: rest), { f with router })
    | _, _ => (.ok plan, f)

def handOver (f : Fleet) (v : VehicleReport) (name : String) : Except RerouteFault Unit × Fleet :=
  if v.activity ≠ .processingOrder then (.ok (), f)
  else
    match f.book.order? name with
    | none => (.error (.unknownTransportOrder name), f)
    | some order =>
      let c := f.controller v.vehicle.name
      (.ok (), f.setController v.vehicle.name { c with order := some order })

def adopt (f : Fleet) (v : VehicleReport) (former : TransportOrder) (plan : List DriveOrder) :
    Except RerouteFault Unit × Fleet :=
  let driveOrders := former.past ++ plan
  match f.book.update former.name driveOrders with
  | .error fault => (.error fault, f)
  | .ok book =>
    match { f with book }.handOver v former.name with
    | (.error fault, f) => (.error fault, f)
    | (.ok _, f) =>
      (.ok (), { f with router := f.router.select v.vehicle.id (driveOrders.filterMap (·.route)) })

def rerouteFrom (f : Fleet) (v : VehicleReport) (former : TransportOrder) (source : PointId) :
    Except RerouteFault RerouteOutcome × Fleet :=
  if former.unfinished.isEmpty then (.error (.noCurrentDriveOrder former.name), f)
  else
    match f.replan v source former.unfinished with
    | (.error fault, f) => (.error fault, f)
    | (.ok (plan, outcome), f) =>
      match f.adjoin v former.current? source plan with
      | (.error fault, f) => (.error fault, f)
      | (.ok plan, f) =>
        match f.adopt v former plan with
        | (.error fault, f) => (.error fault, f)
        | (.ok _, f) => (.ok outcome, f)

def reroute (f : Fleet) (v : VehicleReport) : Except RerouteFault RerouteOutcome × Fleet :=
  match v.order with
  | none => (.ok .notProcessingOrder, f)
  | some name =>
    match f.book.order? name with
    | none => (.error (.unknownTransportOrder name), f)
    | some former =>
      match f.attached? v.vehicle.name with
      | none => (.error (.noController v.vehicle.name), f)
      | some c =>
        match f.source v c with
        | .error fault => (.error fault, f)
        | .ok source => f.rerouteFrom v former source

/-- Reroutes vehicles one after the other. An undecided position puts an end to it, and then there
    are no outcomes. -/
def rerouteAll (f : Fleet) : List VehicleReport →
    Except RerouteFault (List (VehicleId × Except RerouteFault RerouteOutcome)) × Fleet
  | [] => (.ok [], f)
  | v :: rest =>
    match f.reroute v with
    | (.error (.undecidedPosition vehicle), f) => (.error (.undecidedPosition vehicle), f)
    | (outcome, f) =>
      let (outcomes, f) := f.rerouteAll rest
      (outcomes.map ((v.vehicle.id, outcome) :: ·), f)

end Fleet

end TrafficControl
