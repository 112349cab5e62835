import TrafficControl.Plant.Basic
import TrafficControl.Route.Weighing

namespace TrafficControl

structure Arc where
  source : PointId
  target : PointId
  path : PathId
  direction : Direction
  cost : Cost
deriving DecidableEq, Repr

structure NetworkScope where
  group : String
  vehicle : Vehicle
  weighing : Weighing
  excluded : List PointId := []

/-- The ways through a plant that one routing group can drive: for every point, in order, the arcs
    that leave it. An arc is known by its place among all of them. -/
structure Network where
  group : String
  rows : List (List Arc)
deriving DecidableEq, Repr

namespace NetworkScope

def usable (s : NetworkScope) (plant : Plant) (point : PointId) : Bool :=
  !s.excluded.contains point && (plant.point? point).any (·.usableBy s.group)

def directionsFrom (s : NetworkScope) (plant : Plant) (point : PointId) (path : Path) :
    List Direction :=
  if path.locked || !path.usableBy s.group then []
  else [Direction.forward, Direction.backward].filter fun d =>
    path.start d = point && path.allows d && s.usable plant (path.finish d)

def departures (s : NetworkScope) (plant : Plant) (point : PointId) :
    List (PathId × Path × Direction) :=
  if s.usable plant point then
    ((plant.incident? point).getD []).flatMap fun id =>
      match plant.path? id with
      | none => []
      | some path => (s.directionsFrom plant point path).map fun d => (id, path, d)
  else []

def arc? (s : NetworkScope) (departure : PathId × Path × Direction) : Option Arc :=
  let (id, path, d) := departure
  let cost := s.weighing path d s.vehicle
  if cost = .infinite then none
  else some { source := path.start d, target := path.finish d, path := id, direction := d, cost }

end NetworkScope

namespace Network

def pointsOf (plant : Plant) : List PointId := (List.range plant.pointCount).map Ident.mk

def build (s : NetworkScope) (plant : Plant) : Network where
  group := s.group
  rows := (pointsOf plant).map fun point => (s.departures plant point).filterMap s.arc?

def weighed (s : NetworkScope) (plant : Plant) : Nat :=
  (pointsOf plant).foldr (fun point rest => (s.departures plant point).length + rest) 0

def pointCount (n : Network) : Nat := n.rows.length

def arcs (n : Network) : List Arc := n.rows.flatten

def contains (n : Network) (point : PointId) : Bool := point.index < n.pointCount

def offsets (next : Nat) : List (List Arc) → List Nat
  | [] => [next]
  | row :: rest => next :: offsets (next + row.length) rest

def starts (n : Network) : List Nat := offsets 0 n.rows

def outRange? (n : Network) (point : PointId) : Option (Nat × Nat) :=
  match n.starts[point.index]?, n.starts[point.index + 1]? with
  | some start, some stop => some (start, stop)
  | _, _ => none

def outArcs (n : Network) (point : PointId) : List (Arc × Nat) :=
  (n.rows[point.index]?.getD []).zipIdx (n.starts[point.index]?.getD 0)

end Network

end TrafficControl
