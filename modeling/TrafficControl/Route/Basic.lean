import TrafficControl.Cost
import TrafficControl.Vehicle

namespace TrafficControl

structure Step where
  path : PathId
  source : PointId
  destination : PointId
  direction : Direction
  index : Nat
  allowed : Bool := true
  /-- Whether the path was locked when that was last looked up. -/
  locked : Bool := false
  rerouted : Bool := false
deriving DecidableEq, Repr

instance : ToString Step where
  toString s :=
    "#" ++ toString s.index ++ " " ++ toString s.source ++ " -> " ++ toString s.destination ++
      " via " ++ toString s.path ++ " (" ++ toString s.direction ++ ")"

/-- Steps to drive one after the other, and what they cost together. A route without steps is that
    of a vehicle which is there already. -/
structure Route where
  steps : List Step := []
  cost : Cost := 0
deriving DecidableEq, Repr

namespace Route

def empty : Route := {}

instance : Inhabited Route := ⟨empty⟩

def source? (r : Route) : Option PointId := r.steps.head?.map (·.source)

def destination? (r : Route) : Option PointId := r.steps.getLast?.map (·.destination)

def points (r : Route) : List PointId := r.source?.toList ++ r.steps.map (·.destination)

end Route

def renumber (steps : List Step) : List Step :=
  steps.mapIdx fun i s => { s with index := i }

end TrafficControl
