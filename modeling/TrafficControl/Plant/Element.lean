import TrafficControl.Position
import TrafficControl.Resource
import TrafficControl.Vehicle

namespace TrafficControl

def openTo (groups : List String) (group : String) : Bool :=
  groups.isEmpty || groups.contains group

structure Point where
  name : String
  position : Position
  groups : List String := []

def Point.usableBy (p : Point) (group : String) : Bool := openTo p.groups group

/-- A connection between two points. Its length is in millimetres and its velocities are in
    millimetres per second; a velocity of zero rules its direction out. -/
structure Path where
  name : String
  source : PointId
  destination : PointId
  length : Nat
  forwardVelocity : Nat := 1000
  backwardVelocity : Nat := 0
  locked : Bool := false
  forwardPenalty : Nat := 0
  backwardPenalty : Nat := 0
  groups : List String := []
deriving DecidableEq, Repr

namespace Path

def velocity (p : Path) : Direction → Nat
  | .forward => p.forwardVelocity
  | .backward => p.backwardVelocity

def penalty (p : Path) : Direction → Nat
  | .forward => p.forwardPenalty
  | .backward => p.backwardPenalty

def allows (p : Path) (d : Direction) : Bool := 0 < p.velocity d

def start (p : Path) : Direction → PointId
  | .forward => p.source
  | .backward => p.destination

def finish (p : Path) : Direction → PointId
  | .forward => p.destination
  | .backward => p.source

def usableBy (p : Path) (group : String) : Bool := openTo p.groups group

def touches (p : Path) (point : PointId) : Bool := p.source = point || p.destination = point

end Path

structure Block where
  name : String
  members : ResourceSet
deriving DecidableEq

end TrafficControl
