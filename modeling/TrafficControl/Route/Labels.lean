import TrafficControl.Route.Network

namespace TrafficControl

structure Label where
  cost : Cost := .infinite
  via : Option Nat := none
  settled : Bool := false
deriving DecidableEq, Repr

structure Labels where
  source : PointId
  labels : List Label
deriving DecidableEq, Repr

namespace Labels

def initial (n : Network) (source : PointId) : Labels where
  source
  labels := (List.replicate n.pointCount {}).modify source.index fun l => { l with cost := 0 }

def costTo (s : Labels) (point : PointId) : Cost :=
  match s.labels[point.index]? with
  | some l => l.cost
  | none => .infinite

def reaches (s : Labels) (point : PointId) : Bool := s.costTo point ≠ .infinite

def via? (s : Labels) (point : PointId) : Option Nat := s.labels[point.index]?.bind (·.via)

/-- Takes the arc at the given place if its target is then cheaper to reach, coming from a point
    that `cost` reaches. -/
def improve (s : Labels) (cost : Cost) (arc : Arc) (place : Nat) : Labels :=
  let reached := cost + arc.cost
  { s with labels := s.labels.modify arc.target.index fun l =>
      if reached < l.cost then { l with cost := reached, via := some place } else l }

def walkBack (s : Labels) (arcs : List Arc) : Nat → PointId → List Nat → List Nat
  | 0, _, places => places
  | fuel + 1, point, places =>
    match s.via? point with
    | none => places
    | some place =>
      match arcs[place]? with
      | none => places
      | some arc => walkBack s arcs fuel arc.source (place :: places)

/-- The places of the arcs to drive from the source to the point, if it was reached. A walk back
    visits no point twice, so it has fewer arcs than there are points. -/
def arcsTo? (s : Labels) (n : Network) (point : PointId) : Option (List Nat) :=
  if s.reaches point then some (s.walkBack n.arcs n.pointCount point []) else none

end Labels

end TrafficControl
