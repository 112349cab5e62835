import TrafficControl.Route.Basic
import TrafficControl.Route.Search
import TrafficControl.Table

namespace TrafficControl

structure Navigator where
  serial : Nat
  network : Network
  method : SearchMethod
deriving DecidableEq, Repr

namespace Navigator

def stepOf (arc : Arc) (index : Nat) : Step where
  path := arc.path
  source := arc.source
  destination := arc.target
  direction := arc.direction
  index

def routeIn (n : Navigator) (labels : Labels) (destination : PointId) : Option Route :=
  (labels.arcsTo? n.network destination).map fun places =>
    { steps := (places.filterMap fun place => n.network.arcs[place]?).mapIdx fun i arc =>
        stepOf arc i
      cost := labels.costTo destination }

/-- The cheapest route, which is empty from a point to itself. -/
def route (n : Navigator) (source destination : PointId) : Option Route :=
  if source = destination then some .empty
  else n.routeIn (n.network.search n.method source (some destination)) destination

def routesFrom (n : Navigator) (source : PointId) (destinations : List PointId) :
    Table PointId Route :=
  let labels := n.network.search n.method source none
  destinations.foldl (fun routes d =>
    match if d = source then some .empty else n.routeIn labels d with
    | some route => routes.insert d route
    | none => routes) ∅

def cost (n : Navigator) (source destination : PointId) : Cost :=
  if source = destination then 0
  else (n.network.search n.method source (some destination)).costTo destination

def legs (n : Navigator) (source : PointId) : List PointId → Option (List Route)
  | [] => some []
  | d :: rest => do
    let route ← n.route source d
    let routes ← n.legs d rest
    return route :: routes

end Navigator

end TrafficControl
