import TrafficControl.Route.Labels

namespace TrafficControl

namespace Labels

def nearestFrom (next : Nat) (best : Option (PointId × Cost)) : List Label → Option (PointId × Cost)
  | [] => best
  | l :: rest =>
    if !l.settled && l.cost ≠ .infinite && best.all fun b => l.cost < b.2 then
      nearestFrom (next + 1) (some (⟨next⟩, l.cost)) rest
    else nearestFrom (next + 1) best rest

def nearest? (s : Labels) : Option (PointId × Cost) := nearestFrom 0 none s.labels

def settle (s : Labels) (n : Network) (point : PointId) (cost : Cost) : Labels :=
  let settled :=
    { s with labels := s.labels.modify point.index fun l => { l with settled := true } }
  (n.outArcs point).foldl (fun s (arc, place) => s.improve cost arc place) settled

def settleAll (n : Network) (target : Option PointId) : Nat → Labels → Labels
  | 0, s => s
  | fuel + 1, s =>
    match s.nearest? with
    | none => s
    | some (point, cost) =>
      if target = some point then s else settleAll n target fuel (s.settle n point cost)

def sweep (s : Labels) (n : Network) : Labels :=
  n.arcs.zipIdx.foldl (fun s (arc, place) => s.improve (s.costTo arc.source) arc place) s

def sweepAll (n : Network) : Nat → Labels → Labels
  | 0, s => s
  | rounds + 1, s =>
    let next := s.sweep n
    if next = s then s else sweepAll n rounds next

end Labels

namespace Network

/-- The cheapest ways from the source, found by settling the cheapest point first. Every point is
    settled at most once. If there is a target, the search ends when the target is next, and what
    it knows of other points may not be final. -/
def dijkstra (n : Network) (source : PointId) (target : Option PointId) : Labels :=
  Labels.settleAll n target n.pointCount (.initial n source)

def bellmanFord (n : Network) (source : PointId) : Labels :=
  Labels.sweepAll n (max n.pointCount 2 - 1) (.initial n source)

def search (n : Network) (method : SearchMethod) (source : PointId) (target : Option PointId) :
    Labels :=
  match method with
  | .dijkstra => n.dijkstra source target
  | .bellmanFord => n.bellmanFord source

end Network

end TrafficControl
