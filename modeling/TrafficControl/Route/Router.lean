import TrafficControl.Plant.Versions
import TrafficControl.Route.Navigator

namespace TrafficControl

/-- Why a routing question has no answer. That there is no route is an answer. -/
inductive RoutingFault where
  | unknownPoint (point : PointId)
deriving DecidableEq, Repr

def RoutingFault.message : RoutingFault → String
  | unknownPoint point => "point " ++ toString point ++ " is not part of the plant model"

structure CachedNavigator where
  generation : Nat
  navigator : Navigator
deriving DecidableEq, Repr

structure Effort where
  networks : Nat := 0
  weighed : Nat := 0
deriving DecidableEq, Repr

/-- Answers routing questions on the current plant. It keeps one navigator for every routing group,
    and builds it anew when the plant has changed. -/
structure Router where
  plant : PlantVersions
  settings : RouterSettings
  weighing : Weighing
  navigators : Table String CachedNavigator := ∅
  selected : Table VehicleId (List Route) := ∅
  effort : Effort := {}

namespace Router

def ofSettings (plant : PlantVersions) (settings : RouterSettings) : Router where
  plant
  settings
  weighing := .ofMeasures settings.measures

instance : Inhabited Router := ⟨ofSettings {} {}⟩

def groupOf (r : Router) (v : Vehicle) : String := v.groupOr r.settings.defaultGroup

def scope (r : Router) (v : Vehicle) (excluded : List PointId) : NetworkScope where
  group := r.groupOf v
  vehicle := v
  weighing := r.weighing
  excluded

def build (r : Router) (v : Vehicle) (excluded : List PointId) : Navigator × Router :=
  let scope := r.scope v excluded
  let plant := r.plant.current
  ({ serial := r.effort.networks, network := .build scope plant, method := r.settings.method },
    { r with effort := {
        networks := r.effort.networks + 1
        weighed := r.effort.weighed + Network.weighed scope plant } })

def navigator (r : Router) (v : Vehicle) : Navigator × Router :=
  let fresh : Navigator × Router :=
    let (navigator, r) := r.build v []
    (navigator, { r with navigators :=
      r.navigators.insert (r.groupOf v) { generation := r.plant.generation, navigator } })
  match r.navigators.get? (r.groupOf v) with
  | some kept =>
    if kept.generation = r.plant.generation then (kept.navigator, r) else fresh
  | none => fresh

def invalidate (r : Router) : Router := { r with navigators := ∅ }

def ask (n : Navigator) (points : List PointId) (question : Navigator → α) :
    Except RoutingFault α :=
  match points.find? fun p => !n.network.contains p with
  | some unknown => .error (.unknownPoint unknown)
  | none => .ok (question n)

def query (r : Router) (v : Vehicle) (points : List PointId) (question : Navigator → α) :
    Except RoutingFault α × Router :=
  let (navigator, r) := r.navigator v
  (ask navigator points question, r)

def route (r : Router) (v : Vehicle) (source destination : PointId) :
    Except RoutingFault (Option Route) × Router :=
  r.query v [source, destination] (·.route source destination)

def routes (r : Router) (v : Vehicle) (source : PointId) (destinations : List PointId) :
    Except RoutingFault (Table PointId Route) × Router :=
  r.query v (source :: destinations) (·.routesFrom source destinations)

def cost (r : Router) (v : Vehicle) (source destination : PointId) :
    Except RoutingFault Cost × Router :=
  r.query v [source, destination] (·.cost source destination)

def legs (r : Router) (v : Vehicle) (source : PointId) (destinations : List PointId) :
    Except RoutingFault (Option (List Route)) × Router :=
  r.query v (source :: destinations) (·.legs source destinations)

def routeAvoiding (r : Router) (v : Vehicle) (source destination : PointId)
    (avoided : List PointId) : Except RoutingFault (Option Route) × Router :=
  let (navigator, r) := r.build v avoided
  (ask navigator [source, destination] (·.route source destination), r)

def costsOf (r : Router) (destination : PointId) :
    List (Vehicle × PointId) → Except RoutingFault (List (VehicleId × Cost)) × Router
  | [] => (.ok [], r)
  | (v, source) :: rest =>
    match r.cost v source destination with
    | (.error fault, r) => (.error fault, r)
    | (.ok cost, r) =>
      let (costs, r) := r.costsOf destination rest
      (costs.map ((v.id, cost) :: ·), r)

def rank (r : Router) (candidates : List (Vehicle × PointId)) (destination : PointId) :
    Except RoutingFault (List (VehicleId × Cost)) × Router :=
  let (costs, r) := r.costsOf destination candidates
  (costs.map fun costs => costs.mergeSort fun a b =>
    a.2 < b.2 || (a.2 = b.2 && a.1.index ≤ b.1.index), r)

def select (r : Router) (v : VehicleId) (routes : List Route) : Router :=
  { r with selected := r.selected.insert v routes }

def deselect (r : Router) (v : VehicleId) : Router := { r with selected := r.selected.erase v }

end Router

end TrafficControl
