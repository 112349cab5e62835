import Mathlib
import TrafficControl.Proofs.Route.Fresh
import TrafficControl.Proofs.Route.Optimal

namespace TrafficControl

inductive RouterAction where
  | lock (path : PathId) (locked : Bool)
  | replace (plant : Plant)
  | invalidate
  | route (v : Vehicle) (source destination : PointId)
  | routes (v : Vehicle) (source : PointId) (destinations : List PointId)
  | cost (v : Vehicle) (source destination : PointId)
  | legs (v : Vehicle) (source : PointId) (destinations : List PointId)
  | avoiding (v : Vehicle) (source destination : PointId) (avoided : List PointId)
  | rank (candidates : List (Vehicle × PointId)) (destination : PointId)
  | select (v : VehicleId) (routes : List Route)
  | deselect (v : VehicleId)

def RouterAction.vehicles : RouterAction → List Vehicle
  | .route v _ _ => [v]
  | .routes v _ _ => [v]
  | .cost v _ _ => [v]
  | .legs v _ _ => [v]
  | .rank candidates _ => candidates.map (·.1)
  | _ => []

/-- Vehicles of one routing group have the same velocities, if these count at all. -/
def RouterSettings.Uniform (settings : RouterSettings) (vehicles : List Vehicle) : Prop :=
  .travelTime ∉ settings.measures ∨ ∀ u ∈ vehicles, ∀ v ∈ vehicles,
    u.groupOr settings.defaultGroup = v.groupOr settings.defaultGroup →
      u.forwardVelocity = v.forwardVelocity ∧ u.backwardVelocity = v.backwardVelocity

theorem Measure.weigh_congr {measure : Measure} {path : Path} {d : Direction} {u v : Vehicle}
    (same : measure = .travelTime → u.velocity d = v.velocity d) :
    measure.weigh path d u = measure.weigh path d v := by
  cases measure with
  | travelTime => simp only [Measure.weigh, Weighing.travelTime, same rfl]
  | _ => rfl

theorem Weighing.ofMeasures_congr {measures : List Measure} {path : Path} {d : Direction}
    {u v : Vehicle} (same : .travelTime ∈ measures → u.velocity d = v.velocity d) :
    Weighing.ofMeasures measures path d u = Weighing.ofMeasures measures path d v := by
  have each : ∀ measure ∈ Measure.effective measures,
      measure.weigh path d u = measure.weigh path d v := by
    intro measure counted
    apply Measure.weigh_congr
    intro timed
    subst timed
    unfold Measure.effective at counted
    split at counted
    · cases List.mem_singleton.mp counted
    · exact same counted
  simp only [Weighing.ofMeasures, Weighing.total, List.map_map]
  exact congrArg Cost.sum (List.map_congr_left each)

theorem RouterSettings.Uniform.pays {settings : RouterSettings} {fleet : List Vehicle}
    (uniform : settings.Uniform fleet) {u v : Vehicle} (hu : u ∈ fleet) (hv : v ∈ fleet)
    (group : u.groupOr settings.defaultGroup = v.groupOr settings.defaultGroup) (path : Path)
    (d : Direction) : Weighing.ofMeasures settings.measures path d u =
      Weighing.ofMeasures settings.measures path d v := by
  apply Weighing.ofMeasures_congr
  intro timed
  rcases uniform with untimed | equal
  · exact absurd timed untimed
  · obtain ⟨forward, backward⟩ := equal u hu v hv group
    cases d with
    | forward => exact forward
    | backward => exact backward

theorem Network.build_congr {s t : NetworkScope} {plant : Plant} (group : t.group = s.group)
    (excluded : t.excluded = s.excluded)
    (pays : ∀ path d, t.weighing path d t.vehicle = s.weighing path d s.vehicle) :
    build t plant = build s plant := by
  have usable : t.usable plant = s.usable plant := by
    funext point
    rw [NetworkScope.usable, NetworkScope.usable, group, excluded]
  have directions : t.directionsFrom plant = s.directionsFrom plant := by
    funext point path
    rw [NetworkScope.directionsFrom, NetworkScope.directionsFrom, usable, group]
  have departures : t.departures plant = s.departures plant := by
    funext point
    rw [NetworkScope.departures, NetworkScope.departures, usable, directions]
  have arc : t.arc? = s.arc? := by
    funext departure
    simp only [NetworkScope.arc?, pays]
  simp only [build, group, departures, arc]

namespace Navigator

variable {n m : Navigator}

/-- The navigators find the same ways, whenever they were built. -/
structure Same (n m : Navigator) : Prop where
  network : n.network = m.network
  method : n.method = m.method

variable (same : n.Same m) (source : PointId)

include same

theorem Same.route (d : PointId) : n.route source d = m.route source d := by
  simp only [Navigator.route, routeIn, same.network, same.method]

theorem Same.routesFrom (destinations : List PointId) :
    n.routesFrom source destinations = m.routesFrom source destinations := by
  simp only [Navigator.routesFrom, routeIn, same.network, same.method]

theorem Same.cost (d : PointId) : n.cost source d = m.cost source d := by
  simp only [Navigator.cost, same.network, same.method]

theorem Same.legs (destinations : List PointId) :
    n.legs source destinations = m.legs source destinations := by
  induction destinations generalizing source with
  | nil => rfl
  | cons d rest ih => simp only [Navigator.legs, same.route, ih]

end Navigator

namespace Router

def next (r : Router) : RouterAction → Router
  | .lock path locked =>
    match r.plant.setLocked path locked with
    | .ok plant => { r with plant }
    | .error _ => r
  | .replace plant => { r with plant := r.plant.replace plant }
  | .invalidate => r.invalidate
  | .route v source destination => (r.route v source destination).2
  | .routes v source destinations => (r.routes v source destinations).2
  | .cost v source destination => (r.cost v source destination).2
  | .legs v source destinations => (r.legs v source destinations).2
  | .avoiding v source destination avoided => (r.routeAvoiding v source destination avoided).2
  | .rank candidates destination => (r.rank candidates destination).2
  | .select v routes => r.select v routes
  | .deselect v => r.deselect v

def run (r : Router) (actions : List RouterAction) : Router := actions.foldl next r

/-- The router goes by its settings, and what it keeps is outdated or what each vehicle of the group
    would have built now. -/
structure Mirrors (settings : RouterSettings) (fleet : List Vehicle) (r : Router) : Prop where
  settled : r.settings = settings
  weighs : r.weighing = .ofMeasures settings.measures
  fresh : r.Fresh
  alike : ∀ group kept, r.navigators.get? group = some kept →
    kept.generation = r.plant.generation → ∀ v ∈ fleet, r.groupOf v = group →
      kept.navigator.network = .build (r.scope v []) r.plant.current

variable {r : Router} {v : Vehicle} {settings : RouterSettings} {fleet : List Vehicle}

theorem mirrors_ofSettings (plant : PlantVersions) :
    (ofSettings plant settings).Mirrors settings fleet where
  settled := rfl
  weighs := rfl
  fresh := fresh_ofSettings plant settings
  alike group kept found := by cases found

namespace Mirrors

theorem scope (mirrors : r.Mirrors settings fleet) (v : Vehicle) (excluded : List PointId) :
    r.scope v excluded = (ofSettings r.plant settings).scope v excluded := by
  simp only [Router.scope, groupOf, mirrors.settled, mirrors.weighs]
  rfl

theorem build (mirrors : r.Mirrors settings fleet) (uniform : settings.Uniform fleet) {u : Vehicle}
    (hu : u ∈ fleet) (hv : v ∈ fleet) (group : r.groupOf u = r.groupOf v) :
    Network.build (r.scope u []) r.plant.current = .build (r.scope v []) r.plant.current := by
  have pays : ∀ path d, r.weighing path d u = r.weighing path d v := by
    have group : u.groupOr settings.defaultGroup = v.groupOr settings.defaultGroup :=
      mirrors.settled ▸ group
    rw [mirrors.weighs]
    exact uniform.pays hu hv group
  exact Network.build_congr group rfl pays

theorem follow {plant : PlantVersions} (mirrors : r.Mirrors settings fleet)
    (follows : plant.Follows r.plant) : Mirrors settings fleet { r with plant } where
  settled := mirrors.settled
  weighs := mirrors.weighs
  fresh := mirrors.fresh.follow follows
  alike group kept found current := by
    rcases follows with rfl | later
    · exact mirrors.alike group kept found current
    -- no entry is of a generation that the plant has only now reached
    · have before := (mirrors.fresh group kept found).1
      have current : kept.generation = plant.generation := current
      omega

theorem navigator (mirrors : r.Mirrors settings fleet) (uniform : settings.Uniform fleet)
    (asks : v ∈ fleet) : (r.navigator v).1.network = .build (r.scope v []) r.plant.current ∧
      (r.navigator v).2.Mirrors settings fleet := by
  have fresh := (mirrors.fresh.navigator v).2
  -- what is built for the vehicle that asks will do for all vehicles of its group
  have renewed : ∀ group kept, (r.navigators.insert (r.groupOf v)
      { generation := r.plant.generation, navigator := (r.build v []).1 }).get? group = some kept →
        kept.generation = r.plant.generation → ∀ u ∈ fleet, r.groupOf u = group →
          kept.navigator.network = .build (r.scope u []) r.plant.current := by
    intro group kept found current u hu own
    rw [Table.get?_insert] at found
    split at found
    · rename_i same
      cases found
      exact mirrors.build uniform asks hu (same.symm.trans own.symm)
    · exact mirrors.alike group kept found current u hu own
  simp only [Router.navigator] at fresh ⊢
  split at fresh
  · rename_i kept found
    split at fresh
    · rename_i current
      rw [if_pos current]
      exact ⟨mirrors.alike _ kept found current v asks rfl, mirrors⟩
    · rename_i outdated
      rw [if_neg outdated]
      exact ⟨rfl, mirrors.settled, mirrors.weighs, fresh, renewed⟩
  · exact ⟨rfl, mirrors.settled, mirrors.weighs, fresh, renewed⟩

theorem costsOf (mirrors : r.Mirrors settings fleet) (uniform : settings.Uniform fleet)
    {candidates : List (Vehicle × PointId)} (asks : ∀ candidate ∈ candidates, candidate.1 ∈ fleet)
    (d : PointId) : (r.costsOf d candidates).2.Mirrors settings fleet := by
  refine costsOf_keeps (P := Mirrors settings fleet) (fun r candidate member mirrors => ?_) d mirrors
  exact (mirrors.navigator uniform (asks candidate member)).2

theorem next (mirrors : r.Mirrors settings fleet) (uniform : settings.Uniform fleet)
    {a : RouterAction} (asks : ∀ v ∈ a.vehicles, v ∈ fleet) :
    (r.next a).Mirrors settings fleet := by
  have asked : ∀ v, v ∈ a.vehicles → (r.navigator v).2.Mirrors settings fleet :=
    fun v member => (mirrors.navigator uniform (asks v member)).2
  cases a with
  | lock path locked =>
    simp only [Router.next]
    split
    · rename_i changed
      exact mirrors.follow (PlantVersions.follows_setLocked changed)
    · exact mirrors
  | replace plant => exact mirrors.follow (PlantVersions.follows_replace r.plant plant)
  | invalidate =>
    exact ⟨mirrors.settled, mirrors.weighs, fresh_invalidate, fun _ _ found => by cases found⟩
  | route v | routes v | cost v | legs v => exact asked v List.mem_cons_self
  | avoiding | select | deselect =>
    exact ⟨mirrors.settled, mirrors.weighs, mirrors.fresh, mirrors.alike⟩
  | rank candidates d =>
    apply mirrors.costsOf uniform
    intro candidate member
    exact asks candidate.1 (List.mem_map_of_mem member)

theorem run (mirrors : r.Mirrors settings fleet) (uniform : settings.Uniform fleet)
    {actions : List RouterAction} (asks : ∀ v ∈ actions.flatMap RouterAction.vehicles, v ∈ fleet) :
    (r.run actions).Mirrors settings fleet := by
  induction actions generalizing r with
  | nil => exact mirrors
  | cons a rest ih =>
    rw [List.flatMap_cons] at asks
    exact ih (mirrors.next uniform fun v member => asks v (List.mem_append_left _ member))
      fun v member => asks v (List.mem_append_right _ member)

end Mirrors

theorem query_congr {r' : Router} {α : Type} (same : (r.navigator v).1.Same (r'.navigator v).1)
    (points : List PointId) {question : Navigator → α}
    (answer : question (r.navigator v).1 = question (r'.navigator v).1) :
    (r.query v points question).1 = (r'.query v points question).1 := by
  simp only [query, ask, same.network, answer]

/-- Whatever was asked, locked, replaced or dropped before, a router answers like a new one on the
    plant as it is, on the network that a new one would build: as long as what the vehicles of one
    group drive at is the same, or does not count. -/
theorem answers_like_new (plant : PlantVersions) (settings : RouterSettings)
    {actions : List RouterAction} {v : Vehicle}
    (uniform : settings.Uniform (v :: actions.flatMap RouterAction.vehicles)) :
    let r := (ofSettings plant settings).run actions
    let new := ofSettings r.plant settings
    (r.navigator v).1.network = .build (new.scope v []) r.plant.current ∧
      (∀ source d, (r.route v source d).1 = (new.route v source d).1) ∧
      (∀ source ds, (r.routes v source ds).1 = (new.routes v source ds).1) ∧
      (∀ source d, (r.cost v source d).1 = (new.cost v source d).1) ∧
      ∀ source ds, (r.legs v source ds).1 = (new.legs v source ds).1 := by
  intro r new
  have mirrors : r.Mirrors settings (v :: actions.flatMap RouterAction.vehicles) :=
    (mirrors_ofSettings plant).run uniform fun _ member => List.mem_cons_of_mem _ member
  have network : (r.navigator v).1.network = .build (new.scope v []) r.plant.current := by
    rw [← mirrors.scope]
    exact (mirrors.navigator uniform List.mem_cons_self).1
  have method : (r.navigator v).1.method = settings.method :=
    ((mirrors.fresh.navigator v).1).1.trans (congrArg RouterSettings.method mirrors.settled)
  obtain ⟨network', method'⟩ := navigator_fresh (r := new) (v := v) Table.get?_empty
  have same : (r.navigator v).1.Same (new.navigator v).1 :=
    ⟨network.trans network'.symm, method.trans method'.symm⟩
  refine ⟨network, ?_, ?_, ?_, ?_⟩
  · intro source d
    exact query_congr same _ (same.route source d)
  · intro source ds
    exact query_congr same _ (same.routesFrom source ds)
  · intro source d
    exact query_congr same _ (same.cost source d)
  · intro source ds
    exact query_congr same _ (same.legs source ds)

theorem answers_like_new_shortcut :
    let settings : RouterSettings := { measures := [.travelTime] }
    let slow : Vehicle := { id := ⟨0⟩, name := "slow", group := some "S", forwardVelocity := 300 }
    let other : Vehicle := { id := ⟨1⟩, name := "other", group := some " " }
    let v : Vehicle := { id := ⟨2⟩, name := "AGV" }
    let actions : List RouterAction := [.route slow ⟨0⟩ ⟨2⟩, .cost other ⟨0⟩ ⟨2⟩,
      .lock ⟨0⟩ true, .lock ⟨0⟩ true, .lock ⟨0⟩ false, .cost v ⟨0⟩ ⟨1⟩, .lock ⟨2⟩ true]
    settings.Uniform (v :: actions.flatMap RouterAction.vehicles) ∧
      (((ofSettings shortcut settings).run actions).cost v ⟨0⟩ ⟨2⟩).1 = .ok 5000 ∧
      (((ofSettings shortcut settings).run actions).route v ⟨0⟩ ⟨7⟩).1 =
        .error (.unknownPoint ⟨7⟩) := by
  intro settings slow other v actions
  have uniform : settings.Uniform (v :: actions.flatMap RouterAction.vehicles) := by
    right
    decide_cbv
  obtain ⟨-, route, -, cost, -⟩ := answers_like_new shortcut settings uniform
  refine ⟨uniform, ?_, ?_⟩
  · rw [cost]
    cbv
  · rw [route]
    cbv

end Router

end TrafficControl
