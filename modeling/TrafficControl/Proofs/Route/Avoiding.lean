import TrafficControl.Proofs.Route.Retracing
import TrafficControl.Proofs.Route.Twins

namespace TrafficControl

open Navigator (stepOf)

namespace Walk

variable {ok : Arc → Prop} {keep : PointId → Prop} {s d : PointId} {l : List Arc}

/-- A walk over arcs both of whose ends are kept, from a point that is kept, visits no other. -/
theorem kept (walk : Walk (fun a => ok a ∧ keep a.source ∧ keep a.target) s l d) (start : keep s) :
    Walk ok s l d ∧ ∀ p ∈ s :: l.map (·.target), keep p := by
  induction walk with
  | stay p =>
    refine ⟨.stay p, fun q here => ?_⟩
    rw [List.map_nil, List.mem_singleton] at here
    exact here ▸ start
  | @drive a l d allowed _ ih =>
    obtain ⟨allowed, source, target⟩ := allowed
    obtain ⟨rest, later⟩ := ih target
    refine ⟨.drive allowed rest, fun q visited => ?_⟩
    rcases List.mem_cons.mp visited with rfl | after
    · exact source
    · exact later q after

theorem of_kept (walk : Walk ok s l d) (kept : ∀ p ∈ s :: l.map (·.target), keep p) :
    Walk (fun a => ok a ∧ keep a.source ∧ keep a.target) s l d := by
  induction walk with
  | stay p => exact .stay p
  | @drive a l d allowed _ ih =>
    have later : ∀ p ∈ a.target :: l.map (·.target), keep p :=
      fun p visited => kept p (List.mem_cons_of_mem _ visited)
    exact .drive ⟨allowed, kept _ List.mem_cons_self, later _ List.mem_cons_self⟩ (ih later)

theorem kept_iff (keep : PointId → Prop) (apart : s ≠ d) :
    Walk (fun a => ok a ∧ keep a.source ∧ keep a.target) s l d ↔
      Walk ok s l d ∧ ∀ p ∈ s :: l.map (·.target), keep p := by
  constructor
  · intro walk
    refine walk.kept ?_
    cases walk with
    | stay => exact absurd rfl apart
    | drive allowed _ => exact allowed.2.1
  · intro h
    obtain ⟨walk, kept⟩ := h
    exact walk.of_kept kept

end Walk

/-- A walk that visits none of the avoided points, its ends included. -/
structure Detour (ok : Arc → Prop) (avoided : List PointId) (s : PointId) (l : List Arc)
    (d : PointId) : Prop where
  walk : Walk ok s l d
  avoids : ∀ p ∈ s :: l.map (·.target), p ∉ avoided

namespace NetworkScope

variable {scope : NetworkScope} {plant : Plant} {avoided : List PointId} {a : Arc}

theorem usable_excluding {p : PointId} : { scope with excluded := avoided }.usable plant p = true ↔
    { scope with excluded := [] }.usable plant p = true ∧ p ∉ avoided := by
  simp [usable, and_comm]

theorem drives_excluding : { scope with excluded := avoided }.Drives plant a ↔
    { scope with excluded := [] }.Drives plant a ∧ a.source ∉ avoided ∧ a.target ∉ avoided := by
  constructor
  · intro drives
    obtain ⟨source, leaves⟩ := usable_excluding.mp drives.source
    obtain ⟨target, arrives⟩ := usable_excluding.mp drives.target
    exact ⟨⟨drives.path, source, target, drives.cost⟩, leaves, arrives⟩
  · intro h
    obtain ⟨drives, leaves, arrives⟩ := h
    exact ⟨drives.path, usable_excluding.mpr ⟨drives.source, leaves⟩,
      usable_excluding.mpr ⟨drives.target, arrives⟩, drives.cost⟩

theorem walk_excluding {s d : PointId} {l : List Arc} (apart : s ≠ d) :
    Walk ({ scope with excluded := avoided }.Drives plant) s l d ↔
      Detour ({ scope with excluded := [] }.Drives plant) avoided s l d := by
  rw [Walk.congr fun a => drives_excluding, Walk.kept_iff (· ∉ avoided) apart]
  exact ⟨fun h => ⟨h.1, h.2⟩, fun h => ⟨h.walk, h.avoids⟩⟩

end NetworkScope

namespace Navigator

variable {n : Navigator} {s d : PointId}

theorem isCheapest_search (sound : n.network.Sound) (known : s.index < n.network.pointCount)
    (method : SearchMethod) : IsCheapest (· ∈ n.network.arcs) s d
      (n.routeIn (n.network.search method s (some d)) d) := by
  refine isCheapest_of_labels (fun l walk => ?_) fun reached => ?_
  · exact Network.costTo_search_le sound known method (.inr rfl) walk
  · obtain ⟨rank, rooted⟩ := (Network.growing_search sound known method (some d)).rooted
    obtain ⟨places, l, found, trace⟩ := rooted.arcsTo? sound known reached
    have cost := trace.cost_eq rooted fun a tree => Network.costTo_tree_le sound known method tree
    exact ⟨places, l, found, trace.arcs, trace.walk.mono fun a tree => tree.mem_arcs, cost⟩

end Navigator

namespace Route

theorem points_of_walk {ok : Arc → Prop} {s d : PointId} {l : List Arc} {route : Route}
    (walk : Walk ok s l d) (apart : s ≠ d) (steps : route.steps = l.mapIdx fun i a => stepOf a i) :
    route.points = s :: l.map (·.target) := by
  have destinations : route.steps.map (·.destination) = l.map (·.target) := by
    apply List.ext_getElem?
    intro i
    rw [steps, List.getElem?_map, List.getElem?_mapIdx, List.getElem?_map, Option.map_map]
    rfl
  cases walk with
  | stay => exact absurd rfl apart
  | @drive a l d allowed rest =>
    have first : route.source? = some a.source := by
      rw [source?, steps, List.mapIdx_cons]
      rfl
    rw [points, first, destinations]
    rfl

end Route

namespace Router

/-- What keeps away from some points is a cheapest route over what is left of the plant, if there is
    one at all, and neither what the router has kept nor any later answer shows that it was asked. -/
theorem routeAvoiding_detours (r : Router) (v : Vehicle) {s d : PointId} (avoided : List PointId)
    (source : r.plant.current.defines (.point s) = true)
    (destination : r.plant.current.defines (.point d) = true) (apart : s ≠ d) :
    let asked := r.routeAvoiding v s d avoided
    let ok := (r.scope v []).Drives r.plant.current
    ∃ answer, asked.1 = .ok answer ∧
      (answer.isSome = true ↔ ∃ l, Detour ok avoided s l d ∧ driveCost l < Cost.limit) ∧
      (∀ route, answer = some route → (∀ p ∈ route.points, p ∉ avoided) ∧
        ∃ l, Detour ok avoided s l d ∧ route.steps = (l.mapIdx fun i a => stepOf a i) ∧
          route.cost.amount = driveCost l ∧
          ∀ other, Detour ok avoided s other d → driveCost l ≤ driveCost other) ∧
      asked.2.navigators = r.navigators ∧
      ∀ later, (r.run later).AnswersLike (asked.2.run later) := by
  intro asked ok
  have network : (r.build v avoided).1.network =
      .build { r.scope v [] with excluded := avoided } r.plant.current := rfl
  have sound : (r.build v avoided).1.network.Sound := network ▸ Network.sound_build
  have known : ∀ p ∈ [s, d], p.index < (r.build v avoided).1.network.pointCount := by
    intro p ends
    rw [network, Network.pointCount_build]
    rcases List.mem_cons.mp ends with rfl | last
    · exact of_decide_eq_true source
    · rw [List.mem_singleton.mp last]
      exact of_decide_eq_true destination
  have cheapest : IsCheapest ({ r.scope v [] with excluded := avoided }.Drives r.plant.current) s d
      ((r.build v avoided).1.route s d) := by
    rw [Navigator.route, if_neg apart]
    refine (Navigator.isCheapest_search sound (known s List.mem_cons_self) _).congr fun a => ?_
    rw [network]
    exact Network.mem_arcs_build
  have detours {l : List Arc} : Walk ({ r.scope v [] with excluded := avoided }.Drives
      r.plant.current) s l d ↔ Detour ok avoided s l d := NetworkScope.walk_excluding apart
  refine ⟨(r.build v avoided).1.route s d, ask_known known (·.route s d), ?_, ?_, rfl, fun later =>
    ((twin_build r v avoided).run later).answersLike⟩
  · simpa only [detours] using cheapest.isSome_iff
  · intro route found
    obtain ⟨l, walk, steps, cost, least⟩ := cheapest.best route found
    have detour := detours.mp walk
    refine ⟨?_, l, detour, steps, cost, fun other detour' => least other (detours.mpr detour')⟩
    rw [Route.points_of_walk walk apart steps]
    exact detour.avoids

theorem routeAvoiding_detours_shortcut :
    let r := ofSettings shortcut { method := .bellmanFord }
    let v : Vehicle := { id := ⟨0⟩, name := "AGV" }
    let asked := r.routeAvoiding v ⟨0⟩ ⟨2⟩ [⟨1⟩]
    let ok := (r.scope v []).Drives shortcut.current
    shortcut.current.defines (.point ⟨0⟩) = true ∧ shortcut.current.defines (.point ⟨2⟩) = true ∧
      asked.1 = .ok (some {
        steps := [{ path := ⟨0⟩, source := ⟨0⟩, destination := ⟨2⟩, direction := .forward, index := 0 }]
        cost := 5000 }) ∧
      (∃ l, Detour ok [⟨1⟩] ⟨0⟩ l ⟨2⟩ ∧ driveCost l = 5000 ∧
        ∀ other, Detour ok [⟨1⟩] ⟨0⟩ other ⟨2⟩ → driveCost l ≤ driveCost other) ∧
      ∀ later, (r.run later).AnswersLike (asked.2.run later) := by
  intro r v asked ok
  obtain ⟨answer, found, -, best, -, later⟩ := routeAvoiding_detours r v (s := ⟨0⟩) (d := ⟨2⟩) [⟨1⟩]
    (by decide) (by decide) (by decide)
  have computed : asked.1 = .ok (some {
      steps := [{ path := ⟨0⟩, source := ⟨0⟩, destination := ⟨2⟩, direction := .forward, index := 0 }]
      cost := 5000 }) := by
    cbv
  cases found.symm.trans computed
  obtain ⟨-, l, detour, -, cost, least⟩ := best _ rfl
  exact ⟨by decide, by decide, computed, ⟨l, detour, cost.symm, least⟩, later⟩

end Router

end TrafficControl
