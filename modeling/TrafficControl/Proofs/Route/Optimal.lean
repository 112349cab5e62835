import Mathlib
import TrafficControl.Proofs.Route.Dijkstra
import TrafficControl.Route.Router

namespace TrafficControl

open Navigator (stepOf)

/-- The answer is a cheapest route from one point to another over arcs of some kind, and there is
    one whenever a walk costs less than the limit. -/
structure IsCheapest (ok : Arc → Prop) (s d : PointId) (answer : Option Route) : Prop where
  isSome_iff : answer.isSome = true ↔ ∃ l, Walk ok s l d ∧ driveCost l < Cost.limit
  best : ∀ route, answer = some route → ∃ l, Walk ok s l d ∧
    route.steps = (l.mapIdx fun i a => stepOf a i) ∧ route.cost.amount = driveCost l ∧
      ∀ other, Walk ok s other d → driveCost l ≤ driveCost other

theorem IsCheapest.congr {ok ok' : Arc → Prop} {s d : PointId} {answer : Option Route}
    (same : ∀ a, ok a ↔ ok' a) (h : IsCheapest ok s d answer) : IsCheapest ok' s d answer := by
  have equal : ok = ok' := funext fun a => propext (same a)
  exact equal ▸ h

namespace Navigator

variable {n : Navigator} {s d : PointId}

theorem isCheapest_empty {ok : Arc → Prop} : IsCheapest ok s s (some .empty) where
  isSome_iff := ⟨fun _ => ⟨[], .stay s, by decide⟩, fun _ => rfl⟩
  best route h := by
    cases h
    exact ⟨[], .stay s, rfl, rfl, fun other _ => Nat.zero_le _⟩

/-- What makes the route that labels lead to a cheapest one: no walk costs less than they say, and if
    they say that there is a way, it is found and costs what they say. -/
theorem isCheapest_of_labels {labels : Labels}
    (least : ∀ l, Walk (· ∈ n.network.arcs) s l d → (labels.costTo d).amount ≤ driveCost l)
    (traced : labels.reaches d = true → ∃ places l, labels.arcsTo? n.network d = some places ∧
      places.filterMap (n.network.arcs[·]?) = l ∧ Walk (· ∈ n.network.arcs) s l d ∧
        driveCost l = (labels.costTo d).amount) :
    IsCheapest (· ∈ n.network.arcs) s d (n.routeIn labels d) := by
  by_cases reached : labels.reaches d = true
  · obtain ⟨places, l, found, arcs, walk, cost⟩ := traced reached
    rw [routeIn, found, Option.map_some, arcs]
    constructor
    · rw [Labels.reaches_iff] at reached
      exact ⟨fun _ => ⟨l, walk, by omega⟩, fun _ => rfl⟩
    · intro route h
      cases h
      exact ⟨l, walk, rfl, cost.symm, fun other walk => cost ▸ least other walk⟩
  · have none : n.routeIn labels d = none := by
      rw [routeIn, Labels.arcsTo?, if_neg reached, Option.map_none]
    rw [none]
    constructor
    · constructor
      · intro found
        cases found
      · intro h
        obtain ⟨l, walk, cheap⟩ := h
        have far := Labels.costTo_of_not_reaches reached
        have near := least l walk
        omega
    · intro route found
      cases found

theorem isCheapest_routeIn (sound : n.network.Sound) (known : s.index < n.network.pointCount) :
    IsCheapest (· ∈ n.network.arcs) s d (n.routeIn (n.network.dijkstra s (some d)) d) := by
  refine isCheapest_of_labels (fun l walk => ?_) fun reached => ?_
  · exact Network.costTo_dijkstra_le sound known (.inr rfl) walk
  · obtain ⟨rank, places, l, found, trace, cost⟩ :=
      Network.arcsTo?_dijkstra sound known (some d) reached
    exact ⟨places, l, found, trace.arcs, trace.walk.mono fun a tree => tree.mem_arcs, cost⟩

theorem isCheapest_route (sound : n.network.Sound) (known : s.index < n.network.pointCount)
    (method : n.method = .dijkstra) : IsCheapest (· ∈ n.network.arcs) s d (n.route s d) := by
  unfold route
  split
  · rename_i same
    subst same
    exact isCheapest_empty
  · rw [method]
    exact isCheapest_routeIn sound known

theorem costTo_eq_routeIn (labels : Labels) :
    labels.costTo d = ((n.routeIn labels d).map (·.cost)).getD .infinite := by
  by_cases reached : labels.reaches d = true
  · rw [routeIn, Labels.arcsTo?, if_pos reached]
    rfl
  · rw [routeIn, Labels.arcsTo?, if_neg reached]
    simpa [Labels.reaches] using reached

theorem cost_eq_route : n.cost s d = ((n.route s d).map (·.cost)).getD .infinite := by
  unfold cost route
  split
  · rfl
  · exact costTo_eq_routeIn _

end Navigator

namespace Router

variable {r : Router} {v : Vehicle} {s d : PointId}

theorem navigator_fresh (nothing : r.navigators.get? (r.groupOf v) = none) :
    (r.navigator v).1.network = .build (r.scope v []) r.plant.current ∧
      (r.navigator v).1.method = r.settings.method := by
  simp only [navigator, nothing]
  exact ⟨rfl, rfl⟩

theorem navigator_again : ((r.navigator v).2.navigator v).1 = (r.navigator v).1 := by
  have kept {n : Navigator} {r' : Router} (group : r'.groupOf v = r.groupOf v)
      (entry : r'.navigators.get? (r.groupOf v) =
        some { generation := r'.plant.generation, navigator := n }) : (r'.navigator v).1 = n := by
    simp only [navigator, group, entry, if_true]
  have built : ((r.build v []).2).groupOf v = r.groupOf v := rfl
  cases found : r.navigators.get? (r.groupOf v) with
  | none =>
    simp only [navigator, found]
    exact kept built Table.get?_insert_self
  | some old =>
    by_cases current : old.generation = r.plant.generation
    · have same : r.navigator v = (old.navigator, r) := by
        simp only [navigator, found, current, if_true]
      rw [same]
      exact congrArg Prod.fst same
    · simp only [navigator, found, current, if_false]
      exact kept built Table.get?_insert_self

theorem ask_known {α : Type} {n : Navigator} {points : List PointId}
    (known : ∀ p ∈ points, p.index < n.network.pointCount) (question : Navigator → α) :
    ask n points question = .ok (question n) := by
  have all : points.find? (fun p => !n.network.contains p) = none := by
    rw [List.find?_eq_none]
    intro p asked
    simp [Network.contains, known p asked]
  simp only [ask, all]

theorem query_ok {α : Type} {points : List PointId}
    (known : ∀ p ∈ points, p.index < (r.navigator v).1.network.pointCount)
    (question : Navigator → α) : (r.query v points question).1 = .ok (question (r.navigator v).1) :=
  ask_known known question

theorem query_again {α β : Type} {points points' : List PointId} {question : Navigator → α}
    {question' : Navigator → β} :
    ((r.query v points question).2.query v points' question').1 = (r.query v points' question').1 := by
  simp only [query, navigator_again]

/-- A new router answers with cheapest routes through the plant as it is, for whatever measures, and
    says of the cost what its route costs. -/
theorem isCheapest_route_ofSettings (plant : PlantVersions) (settings : RouterSettings)
    (dijkstra : settings.method = .dijkstra) (v : Vehicle) {s d : PointId}
    (source : plant.current.defines (.point s) = true)
    (destination : plant.current.defines (.point d) = true) :
    ∃ answer, ((ofSettings plant settings).route v s d).1 = .ok answer ∧
      IsCheapest (((ofSettings plant settings).scope v []).Drives plant.current) s d answer ∧
      ((ofSettings plant settings).cost v s d).1 =
        .ok ((answer.map (·.cost)).getD .infinite) ∧
      (((ofSettings plant settings).route v s d).2.cost v s d).1 =
        .ok ((answer.map (·.cost)).getD .infinite) := by
  obtain ⟨network, method⟩ := navigator_fresh (r := ofSettings plant settings) (v := v)
    (Table.get?_empty)
  have known : ∀ p ∈ [s, d],
      p.index < ((ofSettings plant settings).navigator v).1.network.pointCount := by
    intro p asked
    rw [network, Network.pointCount_build]
    rcases List.mem_cons.mp asked with rfl | asked
    · exact of_decide_eq_true source
    · rw [List.mem_singleton.mp asked]
      exact of_decide_eq_true destination
  have sound : ((ofSettings plant settings).navigator v).1.network.Sound := by
    rw [network]
    exact Network.sound_build
  refine ⟨((ofSettings plant settings).navigator v).1.route s d,
    query_ok known (·.route s d), ?_, ?_, ?_⟩
  · have cheapest := Navigator.isCheapest_route (d := d) sound (known s List.mem_cons_self)
      (method.trans dijkstra)
    refine cheapest.congr fun a => ?_
    rw [network]
    exact Network.mem_arcs_build
  · rw [← Navigator.cost_eq_route]
    exact query_ok known (·.cost s d)
  · rw [← Navigator.cost_eq_route]
    have again := navigator_again (r := ofSettings plant settings) (v := v)
    exact (query_ok (r := ((ofSettings plant settings).navigator v).2) (by rwa [again])
      (·.cost s d)).trans (by rw [again])

def shortcut : PlantVersions where
  current := {
    layout := {
      points := [{ name := "A", position := ⟨0, 0⟩ }, { name := "B", position := ⟨1000, 0⟩ },
        { name := "C", position := ⟨2000, 0⟩ }]
      paths := [{ name := "A-->C", source := ⟨0⟩, destination := ⟨2⟩, length := 5000 },
        { name := "A-->B", source := ⟨0⟩, destination := ⟨1⟩, length := 1000 },
        { name := "B-->C", source := ⟨1⟩, destination := ⟨2⟩, length := 1000 }] }
    sound := by decide
    incidence := [[⟨0⟩, ⟨1⟩], [⟨1⟩, ⟨2⟩], [⟨0⟩, ⟨2⟩]]
    incidence_eq := by decide
    memberships := ∅
    memberships_eq := by decide }

theorem isCheapest_route_shortcut :
    shortcut.current.defines (.point ⟨0⟩) = true ∧ shortcut.current.defines (.point ⟨2⟩) = true ∧
      IsCheapest (((ofSettings shortcut {}).scope { id := ⟨0⟩, name := "AGV" } []).Drives
        shortcut.current) ⟨0⟩ ⟨2⟩ (some {
          steps := [{ path := ⟨1⟩, source := ⟨0⟩, destination := ⟨1⟩, direction := .forward, index := 0 },
            { path := ⟨2⟩, source := ⟨1⟩, destination := ⟨2⟩, direction := .forward, index := 1 }]
          cost := 2000 }) := by
  obtain ⟨answer, found, cheapest, -⟩ := isCheapest_route_ofSettings shortcut {} rfl
    { id := ⟨0⟩, name := "AGV" } (s := ⟨0⟩) (d := ⟨2⟩) (by decide) (by decide)
  have computed : ((ofSettings shortcut {}).route { id := ⟨0⟩, name := "AGV" } ⟨0⟩ ⟨2⟩).1 =
      .ok (some {
        steps := [{ path := ⟨1⟩, source := ⟨0⟩, destination := ⟨1⟩, direction := .forward, index := 0 },
          { path := ⟨2⟩, source := ⟨1⟩, destination := ⟨2⟩, direction := .forward, index := 1 }]
        cost := 2000 }) := by
    cbv
  rw [computed] at found
  cases found
  exact ⟨by decide, by decide, cheapest⟩

end Router

end TrafficControl
