import TrafficControl.Proofs.Route.Dijkstra
import TrafficControl.Route.Navigator

namespace TrafficControl

namespace Labels

variable {n : Network} {source : PointId} {s : Labels}

theorem growing_improveAll (sound : n.Sound) (growing : Growing n source s)
    {todo : List (Arc × Nat)} (places : ∀ e ∈ todo, n.arcs[e.2]? = some e.1) :
    Growing n source
      (todo.foldl (fun s (arc, place) => s.improve (s.costTo arc.source) arc place) s) := by
  induction todo generalizing s with
  | nil => exact growing
  | cons e rest ih =>
    obtain ⟨a, place⟩ := e
    have arc := places (a, place) List.mem_cons_self
    have inside : a.target.index < s.labels.length := by
      rw [growing.size]
      exact sound.ends a (List.mem_of_getElem? arc)
    exact ih (growing.improve inside arc rfl) fun e later => places e (List.mem_cons_of_mem _ later)

theorem growing_sweep (sound : n.Sound) (growing : Growing n source s) :
    Growing n source (s.sweep n) := by
  apply growing_improveAll sound growing
  intro e listed
  exact List.mk_mem_zipIdx_iff_getElem?.mp listed

theorem growing_sweepAll (sound : n.Sound) (growing : Growing n source s) (rounds : Nat) :
    Growing n source (sweepAll n rounds s) := by
  induction rounds generalizing s with
  | zero => exact growing
  | succ rounds ih =>
    simp only [sweepAll]
    split
    · exact growing
    · exact ih (growing_sweep sound growing)

end Labels

namespace Network

variable {n : Network} {source : PointId}

theorem growing_search (sound : n.Sound) (known : source.index < n.pointCount)
    (method : SearchMethod) (target : Option PointId) :
    Labels.Growing n source (n.search method source target) := by
  cases method with
  | dijkstra =>
    obtain ⟨order, inv, -⟩ := dijkstra_settling sound known target
    exact inv.growing
  | bellmanFord => exact Labels.growing_sweepAll sound (Labels.growing_initial known) _

/-- Whatever was reached, by either method, is reached on a way that visits no point twice. -/
theorem arcsTo?_search (sound : n.Sound) (known : source.index < n.pointCount)
    (method : SearchMethod) (target : Option PointId) {p : PointId}
    (reached : (n.search method source target).reaches p = true) :
    ∃ rank places l, (n.search method source target).arcsTo? n p = some places ∧
      Labels.Trace n source rank (n.search method source target) p places l := by
  obtain ⟨rank, rooted⟩ := (growing_search sound known method target).rooted
  obtain ⟨places, l, found, trace⟩ := rooted.arcsTo? sound known reached
  exact ⟨rank, places, l, found, trace⟩

end Network

namespace Navigator

variable {n : Navigator} {s d : PointId} {route : Route}

theorem walk_of_route (sound : n.network.Sound) (known : s.index < n.network.pointCount)
    (h : n.route s d = some route) : ∃ l, Walk (· ∈ n.network.arcs) s l d ∧
      route.steps = (l.mapIdx fun i a => stepOf a i) ∧ (s :: l.map (·.target)).Nodup := by
  unfold Navigator.route at h
  split at h
  · rename_i same
    cases h
    subst same
    exact ⟨[], .stay s, rfl, List.pairwise_singleton _ s⟩
  · by_cases reached : (n.network.search n.method s (some d)).reaches d = true
    · obtain ⟨rank, places, l, found, trace⟩ :=
        Network.arcsTo?_search sound known n.method (some d) reached
      rw [routeIn, found, Option.map_some, trace.arcs] at h
      cases h
      exact ⟨l, trace.walk.mono fun a tree => tree.mem_arcs, rfl, trace.nodup⟩
    · rw [routeIn, Labels.arcsTo?, if_neg reached] at h
      cases h

theorem source_of_head (sound : n.network.Sound) (known : s.index < n.network.pointCount)
    (h : n.route s d = some route) {first : Step} (head : route.steps.head? = some first) :
    first.source = s := by
  obtain ⟨l, walk, steps, -⟩ := walk_of_route sound known h
  rw [steps] at head
  cases walk with
  | stay => cases head
  | drive =>
    rw [List.mapIdx_cons, List.head?_cons] at head
    cases head
    rfl

theorem destination_ne (sound : n.network.Sound) (known : s.index < n.network.pointCount)
    (h : n.route s d = some route) {step : Step} (member : step ∈ route.steps) :
    step.destination ≠ s := by
  obtain ⟨l, -, steps, nodup⟩ := walk_of_route sound known h
  rw [steps] at member
  obtain ⟨i, inside, rfl⟩ := List.mem_mapIdx.mp member
  intro same
  subst same
  have target : (l[i]).target ∈ l.map (·.target) :=
    List.mem_map.mpr ⟨l[i], List.getElem_mem inside, rfl⟩
  exact (List.nodup_cons.mp nodup).1 target

end Navigator

end TrafficControl
