import TrafficControl.Proofs.Route.Agreeing

namespace TrafficControl

namespace Labels

/-- Going back from a point along the arcs by which points were reached ends, at a point that was
    reached by none, after the arcs at the given places, the last one first. -/
inductive Retraces (n : Network) (s : Labels) : PointId → List Nat → Prop
  | stop {p : PointId} (known : p.index < n.pointCount) (root : s.via? p = none) :
      Retraces n s p []
  | back {p : PointId} {places : List Nat} {place : Nat} {a : Arc}
      (known : p.index < n.pointCount) (via : s.via? p = some place)
      (arc : n.arcs[place]? = some a) (before : Retraces n s a.source places) :
      Retraces n s p (places ++ [place])

variable {n : Network} {source p : PointId} {s t : Labels} {places : List Nat}

theorem Retraces.congr (via : ∀ q, t.via? q = s.via? q) (h : s.Retraces n p places) :
    t.Retraces n p places := by
  induction h with
  | stop known root => exact .stop known ((via _).trans root)
  | back known reached arc _ ih => exact .back known ((via _).trans reached) arc ih

theorem Retraces.walkBack (h : s.Retraces n p places) {fuel : Nat} (enough : places.length ≤ fuel)
    (rest : List Nat) : s.walkBack n.arcs fuel p rest = places ++ rest := by
  induction h generalizing fuel rest with
  | stop _ root =>
    cases fuel with
    | zero => rfl
    | succ fuel => simp only [Labels.walkBack, root, List.nil_append]
  | @back p places place a _ via arc _ ih =>
    rw [List.length_append, List.length_singleton] at enough
    cases fuel with
    | zero => omega
    | succ fuel =>
      simp only [Labels.walkBack, via, arc]
      rw [ih (by omega), List.append_assoc]
      rfl

theorem Retraces.arcsTo? (h : s.Retraces n p places) (reached : s.reaches p = true)
    (short : places.length ≤ n.pointCount) : s.arcsTo? n p = some places := by
  rw [Labels.arcsTo?, if_pos reached, h.walkBack short, List.append_nil]

/-- Every point that leads back to the source can be gone back from. The induction is on how many
    arcs away the source is: costs alone would not do, as arcs may cost nothing. -/
theorem Growing.retraces (growing : Growing n source s) (known : source.index < n.pointCount)
    {k : Nat} (led : Led n source s k p) : ∃ places, s.Retraces n p places := by
  induction led with
  | start => exact ⟨[], .stop known growing.root⟩
  | @follow k p place a via arc _ ih =>
    obtain ⟨places, before⟩ := ih
    refine ⟨places ++ [place], .back ?_ via arc before⟩
    obtain ⟨l, found, -⟩ := Option.bind_eq_some_iff.mp via
    rw [← growing.size]
    exact (List.getElem?_eq_some_iff.mp found).1

theorem Trace.retraces {rank : PointId → Nat} {l : List Arc}
    (trace : Trace n source rank s p places l) (growing : Growing n source s)
    (known : source.index < n.pointCount) (reached : s.reaches p = true) :
    s.Retraces n p places := by
  obtain ⟨k, led⟩ := growing.led p reached
  obtain ⟨found, retraces⟩ := growing.retraces known led
  have same : found ++ [] = places ++ [] := by
    rw [← retraces.walkBack (Nat.le_max_left found.length l.length) [],
      trace.walkBack _ (Nat.le_max_right ..)]
  rw [List.append_nil, List.append_nil] at same
  exact same ▸ retraces

end Labels

namespace Network

open Labels

variable {n : Network} {source p : PointId} {target : Option PointId}

theorem known_of_reaches {method : SearchMethod}
    (reached : (n.search method source target).reaches p = true) :
    source.index < n.pointCount := by
  by_contra unknown
  have initial : n.search method source target = initial n source := by
    cases method with
    | dijkstra => exact dijkstra_of_unknown unknown target
    | bellmanFord => exact bellmanFord_of_unknown unknown
  rw [initial, reaches_iff, costTo_initial_of_unknown unknown] at reached
  exact Nat.lt_irrefl _ reached

theorem costTo_tree_le (sound : n.Sound) (known : source.index < n.pointCount)
    (method : SearchMethod) {a : Arc} (tree : TreeArc n (n.search method source target) a) :
    ((n.search method source target).costTo a.target).amount ≤
      ((n.search method source target).costTo a.source).amount + a.cost.amount := by
  cases method with
  | dijkstra =>
    obtain ⟨order, inv, -⟩ := dijkstra_settling sound known target
    exact inv.relaxed a (inv.tree a tree)
  | bellmanFord =>
    have tight := tight_bellmanFord sound source a tree.mem_arcs
    rw [Cost.le_def, Cost.amount_add] at tight
    exact Nat.le_trans tight (Nat.min_le_left ..)

/-- Whatever point a search reached, and if it stopped before the point's cost was final: the walk
    back from the point ends, and finds a way from the source that visits no point twice and costs
    exactly what is said. The same goes for a search that settles points from a queue. -/
theorem retraces_search (scope : NetworkScope) (plant : Plant) (source : PointId)
    (target : Option PointId) (s : Labels)
    (found : (∃ method, s = (build scope plant).search method source target) ∨
      s = (build scope plant).dijkstraQueued source target)
    (p : PointId) (reached : s.reaches p = true) :
    let n := build scope plant
    ∃ places l, s.Retraces n p places ∧ s.arcsTo? n p = some places ∧
      places.map (n.arcs[·]?) = l.map some ∧ Walk (· ∈ n.arcs) source l p ∧
      (source :: l.map (·.target)).Nodup ∧ (places = [] ↔ p = source) ∧
      driveCost l = (s.costTo p).amount := by
  intro n
  have sound : n.Sound := sound_build
  obtain ⟨method, cost, via⟩ : ∃ method,
      (∀ q, s.costTo q = (n.search method source target).costTo q) ∧
        ∀ q, s.via? q = (n.search method source target).via? q := by
    rcases found with ⟨method, rfl⟩ | rfl
    · exact ⟨method, fun _ => rfl, fun _ => rfl⟩
    · exact ⟨.dijkstra, dijkstraQueued_eq sound source target⟩
  have reached' : (n.search method source target).reaches p = true := by
    rw [reaches, cost] at reached
    exact reached
  have known := known_of_reaches reached'
  have growing := growing_search sound known method target
  obtain ⟨rank, rooted⟩ := growing.rooted
  obtain ⟨places, l, -, trace⟩ := rooted.arcsTo? sound known reached'
  have retraces : s.Retraces n p places :=
    (trace.retraces growing known reached').congr via
  have named : places.length = l.length := by
    have lengths := congrArg List.length trace.named
    rwa [List.length_map, List.length_map] at lengths
  have short : places.length ≤ n.pointCount := by
    rw [named]
    exact Nat.le_of_lt (trace.length_lt sound known)
  refine ⟨places, l, retraces, retraces.arcsTo? reached short, trace.named,
    trace.walk.mono fun a tree => tree.mem_arcs, trace.nodup, ⟨?_, ?_⟩, ?_⟩
  · rintro rfl
    have none : l = [] := List.eq_nil_of_length_eq_zero named.symm
    subst none
    exact trace.walk.of_nil.symm
  · rintro rfl
    cases retraces with
    | stop => rfl
    | back _ reached _ _ =>
      rw [via, growing.root] at reached
      cases reached
  · rw [cost]
    exact trace.cost_eq rooted fun a tree => costTo_tree_le sound known method tree

def shuttle : Plant where
  layout := {
    points := [{ name := "A", position := ⟨0, 0⟩ }, { name := "B", position := ⟨1000, 0⟩ },
      { name := "C", position := ⟨2000, 0⟩ }]
    paths := [
      { name := "A<->B", source := ⟨0⟩, destination := ⟨1⟩, length := 0, backwardVelocity := 1000 },
      { name := "A-->C", source := ⟨0⟩, destination := ⟨2⟩, length := 5000 },
      { name := "B-->C", source := ⟨1⟩, destination := ⟨2⟩, length := 1000 }] }
  sound := by decide
  incidence := [[⟨0⟩, ⟨1⟩], [⟨0⟩, ⟨2⟩], [⟨1⟩, ⟨2⟩]]
  incidence_eq := by decide
  memberships := ∅
  memberships_eq := by decide

def shuttleScope : NetworkScope where
  group := ""
  vehicle := { id := ⟨0⟩, name := "AGV" }
  weighing := Measure.distance.weigh

theorem retraces_search_shuttle :
    let n := build shuttleScope shuttle
    let s := n.search .dijkstra ⟨0⟩ (some ⟨1⟩)
    s.reaches ⟨2⟩ = true ∧ s.costTo ⟨2⟩ = 5000 ∧ (n.search .dijkstra ⟨0⟩ none).costTo ⟨2⟩ = 1000 ∧
      ∃ places l, s.Retraces n ⟨2⟩ places ∧ s.arcsTo? n ⟨2⟩ = some places ∧
        places.map (n.arcs[·]?) = l.map some ∧ Walk (· ∈ n.arcs) ⟨0⟩ l ⟨2⟩ ∧
        (⟨0⟩ :: l.map (·.target)).Nodup ∧ (places = [] ↔ (⟨2⟩ : PointId) = ⟨0⟩) ∧
        driveCost l = (s.costTo ⟨2⟩).amount :=
  ⟨by decide_cbv, by decide_cbv, by decide_cbv,
    retraces_search shuttleScope shuttle ⟨0⟩ (some ⟨1⟩) _ (.inl ⟨.dijkstra, rfl⟩) ⟨2⟩
      (by decide_cbv)⟩

end Network

end TrafficControl
