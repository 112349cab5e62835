import TrafficControl.Proofs.Route.Queueing
import TrafficControl.Proofs.Route.Reaching

namespace TrafficControl

namespace Labels

variable {n : Network} {s : Labels} {cost : Cost} {a : Arc} {place : Nat}

theorem improve_eq_self (worse : s.costTo a.target ≤ cost + a.cost) :
    s.improve cost a place = s := by
  have same : (s.improve cost a place).labels = s.labels := by
    apply List.ext_getElem?
    intro i
    rw [show i = (⟨i⟩ : PointId).index from rfl, label_improve]
    cases found : s.labels[(⟨i⟩ : PointId).index]? with
    | none => rfl
    | some l =>
      rw [Option.map_some, if_neg]
      intro h
      obtain ⟨here, better⟩ := h
      rw [here, costTo_of_label found] at worse
      exact Nat.not_lt_of_le worse better
  exact congrArg (Labels.mk s.source) same

/-- No arc leads to a point more cheaply than its label says. -/
def Tight (n : Network) (s : Labels) : Prop :=
  ∀ a ∈ n.arcs, s.costTo a.target ≤ s.costTo a.source + a.cost

theorem tryAll_eq_self {todo : List (Arc × Nat)}
    (tight : ∀ e ∈ todo, s.costTo e.1.target ≤ s.costTo e.1.source + e.1.cost) :
    s.tryAll todo = s := by
  induction todo with
  | nil => rfl
  | cons e rest ih =>
    obtain ⟨a, place⟩ := e
    rw [tryAll_cons, improve_eq_self (tight (a, place) List.mem_cons_self)]
    exact ih fun e later => tight e (List.mem_cons_of_mem _ later)

theorem Tight.sweep (tight : s.Tight n) : s.sweep n = s := by
  rw [sweep_eq]
  apply tryAll_eq_self
  intro e listed
  exact tight e.1 (List.mem_of_getElem? (List.mk_mem_zipIdx_iff_getElem?.mp listed))

theorem sweepAll_of_stable (stable : s.sweep n = s) (rounds : Nat) : sweepAll n rounds s = s := by
  cases rounds with
  | zero => rfl
  | succ rounds => simp only [sweepAll, stable, if_true]

theorem sweepAll_add (rounds more : Nat) :
    sweepAll n (rounds + more) s = sweepAll n more (sweepAll n rounds s) := by
  induction rounds generalizing s with
  | zero => rw [Nat.zero_add, sweepAll]
  | succ rounds ih =>
    rw [Nat.add_right_comm]
    simp only [sweepAll]
    split
    · rename_i stable
      rw [sweepAll_of_stable stable]
    · exact ih

end Labels

namespace Network

open Labels

variable {n : Network} {source p : PointId}

theorem costTo_search_eq (sound : n.Sound) (known : source.index < n.pointCount)
    (method method' : SearchMethod) {target target' : Option PointId}
    (asked : target = none ∨ target = some p) (asked' : target' = none ∨ target' = some p) :
    (n.search method source target).costTo p = (n.search method' source target').costTo p := by
  have low (method method' : SearchMethod) {target : Option PointId} (target' : Option PointId)
      (asked : target = none ∨ target = some p) :
      ((n.search method source target).costTo p).amount ≤
        ((n.search method' source target').costTo p).amount := by
    by_cases reached : (n.search method' source target').reaches p = true
    · obtain ⟨rank, places, l, -, trace⟩ := arcsTo?_search sound known method' target' reached
      have walk := trace.walk.mono fun a tree => tree.mem_arcs
      exact Nat.le_trans (costTo_search_le sound known method asked walk) trace.cost
    · rw [costTo_of_not_reaches reached]
      exact Cost.amount_le _
  exact Cost.ext (Nat.le_antisymm (low method method' target' asked) (low method' method target asked'))

theorem tight_initial_of_unknown (unknown : ¬ source.index < n.pointCount) :
    (initial n source).Tight n := by
  intro a _
  rw [costTo_initial_of_unknown unknown, costTo_initial_of_unknown unknown, Cost.le_def,
    Cost.amount_add, Cost.amount_infinite]
  omega

theorem bellmanFord_of_unknown (unknown : ¬ source.index < n.pointCount) :
    n.bellmanFord source = initial n source :=
  sweepAll_of_stable (tight_initial_of_unknown unknown).sweep _

theorem tight_bellmanFord (sound : n.Sound) (source : PointId) :
    (n.bellmanFord source).Tight n := by
  by_cases known : source.index < n.pointCount
  · intro a arc
    rw [Cost.le_def, Cost.amount_add]
    by_cases reached : (n.bellmanFord source).reaches a.source = true
    · obtain ⟨rank, places, l, -, trace⟩ :=
        arcsTo?_search sound known .bellmanFord none reached
      have walk := (trace.walk.mono fun a tree => tree.mem_arcs).concat arc rfl
      have low := costTo_bellmanFord_le sound known walk
      have before := trace.cost
      have bound := ((n.bellmanFord source).costTo a.target).amount_le
      rw [driveCost_concat] at low
      simp only [search, Cost.limit] at before ⊢
      omega
    · rw [costTo_of_not_reaches reached, Nat.min_eq_right (Nat.le_add_right _ _)]
      exact Cost.amount_le _
  · rw [bellmanFord_of_unknown known]
    exact tight_initial_of_unknown known

theorem costTo_bellmanFord_eq (sound : n.Sound) (source : PointId) {target : Option PointId}
    (asked : target = none ∨ target = some p) :
    (n.bellmanFord source).costTo p = (n.dijkstra source target).costTo p := by
  by_cases known : source.index < n.pointCount
  · exact costTo_search_eq sound known .bellmanFord .dijkstra (.inl rfl) asked
  · rw [bellmanFord_of_unknown known, dijkstra_of_unknown known]

/-- Both methods find the same costs, also where the search for one point ends when that is next and
    where points are settled from a queue. So many sweeps are enough as there are other points than
    the source, or one if there are none: more sweeps change nothing. -/
theorem searches_agree (scope : NetworkScope) (plant : Plant) (source : PointId) :
    let n := build scope plant
    (∀ p, (n.bellmanFord source).costTo p = (n.dijkstra source none).costTo p) ∧
      (∀ p, (n.bellmanFord source).costTo p = (n.dijkstra source (some p)).costTo p) ∧
      (∀ target p, (n.dijkstraQueued source target).costTo p = (n.dijkstra source target).costTo p) ∧
      (∀ more, sweepAll n (max (n.pointCount - 1) 1 + more) (initial n source) =
        n.bellmanFord source) ∧
      (n.bellmanFord source).sweep n = n.bellmanFord source := by
  intro n
  have sound : n.Sound := sound_build
  have stable : (n.bellmanFord source).sweep n = n.bellmanFord source :=
    (tight_bellmanFord sound source).sweep
  refine ⟨fun p => ?_, fun p => ?_, fun target p => ?_, fun more => ?_, stable⟩
  · exact costTo_bellmanFord_eq sound source (.inl rfl)
  · exact costTo_bellmanFord_eq sound source (.inr rfl)
  · exact (dijkstraQueued_eq sound source target).1 p
  · have rounds : max (n.pointCount - 1) 1 = max n.pointCount 2 - 1 := by omega
    rw [rounds, sweepAll_add]
    exact sweepAll_of_stable stable more

end Network

end TrafficControl
