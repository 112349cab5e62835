import TrafficControl.Proofs.Route.Arcs
import TrafficControl.Route.Labels

namespace TrafficControl

theorem Network.length_le_of_nodup {n : Network} {points : List PointId} (nodup : points.Nodup)
    (known : ∀ p ∈ points, p.index < n.pointCount) : points.length ≤ n.pointCount := by
  have inside : points ⊆ (List.range n.pointCount).map Ident.mk := by
    intro p member
    exact List.mem_map.mpr ⟨p.index, List.mem_range.mpr (known p member), rfl⟩
  have bound := nodup.length_le_of_subset inside
  rwa [List.length_map, List.length_range] at bound

namespace Labels

variable {n : Network} {source : PointId} {rank : PointId → Nat} {s : Labels}

theorem reaches_iff {p : PointId} : s.reaches p = true ↔ (s.costTo p).amount < Cost.limit := by
  rw [reaches, decide_eq_true_eq, Cost.ne_infinite_iff]

theorem costTo_of_not_reaches {p : PointId} (h : ¬ s.reaches p = true) :
    (s.costTo p).amount = Cost.limit := by
  have bound := (s.costTo p).amount_le
  rw [reaches_iff] at h
  simp only [Cost.limit] at h ⊢
  omega

def TreeArc (n : Network) (s : Labels) (a : Arc) : Prop :=
  s.reaches a.target = true ∧ ∃ place, s.via? a.target = some place ∧ n.arcs[place]? = some a

theorem TreeArc.mem_arcs {a : Arc} (tree : TreeArc n s a) : a ∈ n.arcs := by
  obtain ⟨-, place, -, here⟩ := tree
  exact List.mem_of_getElem? here

/-- Every point that was reached leads back to the source, rank by rank, and costs no less than the
    arcs on the way. -/
structure Rooted (n : Network) (source : PointId) (rank : PointId → Nat) (s : Labels) : Prop where
  start : s.costTo source = 0
  root : s.via? source = none
  back : ∀ p, p ≠ source → s.reaches p = true → ∃ place a, s.via? p = some place ∧
    n.arcs[place]? = some a ∧ a.target = p ∧ rank a.source < rank p ∧
      (s.costTo a.source).amount + a.cost.amount ≤ (s.costTo p).amount

structure Trace (n : Network) (source : PointId) (rank : PointId → Nat) (s : Labels) (p : PointId)
    (places : List Nat) (l : List Arc) : Prop where
  named : places.map (n.arcs[·]?) = l.map some
  walk : Walk (TreeArc n s) source l p
  cost : driveCost l ≤ (s.costTo p).amount
  ranks : (source :: l.map (·.target)).Pairwise (rank · < rank ·)
  below : ∀ q ∈ source :: l.map (·.target), rank q ≤ rank p
  walkBack : ∀ fuel, l.length ≤ fuel → ∀ rest, s.walkBack n.arcs fuel p rest = places ++ rest

theorem Rooted.trace_source (rooted : s.Rooted n source rank) :
    Trace n source rank s source [] [] where
  named := rfl
  walk := .stay source
  cost := Nat.zero_le _
  ranks := List.pairwise_singleton _ _
  below q member := by
    have same := List.mem_singleton.mp member
    exact same ▸ Nat.le_refl _
  walkBack fuel _ rest := by
    cases fuel with
    | zero => rfl
    | succ fuel => simp only [Labels.walkBack, rooted.root, List.nil_append]

theorem Trace.concat {p : PointId} {places : List Nat} {l : List Arc} {place : Nat} {a : Arc}
    (trace : Trace n source rank s a.source places l) (reached : s.reaches p = true)
    (via : s.via? p = some place)
    (arc : n.arcs[place]? = some a) (target : a.target = p) (rise : rank a.source < rank p)
    (cost : (s.costTo a.source).amount + a.cost.amount ≤ (s.costTo p).amount) :
    Trace n source rank s p (places ++ [place]) (l ++ [a]) where
  named := by
    rw [List.map_append, List.map_append, trace.named, List.map_singleton, List.map_singleton, arc]
  walk := by
    subst target
    exact trace.walk.concat ⟨reached, place, via, arc⟩ rfl
  cost := by
    have before := trace.cost
    rw [driveCost_concat]
    omega
  ranks := by
    rw [List.map_append, List.map_singleton, target, ← List.cons_append, List.pairwise_append]
    refine ⟨trace.ranks, List.pairwise_singleton _ _, ?_⟩
    intro q earlier q' last
    have low := trace.below q earlier
    rw [List.mem_singleton.mp last]
    omega
  below q member := by
    rw [List.map_append, List.map_singleton, target, ← List.cons_append, List.mem_append] at member
    rcases member with earlier | last
    · have low := trace.below q earlier
      omega
    · have same := List.mem_singleton.mp last
      exact same ▸ Nat.le_refl _
  walkBack fuel enough rest := by
    rw [List.length_append, List.length_singleton] at enough
    cases fuel with
    | zero => omega
    | succ fuel =>
      simp only [Labels.walkBack, via, arc]
      rw [trace.walkBack fuel (by omega), List.append_assoc]
      rfl

theorem Rooted.trace (rooted : s.Rooted n source rank) {p : PointId} (reached : s.reaches p = true) :
    ∃ places l, Trace n source rank s p places l := by
  induction level : rank p using Nat.strongRecOn generalizing p with
  | ind level ih =>
    by_cases start : p = source
    · subst start
      exact ⟨[], [], rooted.trace_source⟩
    · obtain ⟨place, a, via, arc, target, rise, cost⟩ := rooted.back p start reached
      have before : s.reaches a.source = true := by
        rw [reaches_iff] at reached ⊢
        omega
      obtain ⟨places, l, trace⟩ := ih (rank a.source) (by omega) before rfl
      exact ⟨places ++ [place], l ++ [a], trace.concat reached via arc target rise cost⟩

section Trace

variable {p : PointId} {places : List Nat} {l : List Arc}

theorem Trace.nodup (trace : Trace n source rank s p places l) :
    (source :: l.map (·.target)).Nodup := by
  refine trace.ranks.imp fun {q r} rise => ?_
  intro same
  subst same
  exact Nat.lt_irrefl _ rise

theorem Trace.length_lt (trace : Trace n source rank s p places l) (sound : n.Sound)
    (known : source.index < n.pointCount) : l.length < n.pointCount := by
  have bound := Network.length_le_of_nodup (n := n) trace.nodup (by
    intro q member
    rcases List.mem_cons.mp member with first | member
    · rw [first]
      exact known
    · obtain ⟨a, driven, rfl⟩ := List.mem_map.mp member
      exact sound.ends a (trace.walk.mem driven).mem_arcs)
  rw [List.length_cons, List.length_map] at bound
  omega

theorem Rooted.arcsTo? (rooted : s.Rooted n source rank) (sound : n.Sound)
    (known : source.index < n.pointCount) (reached : s.reaches p = true) :
    ∃ places l, s.arcsTo? n p = some places ∧ Trace n source rank s p places l := by
  obtain ⟨places, l, trace⟩ := rooted.trace reached
  have short := trace.length_lt sound known
  refine ⟨places, l, ?_, trace⟩
  rw [Labels.arcsTo?, if_pos reached, trace.walkBack n.pointCount (by omega), List.append_nil]

theorem Trace.arcs (trace : Trace n source rank s p places l) :
    places.filterMap (n.arcs[·]?) = l := by
  have mapped : places.filterMap (n.arcs[·]?) = (places.map (n.arcs[·]?)).filterMap id := by
    rw [List.filterMap_map]
    rfl
  rw [mapped, trace.named, List.filterMap_map]
  exact List.filterMap_some

/-- When no arc of the tree leads to a point more cheaply than its label says, the way to a point
    costs exactly what its label says. -/
theorem Trace.cost_eq (trace : Trace n source rank s p places l) (rooted : s.Rooted n source rank)
    (tight : ∀ a, TreeArc n s a →
      (s.costTo a.target).amount ≤ (s.costTo a.source).amount + a.cost.amount) :
    driveCost l = (s.costTo p).amount := by
  have low := trace.cost
  have high := trace.walk.potential (fun q => (s.costTo q).amount) tight
  rw [rooted.start, Cost.amount_zero] at high
  omega

end Trace

end Labels

end TrafficControl
