import TrafficControl.Proofs.Route.Settling

namespace TrafficControl

namespace Labels

variable {n : Network} {source x p : PointId} {s : Labels} {cost : Cost} {a : Arc} {place : Nat}
  {order : List PointId} {tried : Arc → Prop}

/-- The points of `order` are settled. No point outside is cheaper than they are, no arc that was
    tried leads to a point more cheaply than its label says, and points were reached by such arcs. -/
structure Settling (n : Network) (source : PointId) (order : List PointId) (tried : Arc → Prop)
    (s : Labels) : Prop where
  growing : s.Growing n source
  flags : ∀ p, s.isSettled p = true ↔ p ∈ order
  nodup : order.Nodup
  below : ∀ p ∈ order, ∀ q, q ∉ order → s.costTo p ≤ s.costTo q
  leaves : ∀ a, tried a → a.source ∈ order
  relaxed : ∀ a, tried a → (s.costTo a.target).amount ≤ (s.costTo a.source).amount + a.cost.amount
  tree : ∀ a, TreeArc n s a → tried a

theorem not_better (low : s.costTo p ≤ cost) : ¬ (a.target = p ∧ cost + a.cost < s.costTo p) := by
  intro h
  obtain ⟨-, better⟩ := h
  have bound := cost.amount_le
  simp only [Cost.lt_def, Cost.le_def, Cost.amount_add, Cost.limit] at better low
  omega

namespace Settling

theorem costTo_improve_of_mem (inside : a.target.index < s.labels.length)
    (top : ∀ p ∈ order, s.costTo p ≤ cost) (settled : p ∈ order) :
    (s.improve cost a place).costTo p = s.costTo p := by
  rw [costTo_improve inside, if_neg (not_better (top p settled))]

theorem tree_improve (inv : Settling n source order tried s)
    (inside : a.target.index < s.labels.length) (arc : n.arcs[place]? = some a) {b : Arc}
    (tree : TreeArc n (s.improve cost a place) b) : tried b ∨ b = a := by
  obtain ⟨reached, place', via, arc'⟩ := tree
  rw [via?_improve inside] at via
  split at via
  · cases via
    rw [arc] at arc'
    exact .inr (Option.some.inj arc').symm
  · rename_i other
    rw [reaches, costTo_improve inside, if_neg other, ← reaches] at reached
    exact .inl (inv.tree b ⟨reached, place', via, arc'⟩)

theorem improve (inv : Settling n source order tried s)
    (inside : a.target.index < s.labels.length) (arc : n.arcs[place]? = some a)
    (member : a.source ∈ order) (exact' : s.costTo a.source = cost)
    (top : ∀ p ∈ order, s.costTo p ≤ cost) :
    Settling n source order (fun b => tried b ∨ b = a) (s.improve cost a place) where
  growing := inv.growing.improve inside arc exact'
  flags p := by rw [isSettled_improve, inv.flags]
  nodup := inv.nodup
  below p settled q open' := by
    rw [costTo_improve_of_mem inside top settled, costTo_improve inside]
    split
    · have low := top p settled
      have bound := (s.costTo p).amount_le
      simp only [Cost.le_def, Cost.amount_add, Cost.limit] at low ⊢
      omega
    · exact inv.below p settled q open'
  leaves b h := by
    rcases h with before | rfl
    · exact inv.leaves b before
    · exact member
  relaxed b h := by
    rcases h with before | rfl
    · rw [costTo_improve_of_mem inside top (inv.leaves b before)]
      exact Nat.le_trans (costTo_improve_le inside) (inv.relaxed b before)
    · rw [costTo_improve_of_mem inside top member, exact', costTo_improve inside]
      split
      · rw [Cost.amount_add]
        exact Nat.min_le_left _ _
      · rename_i worse
        have far : ¬ cost + b.cost < s.costTo b.target := fun better => worse ⟨rfl, better⟩
        simp only [Cost.lt_def, Cost.amount_add] at far
        omega
  tree b := inv.tree_improve inside arc

theorem improveAll (inv : Settling n source order tried s) (sound : n.Sound)
    {todo : List (Arc × Nat)} (leaving : ∀ e ∈ todo, n.arcs[e.2]? = some e.1 ∧ e.1.source = x)
    (member : x ∈ order) (exact' : s.costTo x = cost) (top : ∀ p ∈ order, s.costTo p ≤ cost) :
    Settling n source order (fun b => tried b ∨ ∃ place, (b, place) ∈ todo)
      (todo.foldl (fun s (arc, place) => s.improve cost arc place) s) := by
  induction todo generalizing s tried with
  | nil =>
    have same : (fun b => tried b ∨ ∃ place, (b, place) ∈ ([] : List (Arc × Nat))) = tried := by
      funext b
      simp
    rw [same]
    exact inv
  | cons e rest ih =>
    obtain ⟨a, place⟩ := e
    obtain ⟨arc, start⟩ := leaving (a, place) List.mem_cons_self
    have inside : a.target.index < s.labels.length := by
      rw [inv.growing.size]
      exact sound.ends a (List.mem_of_getElem? arc)
    have next := inv.improve inside arc (start ▸ member) (start ▸ exact') top
    have kept : ∀ p, p ∈ order → (s.improve cost a place).costTo p = s.costTo p :=
      fun p settled => costTo_improve_of_mem inside top settled
    have all := ih next (fun e later => leaving e (List.mem_cons_of_mem _ later))
      ((kept x member).trans exact') fun p settled => (kept p settled).symm ▸ top p settled
    have same : (fun b => (tried b ∨ b = a) ∨ ∃ place, (b, place) ∈ rest) =
        fun b => tried b ∨ ∃ place', (b, place') ∈ (a, place) :: rest := by
      funext b
      simp only [List.mem_cons, Prod.mk.injEq, exists_or, exists_and_left, exists_eq, and_true,
        or_assoc]
    rw [List.foldl_cons, ← same]
    exact all

theorem mark (inv : Settling n source order tried s) (inside : x.index < s.labels.length)
    (fresh : x ∉ order) (least : ∀ p, p ∉ order → s.costTo x ≤ s.costTo p) :
    Settling n source (order ++ [x]) tried (s.mark x) where
  growing := inv.growing.congr (List.length_modify ..) (fun p => costTo_mark) fun p => via?_mark
  flags p := by
    rw [isSettled_mark inside, inv.flags, List.mem_append, List.mem_singleton, or_comm]
  nodup := by
    rw [List.nodup_append]
    refine ⟨inv.nodup, List.pairwise_singleton _ x, ?_⟩
    intro p old q new
    rw [List.mem_singleton.mp new]
    exact fun same => fresh (same ▸ old)
  below p settled q open' := by
    rw [costTo_mark, costTo_mark]
    have unsettled : q ∉ order := fun old => open' (List.mem_append_left _ old)
    rcases List.mem_append.mp settled with old | new
    · exact inv.below p old q unsettled
    · rw [List.mem_singleton.mp new]
      exact least q unsettled
  leaves a before := List.mem_append_left _ (inv.leaves a before)
  relaxed a before := by
    rw [costTo_mark, costTo_mark]
    exact inv.relaxed a before
  tree a tree := by
    obtain ⟨reached, place, via, arc⟩ := tree
    rw [reaches, costTo_mark, ← reaches] at reached
    rw [via?_mark] at via
    exact inv.tree a ⟨reached, place, via, arc⟩

end Settling

def Leaving (n : Network) (order : List PointId) (a : Arc) : Prop :=
  a ∈ n.arcs ∧ a.source ∈ order

theorem leaving_concat (sound : n.Sound) :
    (fun b => Leaving n order b ∨ ∃ place, (b, place) ∈ n.outArcs x) =
      Leaving n (order ++ [x]) := by
  funext b
  apply propext
  simp only [Leaving, List.mem_append, List.mem_singleton, Network.mem_outArcs sound]
  constructor
  · intro h
    rcases h with ⟨listed, old⟩ | ⟨place, here, start⟩
    · exact ⟨listed, .inl old⟩
    · exact ⟨List.mem_of_getElem? here, .inr start⟩
  · intro h
    obtain ⟨listed, old | start⟩ := h
    · exact .inl ⟨listed, old⟩
    · obtain ⟨place, here⟩ := List.mem_iff_getElem?.mp listed
      exact .inr ⟨place, here, start⟩

namespace Settling

theorem settle (inv : Settling n source order (Leaving n order) s) (sound : n.Sound)
    (h : s.nearest? = some (x, cost)) :
    Settling n source (order ++ [x]) (Leaving n (order ++ [x])) (s.settle n x cost) := by
  obtain ⟨inside, unsettled, exact', -, least⟩ := nearest?_some h
  have open' : ∀ p, p ∉ order → s.isSettled p = false := by
    intro p fresh
    rw [← inv.flags, Bool.not_eq_true] at fresh
    exact fresh
  have fresh : x ∉ order := by
    rw [← inv.flags, unsettled]
    exact Bool.false_ne_true
  have marked := inv.mark inside fresh fun p other => exact' ▸ least p (open' p other)
  have last : x ∈ order ++ [x] := List.mem_append_right _ List.mem_cons_self
  have top : ∀ p ∈ order ++ [x], (s.mark x).costTo p ≤ cost := by
    intro p settled
    rw [costTo_mark]
    rcases List.mem_append.mp settled with old | new
    · exact exact' ▸ inv.below p old x fresh
    · rw [List.mem_singleton.mp new, exact']
      exact Nat.le_refl _
  rw [← leaving_concat sound]
  refine marked.improveAll sound ?_ last (costTo_mark.trans exact') top
  intro e listed
  exact (Network.mem_outArcs sound).mp listed

theorem index_lt (inv : Settling n source order tried s) (settled : p ∈ order) :
    p.index < n.pointCount := by
  rw [← inv.growing.size]
  exact lt_of_isSettled ((inv.flags p).mpr settled)

theorem costTo_of_full (inv : Settling n source order tried s) (full : n.pointCount ≤ order.length)
    (open' : p ∉ order) : s.costTo p = .infinite := by
  have outside : ¬ p.index < n.pointCount := by
    intro known
    have nodup : (p :: order).Nodup := List.nodup_cons.mpr ⟨open', inv.nodup⟩
    have bound := Network.length_le_of_nodup (n := n) nodup (by
      intro q member
      rcases List.mem_cons.mp member with rfl | settled
      · exact known
      · exact inv.index_lt settled)
    rw [List.length_cons] at bound
    omega
  have missing : s.labels[p.index]? = none := by
    rw [List.getElem?_eq_none_iff, inv.growing.size]
    omega
  rw [costTo, missing]

end Settling

/-- The label of the point cannot improve any more: settled points are below some cost, the others
    above it, and the point is not above it. -/
def Final (s : Labels) (order : List PointId) (p : PointId) : Prop :=
  ∃ bound : Cost, (∀ q ∈ order, s.costTo q ≤ bound) ∧ (∀ q, q ∉ order → bound ≤ s.costTo q) ∧
    s.costTo p ≤ bound

theorem final_of_done (done : ∀ q, q ∉ order → s.costTo q = .infinite) (p : PointId) :
    s.Final order p :=
  ⟨.infinite, fun _ _ => Cost.le_infinite _, fun q open' => done q open' ▸ Nat.le_refl _,
    Cost.le_infinite _⟩

namespace Settling

theorem settleAll (inv : Settling n source order (Leaving n order) s) (sound : n.Sound)
    (target : Option PointId) {fuel : Nat} (enough : n.pointCount ≤ order.length + fuel) :
    ∃ order', Settling n source order' (Leaving n order') (settleAll n target fuel s) ∧
      ∀ p, target = none ∨ target = some p → (Labels.settleAll n target fuel s).Final order' p := by
  induction fuel generalizing s order with
  | zero =>
    exact ⟨order, inv, fun p _ => final_of_done (fun q open' => inv.costTo_of_full enough open') p⟩
  | succ fuel ih =>
    have open' : ∀ q, q ∉ order → s.isSettled q = false := by
      intro q fresh
      rw [← inv.flags, Bool.not_eq_true] at fresh
      exact fresh
    simp only [Labels.settleAll]
    split
    · rename_i none
      refine ⟨order, inv, fun p _ => final_of_done (fun q fresh => ?_) p⟩
      exact nearest?_none none (open' q fresh)
    · rename_i x cost next
      split
      · rename_i found
        refine ⟨order, inv, fun p asked => ?_⟩
        obtain ⟨-, unsettled, exact', -, least⟩ := nearest?_some next
        have fresh : x ∉ order := by
          rw [← inv.flags, unsettled]
          exact Bool.false_ne_true
        have same : p = x := by
          rcases asked with none | some'
          · rw [found] at none
            cases none
          · rw [found] at some'
            exact (Option.some.inj some').symm
        refine ⟨cost, fun q settled => exact' ▸ inv.below q settled x fresh,
          fun q other => least q (open' q other), ?_⟩
        rw [same, exact']
        exact Nat.le_refl _
      · have longer : n.pointCount ≤ (order ++ [x]).length + fuel := by
          rw [List.length_append, List.length_singleton]
          omega
        exact ih (inv.settle sound next) longer

/-- A final label is a lower bound for every walk: cut off at the bound it is a potential. -/
theorem costTo_le_driveCost (inv : Settling n source order (Leaving n order) s)
    (final : s.Final order p) {l : List Arc} (walk : Walk (· ∈ n.arcs) source l p) :
    (s.costTo p).amount ≤ driveCost l := by
  obtain ⟨bound, low, high, reached⟩ := final
  have feasible : ∀ a, a ∈ n.arcs → min (s.costTo a.target).amount bound.amount ≤
      min (s.costTo a.source).amount bound.amount + a.cost.amount := by
    intro a listed
    by_cases settled : a.source ∈ order
    · have step := inv.relaxed a ⟨listed, settled⟩
      have under := low a.source settled
      simp only [Cost.le_def] at under
      omega
    · have above := high a.source settled
      simp only [Cost.le_def] at above
      omega
  have lifted := walk.potential (fun q => min (s.costTo q).amount bound.amount) feasible
  rw [inv.growing.start, Cost.amount_zero] at lifted
  simp only [Cost.le_def] at reached
  omega

end Settling

end Labels

namespace Network

open Labels

variable {n : Network} {source p : PointId}

theorem isSettled_initial : (initial n source).isSettled p = false := by
  rw [isSettled, label_initial]
  split <;> rfl

theorem settling_initial (known : source.index < n.pointCount) :
    Settling n source [] (Leaving n []) (initial n source) where
  growing := growing_initial known
  flags p := by simp [isSettled_initial]
  nodup := List.nodup_nil
  below p none := absurd none List.not_mem_nil
  leaves a h := h.2
  relaxed a h := absurd h.2 List.not_mem_nil
  tree a tree := by
    obtain ⟨-, place, via, -⟩ := tree
    rw [via?_initial] at via
    cases via

theorem dijkstra_settling (sound : n.Sound) (known : source.index < n.pointCount)
    (target : Option PointId) :
    ∃ order, Settling n source order (Leaving n order) (n.dijkstra source target) ∧
      ∀ p, target = none ∨ target = some p → (n.dijkstra source target).Final order p :=
  (settling_initial known).settleAll sound target (by simp)

theorem costTo_dijkstra_le (sound : n.Sound) (known : source.index < n.pointCount)
    {target : Option PointId} (asked : target = none ∨ target = some p) {l : List Arc}
    (walk : Walk (· ∈ n.arcs) source l p) :
    ((n.dijkstra source target).costTo p).amount ≤ driveCost l := by
  obtain ⟨order, inv, final⟩ := dijkstra_settling sound known target
  exact inv.costTo_le_driveCost (final p asked) walk

theorem arcsTo?_dijkstra (sound : n.Sound) (known : source.index < n.pointCount)
    (target : Option PointId) (reached : (n.dijkstra source target).reaches p = true) :
    ∃ rank places l, (n.dijkstra source target).arcsTo? n p = some places ∧
      Trace n source rank (n.dijkstra source target) p places l ∧
      driveCost l = ((n.dijkstra source target).costTo p).amount := by
  obtain ⟨order, inv, -⟩ := dijkstra_settling sound known target
  obtain ⟨rank, rooted⟩ := inv.growing.rooted
  obtain ⟨places, l, found, trace⟩ := rooted.arcsTo? sound known reached
  exact ⟨rank, places, l, found, trace,
    trace.cost_eq rooted fun a tree => inv.relaxed a (inv.tree a tree)⟩

end Network

end TrafficControl
