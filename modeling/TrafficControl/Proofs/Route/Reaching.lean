import TrafficControl.Proofs.Route.Sweeping

namespace TrafficControl

namespace Walk

variable {ok : Arc → Prop} {s d : PointId} {l : List Arc} {a : Arc}

theorem of_nil (walk : Walk ok s [] d) : s = d := by
  cases walk
  rfl

theorem of_cons (walk : Walk ok s (a :: l) d) : ok a ∧ a.source = s ∧ Walk ok a.target l d := by
  cases walk with
  | drive allowed rest => exact ⟨allowed, rfl, rest⟩

theorem of_concat (walk : Walk ok s (l ++ [a]) d) : Walk ok s l a.source ∧ ok a ∧ a.target = d := by
  induction l generalizing s with
  | nil =>
    obtain ⟨allowed, rfl, rest⟩ := walk.of_cons
    exact ⟨.stay _, allowed, rest.of_nil⟩
  | cons b l ih =>
    obtain ⟨allowed, rfl, rest⟩ := walk.of_cons
    obtain ⟨before, last⟩ := ih rest
    exact ⟨.drive allowed before, last⟩

end Walk

namespace Labels

variable {n : Network} {source p : PointId} {s : Labels} {todo : List (Arc × Nat)}

theorem costTo_improve_target {cost : Cost} {a : Arc} {place : Nat}
    (inside : a.target.index < s.labels.length) :
    ((s.improve cost a place).costTo a.target).amount ≤ cost.amount + a.cost.amount := by
  rw [costTo_improve inside]
  split
  · rw [Cost.amount_add]
    exact Nat.min_le_left _ _
  · rename_i worse
    simp only [true_and, Cost.lt_def, Cost.amount_add, Cost.limit] at worse
    have bound := (s.costTo a.target).amount_le
    omega

def tryAll (s : Labels) (todo : List (Arc × Nat)) : Labels :=
  todo.foldl (fun s (arc, place) => s.improve (s.costTo arc.source) arc place) s

theorem tryAll_cons {a : Arc} {place : Nat} :
    s.tryAll ((a, place) :: todo) = (s.improve (s.costTo a.source) a place).tryAll todo := rfl

theorem costTo_tryAll_le (inside : ∀ e ∈ todo, e.1.target.index < s.labels.length) :
    (s.tryAll todo).costTo p ≤ s.costTo p := by
  induction todo generalizing s with
  | nil => exact Nat.le_refl _
  | cons e rest ih =>
    obtain ⟨a, place⟩ := e
    rw [tryAll_cons]
    refine Nat.le_trans (ih fun e later => ?_) (costTo_improve_le (inside _ List.mem_cons_self))
    rw [length_improve]
    exact inside e (List.mem_cons_of_mem _ later)

theorem costTo_tryAll_target (inside : ∀ e ∈ todo, e.1.target.index < s.labels.length) {a : Arc}
    {place : Nat} (tried : (a, place) ∈ todo) :
    ((s.tryAll todo).costTo a.target).amount ≤ (s.costTo a.source).amount + a.cost.amount := by
  induction todo generalizing s with
  | nil => cases tried
  | cons e rest ih =>
    obtain ⟨b, place'⟩ := e
    rw [tryAll_cons]
    have first := inside (b, place') List.mem_cons_self
    have later : ∀ e ∈ rest, e.1.target.index <
        (s.improve (s.costTo b.source) b place').labels.length := by
      intro e member
      rw [length_improve]
      exact inside e (List.mem_cons_of_mem _ member)
    rcases List.mem_cons.mp tried with here | there
    · cases here
      have falls := costTo_tryAll_le later (p := a.target)
      exact Nat.le_trans falls (costTo_improve_target first)
    · have falls : (s.improve (s.costTo b.source) b place').costTo a.source ≤ s.costTo a.source :=
        costTo_improve_le first
      exact Nat.le_trans (ih later there) (Nat.add_le_add_right falls _)

/-- No walk of so many arcs from the source costs less than its end is said to. -/
def Covers (n : Network) (source : PointId) (s : Labels) (k : Nat) : Prop :=
  ∀ p l, Walk (· ∈ n.arcs) source l p → l.length ≤ k → (s.costTo p).amount ≤ driveCost l

theorem sweep_eq : s.sweep n = s.tryAll n.arcs.zipIdx := rfl

theorem Growing.inside (sound : n.Sound) (growing : Growing n source s) :
    ∀ e ∈ n.arcs.zipIdx, e.1.target.index < s.labels.length := by
  intro e listed
  rw [growing.size]
  exact sound.ends e.1 (List.mem_of_getElem? (List.mk_mem_zipIdx_iff_getElem?.mp listed))

theorem costTo_sweep_target (sound : n.Sound) (growing : Growing n source s) {a : Arc}
    (arc : a ∈ n.arcs) :
    ((s.sweep n).costTo a.target).amount ≤ (s.costTo a.source).amount + a.cost.amount := by
  obtain ⟨place, here⟩ := List.mem_iff_getElem?.mp arc
  rw [sweep_eq]
  exact costTo_tryAll_target (growing.inside sound) (List.mk_mem_zipIdx_iff_getElem?.mpr here)

theorem Covers.sweep (sound : n.Sound) (growing : Growing n source s) {k : Nat}
    (covers : Covers n source s k) : Covers n source (s.sweep n) (k + 1) := by
  intro p l walk short
  rcases List.eq_nil_or_concat l with rfl | ⟨before, a, rfl⟩
  · have falls : (s.sweep n).costTo p ≤ s.costTo p := by
      rw [sweep_eq]
      exact costTo_tryAll_le (growing.inside sound)
    exact Nat.le_trans falls (covers p [] walk (Nat.zero_le _))
  · rw [List.concat_eq_append] at walk short ⊢
    obtain ⟨front, arc, rfl⟩ := walk.of_concat
    rw [List.length_append, List.length_singleton] at short
    have low := covers a.source before front (by omega)
    have last := costTo_sweep_target sound growing arc
    rw [driveCost_concat]
    omega

theorem covers_of_stable (sound : n.Sound) (growing : Growing n source s) (stable : s.sweep n = s)
    (k : Nat) : Covers n source s k := by
  intro p l walk _
  have bound := walk.potential (fun q => (s.costTo q).amount) fun a arc => by
    have last := costTo_sweep_target sound growing arc
    rwa [stable] at last
  rwa [growing.start, Cost.amount_zero, Nat.zero_add] at bound

theorem Covers.sweepAll (sound : n.Sound) (growing : Growing n source s) {k : Nat}
    (covers : Covers n source s k) (rounds : Nat) :
    Covers n source (sweepAll n rounds s) (k + rounds) := by
  induction rounds generalizing s k with
  | zero => exact covers
  | succ rounds ih =>
    simp only [Labels.sweepAll]
    split
    · rename_i stable
      exact covers_of_stable sound growing stable _
    · rw [show k + (rounds + 1) = k + 1 + rounds by omega]
      exact ih (growing_sweep sound growing) (covers.sweep sound growing)

theorem covers_initial (known : source.index < n.pointCount) :
    Covers n source (initial n source) 0 := by
  intro p l walk short
  cases List.eq_nil_of_length_eq_zero (Nat.le_zero.mp short)
  rw [← walk.of_nil, costTo_initial known, if_pos rfl]
  exact Nat.zero_le _

end Labels

namespace Network

variable {n : Network} {source p : PointId}

/-- Whatever walk there is, one with fewer arcs than there are points costs no more. -/
theorem short_walk (sound : n.Sound) (known : source.index < n.pointCount) {l : List Arc}
    (walk : Walk (· ∈ n.arcs) source l p) (finite : driveCost l < Cost.limit) :
    ∃ l', Walk (· ∈ n.arcs) source l' p ∧ l'.length < n.pointCount ∧ driveCost l' ≤ driveCost l := by
  have low := costTo_dijkstra_le sound known (.inl rfl) walk
  have reached : (n.dijkstra source none).reaches p = true :=
    Labels.reaches_iff.mpr (Nat.lt_of_le_of_lt low finite)
  obtain ⟨rank, places, l', -, trace, cost⟩ := arcsTo?_dijkstra sound known none reached
  exact ⟨l', trace.walk.mono fun a tree => tree.mem_arcs, trace.length_lt sound known, cost ▸ low⟩

theorem costTo_bellmanFord_le (sound : n.Sound) (known : source.index < n.pointCount)
    {l : List Arc} (walk : Walk (· ∈ n.arcs) source l p) :
    ((n.bellmanFord source).costTo p).amount ≤ driveCost l := by
  -- only short walks are covered after so many sweeps, but one of them is as good
  by_cases finite : driveCost l < Cost.limit
  · obtain ⟨l', walk', short, low⟩ := short_walk sound known walk finite
    have covers := (Labels.covers_initial known).sweepAll sound (Labels.growing_initial known)
      (max n.pointCount 2 - 1)
    exact Nat.le_trans (covers p l' walk' (by omega)) low
  · exact Nat.le_trans (Cost.amount_le _) (Nat.le_of_not_lt finite)

theorem costTo_search_le (sound : n.Sound) (known : source.index < n.pointCount)
    (method : SearchMethod) {target : Option PointId} (asked : target = none ∨ target = some p)
    {l : List Arc} (walk : Walk (· ∈ n.arcs) source l p) :
    ((n.search method source target).costTo p).amount ≤ driveCost l := by
  cases method with
  | dijkstra => exact costTo_dijkstra_le sound known asked walk
  | bellmanFord => exact costTo_bellmanFord_le sound known walk

theorem reaches_search_iff (sound : n.Sound) (known : source.index < n.pointCount)
    (method : SearchMethod) {target : Option PointId} (asked : target = none ∨ target = some p) :
    (n.search method source target).reaches p = true ↔
      ∃ l, Walk (· ∈ n.arcs) source l p ∧ driveCost l < Cost.limit := by
  constructor
  · intro reached
    obtain ⟨rank, places, l, -, trace⟩ := arcsTo?_search sound known method target reached
    have low := trace.cost
    rw [Labels.reaches_iff] at reached
    exact ⟨l, trace.walk.mono fun a tree => tree.mem_arcs, Nat.lt_of_le_of_lt low reached⟩
  · intro h
    obtain ⟨l, walk, finite⟩ := h
    exact Labels.reaches_iff.mpr
      (Nat.lt_of_le_of_lt (costTo_search_le sound known method asked walk) finite)

end Network

/-- There are walks from one destination to the next, none of which costs too much. -/
def ReachedInTurn (ok : Arc → Prop) (p : PointId) : List PointId → Prop
  | [] => True
  | d :: rest => (∃ l, Walk ok p l d ∧ driveCost l < Cost.limit) ∧ ReachedInTurn ok d rest

theorem ReachedInTurn.congr {ok ok' : Arc → Prop} (same : ∀ a, ok a ↔ ok' a) {p : PointId}
    {destinations : List PointId} :
    ReachedInTurn ok p destinations ↔ ReachedInTurn ok' p destinations := by
  have equal : ok = ok' := funext fun a => propext (same a)
  rw [equal]

namespace Navigator

variable {n : Navigator} {s d : PointId}

theorem isSome_route_iff (sound : n.network.Sound) (known : s.index < n.network.pointCount) :
    (n.route s d).isSome = true ↔
      ∃ l, Walk (· ∈ n.network.arcs) s l d ∧ driveCost l < Cost.limit := by
  unfold route
  split
  · rename_i same
    subst same
    exact iff_of_true rfl ⟨[], .stay s, by decide⟩
  · rw [← Network.reaches_search_iff sound known n.method (.inr rfl), routeIn, Labels.arcsTo?,
      Option.isSome_map]
    split <;> simp_all

theorem isSome_legs_iff (sound : n.network.Sound) (known : s.index < n.network.pointCount)
    {destinations : List PointId} (later : ∀ d ∈ destinations, d.index < n.network.pointCount) :
    (n.legs s destinations).isSome = true ↔ ReachedInTurn (· ∈ n.network.arcs) s destinations := by
  induction destinations generalizing s with
  | nil => exact iff_of_true rfl trivial
  | cons d rest ih =>
    have rest' := ih (later d List.mem_cons_self) fun d' member =>
      later d' (List.mem_cons_of_mem _ member)
    rw [ReachedInTurn, ← isSome_route_iff sound known, ← rest', legs]
    cases n.route s d <;> cases n.legs d rest <;> simp

end Navigator

end TrafficControl
