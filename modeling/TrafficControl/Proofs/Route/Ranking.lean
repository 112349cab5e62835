import Mathlib
import TrafficControl.Proofs.Route.Locking

namespace TrafficControl

theorem IsCheapest.costOf_eq_infinite_iff {ok : Arc → Prop} {s d : PointId} {answer : Option Route}
    (cheapest : IsCheapest ok s d answer) : Route.costOf answer = .infinite ↔ answer = none := by
  cases found : answer with
  | none => simp [Route.costOf]
  | some route =>
    obtain ⟨l, -, -, cost, least⟩ := cheapest.best route found
    obtain ⟨m, walk, cheap⟩ := cheapest.isSome_iff.mp (by rw [found]; rfl)
    have finite : route.cost ≠ .infinite := by
      rw [Cost.ne_infinite_iff, cost]
      exact Nat.lt_of_le_of_lt (least m walk) cheap
    simp [Route.costOf, finite]

namespace Router

def Precedes (a b : VehicleId × Cost) : Prop := a.2 < b.2 ∨ a.2 = b.2 ∧ a.1.index ≤ b.1.index

instance (a b : VehicleId × Cost) : Decidable (Precedes a b) :=
  inferInstanceAs (Decidable (_ ∨ _))

theorem Precedes.trans {a b c : VehicleId × Cost} (first : Precedes a b) (second : Precedes b c) :
    Precedes a c := by
  simp only [Precedes, Cost.lt_def] at *
  rcases first with less | ⟨same, lower⟩
  · rcases second with later | ⟨same, -⟩
    · omega
    · exact .inl (same ▸ less)
  · rw [same]
    rcases second with later | ⟨same, higher⟩
    · exact .inl later
    · exact .inr ⟨same, by omega⟩

theorem Precedes.total (a b : VehicleId × Cost) : Precedes a b ∨ Precedes b a := by
  simp only [Precedes, Cost.lt_def]
  rcases Nat.lt_trichotomy a.2.amount b.2.amount with less | same | more
  · exact .inl (.inl less)
  · have same := Cost.ext same
    rcases Nat.le_total a.1.index b.1.index with lower | higher
    · exact .inl (.inr ⟨same, lower⟩)
    · exact .inr (.inr ⟨same.symm, higher⟩)
  · exact .inr (.inl more)

theorem Precedes.antisymm {a b : VehicleId × Cost} (first : Precedes a b) (second : Precedes b a) :
    a = b := by
  obtain ⟨⟨i⟩, cost⟩ := a
  obtain ⟨⟨j⟩, cost'⟩ := b
  simp only [Precedes, Cost.lt_def] at *
  rcases first with less | ⟨rfl, lower⟩
  · rcases second with more | ⟨rfl, -⟩ <;> omega
  · have same : i = j := by omega
    rw [same]

theorem Precedes.infinite {a b : VehicleId × Cost} (first : Precedes a b)
    (unreachable : a.2 = .infinite) : b.2 = .infinite := by
  rcases first with less | ⟨same, -⟩
  · rw [unreachable] at less
    exact absurd less (Nat.not_lt_of_le (Cost.le_infinite b.2))
  · exact same.symm.trans unreachable

def ordered (l : List (VehicleId × Cost)) : List (VehicleId × Cost) :=
  l.mergeSort fun a b => Precedes a b

theorem ordered_perm (l : List (VehicleId × Cost)) : (ordered l).Perm l := List.mergeSort_perm ..

theorem pairwise_ordered (l : List (VehicleId × Cost)) : (ordered l).Pairwise Precedes := by
  have sorted : (ordered l).Pairwise fun a b => decide (Precedes a b) = true := by
    apply List.pairwise_mergeSort
    · intro a b c first second
      exact decide_eq_true ((of_decide_eq_true first).trans (of_decide_eq_true second))
    · intro a b
      simpa using Precedes.total a b
  exact sorted.imp of_decide_eq_true

theorem ordered_congr {l m : List (VehicleId × Cost)} (same : l.Perm m) : ordered l = ordered m := by
  have perm : (ordered l).Perm (ordered m) :=
    ((ordered_perm l).trans same).trans (ordered_perm m).symm
  exact perm.eq_of_pairwise (fun _ _ _ _ => Precedes.antisymm) (pairwise_ordered l)
    (pairwise_ordered m)

variable {r alone : Router} {fleet : List Vehicle} {candidates : List (Vehicle × PointId)}
  {d : PointId}

theorem rank_eq : (r.rank candidates d).1 = (r.costsOf d candidates).1.map ordered := by
  have order : (fun a b : VehicleId × Cost => decide (Precedes a b)) =
      fun a b => decide (a.2 < b.2) || (decide (a.2 = b.2) && decide (a.1.index ≤ b.1.index)) := by
    funext a b
    rw [← Bool.decide_and, ← Bool.decide_or]
    rfl
  unfold rank ordered
  rw [order]

theorem rank_fault {c : Vehicle × PointId} {fault : RoutingFault}
    (refused : (r.cost c.1 c.2 d).1 = .error fault) :
    (r.rank (c :: candidates) d).1 = .error fault := by
  obtain ⟨v, s⟩ := c
  simp only [rank_eq, costsOf]
  split
  · rename_i asked
    rw [asked] at refused
    exact congrArg _ (Except.error.inj refused)
  · rename_i asked
    rw [asked] at refused
    cases refused

namespace UpToDate

variable (current : r.UpToDate fleet)
include current

/-- Whatever has been kept, a vehicle pays what it would pay a router that has kept nothing. -/
theorem cost_alone (later : alone.UpToDate fleet) (settings : alone.settings = r.settings)
    (weighing : alone.weighing = r.weighing) (plant : alone.plant.current = r.plant.current)
    {v : Vehicle} (member : v ∈ fleet) (s : PointId) :
    (r.cost v s d).1 = (alone.cost v s d).1 :=
  have same := current.same_ways later member settings weighing plant
  (query_congr same [s, d] (same.cost s d)).symm

theorem cost_unknown {v : Vehicle} (member : v ∈ fleet) {s : PointId}
    (source : r.plant.current.defines (.point s) = true)
    (unknown : r.plant.current.defines (.point d) = false) :
    (r.cost v s d).1 = .error (.unknownPoint d) := by
  have contains (p : PointId) :
      (r.build v []).1.network.contains p = r.plant.current.defines (.point p) := by
    have network : (r.build v []).1.network = .build (r.scope v []) r.plant.current := rfl
    rw [network, Network.contains, Network.pointCount_build]
    rfl
  rw [cost, current.query member [s, d] fun _ _ same => same.cost s d]
  simp only [ask, List.find?_cons, contains, source, unknown, Bool.not_true, Bool.not_false]

theorem costsOf_known {price : Vehicle × PointId → Cost}
    (members : ∀ c ∈ candidates, c.1 ∈ fleet)
    (priced : ∀ c ∈ candidates, (r.cost c.1 c.2 d).1 = .ok (price c)) :
    (r.costsOf d candidates).1 = .ok (candidates.map fun c => (c.1.id, price c)) := by
  induction candidates generalizing r with
  | nil => rfl
  | cons c rest ih =>
    obtain ⟨v, s⟩ := c
    obtain ⟨member, others⟩ := List.forall_mem_cons.mp members
    obtain ⟨first, later⟩ := List.forall_mem_cons.mp priced
    obtain ⟨plant, settings, weighing⟩ := r.navigator_basis (v := v)
    have next : (r.cost v s d).2.UpToDate fleet := current.navigator member
    have rest := ih next others fun c listed => by
      rw [← current.cost_alone next settings weighing (congrArg _ plant) (others c listed)]
      exact later c listed
    simp only [costsOf]
    split
    · rename_i asked
      rw [asked] at first
      cases first
    · rename_i asked
      rw [asked] at first rest
      cases first
      rw [rest]
      rfl

theorem rank_known {price : Vehicle × PointId → Cost} (members : ∀ c ∈ candidates, c.1 ∈ fleet)
    (priced : ∀ c ∈ candidates, (r.cost c.1 c.2 d).1 = .ok (price c)) :
    (r.rank candidates d).1 = .ok (ordered (candidates.map fun c => (c.1.id, price c))) := by
  rw [rank_eq, current.costsOf_known members priced]
  rfl

theorem rank_unknown (members : ∀ c ∈ candidates, c.1 ∈ fleet)
    (known : ∀ c ∈ candidates, r.plant.current.defines (.point c.2) = true)
    (unknown : r.plant.current.defines (.point d) = false) (some : candidates ≠ []) :
    (r.rank candidates d).1 = .error (.unknownPoint d) := by
  obtain ⟨c, rest, rfl⟩ := List.exists_cons_of_ne_nil some
  have first : c ∈ c :: rest := List.mem_cons_self
  exact rank_fault (current.cost_unknown (members c first) (known c first) unknown)

theorem exists_price (members : ∀ c ∈ candidates, c.1 ∈ fleet)
    (known : ∀ c ∈ candidates, r.plant.current.defines (.point c.2) = true)
    (destination : r.plant.current.defines (.point d) = true) :
    ∃ price : Vehicle × PointId → Cost, ∀ c ∈ candidates, (r.cost c.1 c.2 d).1 = .ok (price c) ∧
      (price c = .infinite ↔ (r.route c.1 c.2 d).1 = .ok none) := by
  have answered : ∀ c, ∃ price, c ∈ candidates → (r.cost c.1 c.2 d).1 = .ok price ∧
      (price = .infinite ↔ (r.route c.1 c.2 d).1 = .ok none) := by
    intro c
    by_cases listed : c ∈ candidates
    · obtain ⟨answer, found, cheapest, cost⟩ :=
        current.cheapest (members c listed) (known c listed) destination
      refine ⟨Route.costOf answer, fun _ => ⟨cost, ?_⟩⟩
      rw [found, cheapest.costOf_eq_infinite_iff, Except.ok.injEq]
    · exact ⟨.infinite, fun listed' => absurd listed' listed⟩
  choose price priced using answered
  exact ⟨price, priced⟩

end UpToDate

/-- Candidates are ranked alike in whatever order they are given: by what a router that has kept
    nothing says that each of them alone would pay, and by their numbers, with those that find no
    route behind all others. If there is no such destination, each of them would be told so. The
    router may have been asked anything before, by vehicles that pay what others of their groups pay,
    be it that they drive at the same velocities or that nobody looks at these. -/
theorem ranks_in_any_order (plant : PlantVersions) (settings : RouterSettings) (weighing : Weighing)
    {actions : List RouterAction} {r : Router} {candidates : List (Vehicle × PointId)} {d : PointId}
    (history : r = run { plant, settings, weighing } actions)
    (level : ∀ u ∈ actions.flatMap RouterAction.vehicles ++ candidates.map (·.1),
      ∀ v ∈ actions.flatMap RouterAction.vehicles ++ candidates.map (·.1), r.Level u v)
    (known : ∀ c ∈ candidates, r.plant.current.defines (.point c.2) = true) :
    let alone : Router := { plant := r.plant, settings, weighing }
    (∀ others, others.Perm candidates → (r.rank others d).1 = (r.rank candidates d).1) ∧
      (r.plant.current.defines (.point d) = true →
        ∃ (ranked : List (VehicleId × Cost)) (price : Vehicle × PointId → Cost),
        (r.rank candidates d).1 = .ok ranked ∧
        ranked.Perm (candidates.map fun c => (c.1.id, price c)) ∧
        (∀ c ∈ candidates, (alone.cost c.1 c.2 d).1 = .ok (price c) ∧
          (price c = .infinite ↔ (alone.route c.1 c.2 d).1 = .ok none)) ∧
        ranked.Pairwise Precedes ∧ ranked.Pairwise fun a b => a.2 = .infinite → b.2 = .infinite) ∧
      (r.plant.current.defines (.point d) = false → candidates ≠ [] →
        (r.rank candidates d).1 = .error (.unknownPoint d) ∧
        ∀ c ∈ candidates, (alone.cost c.1 c.2 d).1 = .error (.unknownPoint d)) := by
  intro alone
  let fleet := actions.flatMap RouterAction.vehicles ++ candidates.map (·.1)
  have member : ∀ c ∈ candidates, c.1 ∈ fleet := fun c listed =>
    List.mem_append_right _ (List.mem_map_of_mem listed)
  obtain ⟨settled, weighs, -⟩ := run_basis { plant, settings, weighing } actions
  rw [← history] at settled weighs
  have current : r.UpToDate fleet := by
    rw [history]
    refine UpToDate.run (.of_nothing (fun u hu v hv => ?_) fun _ => rfl) fun u asked => ?_
    · exact (level u hu v hv).congr settled.symm weighs.symm
    · exact List.mem_append_left _ asked
  have later : alone.UpToDate fleet :=
    .of_nothing (fun u hu v hv => (level u hu v hv).congr settled.symm weighs.symm) fun _ => rfl
  have same : ∀ c ∈ candidates, (r.cost c.1 c.2 d).1 = (alone.cost c.1 c.2 d).1 := fun c listed =>
    current.cost_alone later settled.symm weighs.symm rfl (member c listed) c.2
  by_cases destination : r.plant.current.defines (.point d) = true
  · obtain ⟨price, priced⟩ := later.exists_price member known destination
    have ranked (others : List (Vehicle × PointId)) (perm : others.Perm candidates) :
        (r.rank others d).1 = .ok (ordered (others.map fun c => (c.1.id, price c))) :=
      current.rank_known (fun c listed => member c (perm.subset listed)) fun c listed =>
        (same c (perm.subset listed)).trans (priced c (perm.subset listed)).1
    refine ⟨fun others perm => ?_, fun _ => ⟨_, price, ranked _ (.refl _), ordered_perm _, priced,
      pairwise_ordered _, (pairwise_ordered _).imp Precedes.infinite⟩, fun unknown => ?_⟩
    · rw [ranked others perm, ranked _ (.refl _), ordered_congr (perm.map _)]
    · cases unknown.symm.trans destination
  · have unknown := eq_false_of_ne_true destination
    have ranked (others : List (Vehicle × PointId)) (perm : others.Perm candidates)
        (some : others ≠ []) : (r.rank others d).1 = .error (.unknownPoint d) :=
      current.rank_unknown (fun c listed => member c (perm.subset listed))
        (fun c listed => known c (perm.subset listed)) unknown some
    refine ⟨fun others perm => ?_, fun known => absurd known destination, fun _ some =>
      ⟨ranked _ (.refl _) some, fun c listed =>
        later.cost_unknown (member c listed) (known c listed) unknown⟩⟩
    by_cases empty : candidates = []
    · rw [empty] at perm ⊢
      rw [perm.eq_nil]
    · rw [ranked _ (.refl _) empty, ranked others perm fun nothing => ?_]
      exact empty (nothing ▸ perm).nil_eq.symm

theorem ranks_in_any_order_shortcut :
    let settings : RouterSettings := { measures := [.travelTime] }
    let fast : Vehicle := { id := ⟨1⟩, name := "fast" }
    let slow : Vehicle := { id := ⟨0⟩, name := "slow", group := some "S", forwardVelocity := 500 }
    let actions : List RouterAction := [.cost fast ⟨0⟩ ⟨2⟩, .lock ⟨2⟩ true]
    let r := run { plant := shortcut, settings, weighing := .ofMeasures [.travelTime] } actions
    let candidates := [(fast, ⟨1⟩), (slow, ⟨0⟩), (slow, ⟨2⟩), (fast, ⟨0⟩)]
    let fleet := actions.flatMap RouterAction.vehicles ++ candidates.map (·.1)
    (∀ u ∈ fleet, ∀ v ∈ fleet, r.Level u v) ∧
      (∀ c ∈ candidates, r.plant.current.defines (.point c.2) = true) ∧
      (r.rank candidates ⟨2⟩).1 =
        .ok [(⟨0⟩, 0), (⟨1⟩, 5000), (⟨0⟩, 10000), (⟨1⟩, .infinite)] ∧
      ∀ others, others.Perm candidates → (r.rank others ⟨2⟩).1 = (r.rank candidates ⟨2⟩).1 := by
  intro settings fast slow actions r candidates fleet
  have uniform : settings.Uniform fleet := by
    right
    decide_cbv
  obtain ⟨kept, weighing, -⟩ :=
    run_basis { plant := shortcut, settings, weighing := .ofMeasures [.travelTime] } actions
  have level : ∀ u ∈ fleet, ∀ v ∈ fleet, r.Level u v :=
    fun u hu v hv => level_of_uniform (weighing.trans (by rw [kept])) (kept ▸ uniform) hu hv
  have known : ∀ c ∈ candidates, r.plant.current.defines (.point c.2) = true := by
    decide_cbv
  obtain ⟨anyOrder, -, -⟩ := @ranks_in_any_order shortcut settings _ actions r candidates ⟨2⟩
    rfl level known
  refine ⟨level, known, ?_, anyOrder⟩
  dsimp only [r, actions, settings, fast, slow, candidates]
  cbv

end Router

end TrafficControl
