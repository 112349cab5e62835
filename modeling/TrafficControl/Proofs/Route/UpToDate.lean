import TrafficControl.Proofs.Plant.Locking
import TrafficControl.Proofs.Route.Avoiding
import TrafficControl.Proofs.Route.Batching

namespace TrafficControl

def RouterAction.keepsPlant : RouterAction → Bool
  | .lock _ _ => false
  | .replace _ => false
  | _ => true

theorem PlantVersions.follows_afterLock (v : PlantVersions) (path : PathId) (locked : Bool) :
    (v.afterLock path locked).Follows v := by
  unfold afterLock
  split
  · rename_i changed
    exact follows_setLocked changed
  · exact .inl rfl

namespace Router

variable {r r' : Router} {u v : Vehicle} {fleet : List Vehicle} {a : RouterAction}

theorem next_lock (r : Router) (path : PathId) (locked : Bool) :
    r.next (.lock path locked) = { r with plant := r.plant.afterLock path locked } := by
  simp only [next, PlantVersions.afterLock]
  cases r.plant.setLocked path locked <;> rfl

theorem next_basis (r : Router) (a : RouterAction) : (r.next a).settings = r.settings ∧
    (r.next a).weighing = r.weighing ∧ (a.keepsPlant = true → (r.next a).plant = r.plant) := by
  have asked (v : Vehicle) := r.navigator_basis (v := v)
  cases a with
  | lock path locked =>
    rw [next_lock]
    exact ⟨rfl, rfl, fun keeps => by cases keeps⟩
  | replace => exact ⟨rfl, rfl, fun keeps => by cases keeps⟩
  | route v | routes v | cost v | legs v => exact ⟨(asked v).2.1, (asked v).2.2, fun _ => (asked v).1⟩
  | rank candidates d =>
    obtain ⟨plant, settings, weighing⟩ := (r.evolves_costsOf d candidates).basis
    exact ⟨settings, weighing, fun _ => plant⟩
  | invalidate | avoiding | select | deselect => exact ⟨rfl, rfl, fun _ => rfl⟩

theorem run_basis (r : Router) (actions : List RouterAction) :
    (r.run actions).settings = r.settings ∧ (r.run actions).weighing = r.weighing ∧
      ((∀ a ∈ actions, a.keepsPlant = true) → (r.run actions).plant = r.plant) := by
  induction actions generalizing r with
  | nil => exact ⟨rfl, rfl, fun _ => rfl⟩
  | cons a rest ih =>
    obtain ⟨settings, weighing, plant⟩ := r.next_basis a
    obtain ⟨settings', weighing', plant'⟩ := ih (r.next a)
    refine ⟨settings'.trans settings, weighing'.trans weighing, fun keeps => ?_⟩
    exact (plant' fun b later => keeps b (List.mem_cons_of_mem _ later)).trans
      (plant (keeps a List.mem_cons_self))

theorem scope_congr (settings : r'.settings = r.settings) (weighing : r'.weighing = r.weighing)
    (v : Vehicle) (excluded : List PointId) : r'.scope v excluded = r.scope v excluded := by
  simp only [scope, groupOf, settings, weighing]

theorem build_congr (plant : r'.plant.current = r.plant.current) (settings : r'.settings = r.settings)
    (weighing : r'.weighing = r.weighing) (v : Vehicle) :
    (r.build v []).1.Same (r'.build v []).1 := by
  have scope := scope_congr settings weighing v []
  exact ⟨by simp only [build, scope, plant], by simp only [build, settings]⟩

theorem Level.congr (level : r.Level u v) (settings : r'.settings = r.settings)
    (weighing : r'.weighing = r.weighing) : r'.Level u v := by
  unfold Level groupOf
  rwa [settings, weighing]

theorem navigator_outdated (outdated : ∀ kept, r.navigators.get? (r.groupOf v) = some kept →
    kept.generation ≠ r.plant.generation) : (r.navigator v).1 = (r.build v []).1 := by
  simp only [navigator]
  split
  · rename_i kept found
    rw [if_neg (outdated kept found)]
  · rfl

/-- Whatever the router has kept, each vehicle of the fleet finds the ways of the plant as it is. -/
structure UpToDate (fleet : List Vehicle) (r : Router) : Prop where
  level : ∀ u ∈ fleet, ∀ v ∈ fleet, r.Level u v
  fresh : r.Fresh
  ways : ∀ v ∈ fleet, (r.navigator v).1.Same (r.build v []).1

namespace UpToDate

theorem of_nothing (level : ∀ u ∈ fleet, ∀ v ∈ fleet, r.Level u v)
    (nothing : ∀ group, r.navigators.get? group = none) : r.UpToDate fleet where
  level := level
  fresh group kept found := by
    cases (nothing group).symm.trans found
  ways v _ := by
    rw [navigator_outdated]
    · exact .refl _
    · intro kept found
      cases (nothing _).symm.trans found

theorem congr (current : r.UpToDate fleet) (plant : r'.plant = r.plant)
    (settings : r'.settings = r.settings) (weighing : r'.weighing = r.weighing)
    (navigators : r'.navigators = r.navigators) (fresh : r'.Fresh) : r'.UpToDate fleet where
  level u hu v hv := (current.level u hu v hv).congr settings weighing
  fresh := fresh
  ways v hv := by
    have unmoved : (r.navigator v).1.Same (r'.navigator v).1 :=
      same_navigator plant settings weighing (by rw [navigators])
    exact (unmoved.symm.trans (current.ways v hv)).trans
      (build_congr (congrArg _ plant) settings weighing v)

theorem navigator (current : r.UpToDate fleet) (asks : u ∈ fleet) :
    (r.navigator u).2.UpToDate fleet := by
  obtain ⟨plant, settings, weighing⟩ := r.navigator_basis (v := u)
  refine ⟨fun v hv w hw => (current.level v hv w hw).congr settings weighing,
    (current.fresh.navigator u).2, fun v hv => ?_⟩
  have unmoved := ((current.level u asks v hv).navigator).symm
  exact (unmoved.trans (current.ways v hv)).trans
    (build_congr (congrArg _ plant) settings weighing v)

theorem follow {plant : PlantVersions} (current : r.UpToDate fleet)
    (follows : plant.Follows r.plant) : UpToDate fleet { r with plant } := by
  rcases follows with rfl | later
  · exact current
  · refine ⟨current.level, current.fresh.follow (.inr later), fun v hv => ?_⟩
    rw [navigator_outdated]
    · exact .refl _
    · intro kept found
      exact Nat.ne_of_lt (Nat.lt_of_le_of_lt (current.fresh _ kept found).1 later)

theorem next (current : r.UpToDate fleet) (asks : ∀ v ∈ a.vehicles, v ∈ fleet) :
    (r.next a).UpToDate fleet := by
  cases a with
  | lock path locked =>
    rw [next_lock]
    exact current.follow (r.plant.follows_afterLock path locked)
  | replace plant => exact current.follow (PlantVersions.follows_replace r.plant plant)
  | invalidate => exact .of_nothing current.level fun _ => rfl
  | route v | routes v | cost v | legs v => exact current.navigator (asks v List.mem_cons_self)
  | rank candidates d =>
    refine costsOf_keeps (P := UpToDate fleet) (fun r candidate member current => ?_) d current
    exact current.navigator (asks _ (List.mem_map_of_mem member))
  | avoiding | select | deselect => exact current.congr rfl rfl rfl rfl current.fresh

theorem run (current : r.UpToDate fleet) {actions : List RouterAction}
    (asks : ∀ v ∈ actions.flatMap RouterAction.vehicles, v ∈ fleet) :
    (r.run actions).UpToDate fleet := by
  induction actions generalizing r with
  | nil => exact current
  | cons a rest ih =>
    rw [List.flatMap_cons] at asks
    exact ih (current.next fun v member => asks v (List.mem_append_left _ member))
      fun v member => asks v (List.mem_append_right _ member)

theorem query (current : r.UpToDate fleet) (member : v ∈ fleet) {α : Type} (points : List PointId)
    {question : Navigator → α} (reads : ∀ n n' : Navigator, n.Same n' → question n = question n') :
    (r.query v points question).1 = ask (r.build v []).1 points question :=
  Twin.ask (current.ways v member) points question (reads _ _ (current.ways v member))

theorem route (current : r.UpToDate fleet) (member : v ∈ fleet) (s d : PointId) :
    (r.route v s d).1 = ask (r.build v []).1 [s, d] (·.route s d) :=
  current.query member [s, d] fun _ _ same => same.route s d

theorem cheapest (current : r.UpToDate fleet) (member : v ∈ fleet) {s d : PointId}
    (source : r.plant.current.defines (.point s) = true)
    (destination : r.plant.current.defines (.point d) = true) :
    ∃ answer, (r.route v s d).1 = .ok answer ∧
      IsCheapest ((r.scope v []).Drives r.plant.current) s d answer ∧
      (r.cost v s d).1 = .ok ((answer.map (·.cost)).getD .infinite) := by
  have network : (r.build v []).1.network = .build (r.scope v []) r.plant.current := rfl
  have sound : (r.build v []).1.network.Sound := network ▸ Network.sound_build
  have known : ∀ p ∈ [s, d], p.index < (r.build v []).1.network.pointCount := by
    intro p ends
    rw [network, Network.pointCount_build]
    rcases List.mem_cons.mp ends with rfl | last
    · exact of_decide_eq_true source
    · rw [List.mem_singleton.mp last]
      exact of_decide_eq_true destination
  refine ⟨(r.build v []).1.route s d, ?_, ?_, ?_⟩
  · rw [current.route member, ask_known known]
  · unfold Navigator.route
    split
    · rename_i same
      subst same
      exact Navigator.isCheapest_empty
    · refine (Navigator.isCheapest_search sound (known s List.mem_cons_self) _).congr fun a => ?_
      rw [network]
      exact Network.mem_arcs_build
  · rw [← Navigator.cost_eq_route, ← ask_known known (·.cost s d)]
    exact current.query member [s, d] fun _ _ same => same.cost s d

end UpToDate

end Router

end TrafficControl
