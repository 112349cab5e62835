import TrafficControl.Proofs.Route.UpToDate

namespace TrafficControl

open Navigator (stepOf)

namespace NetworkScope

variable {scope : NetworkScope} {p q : Plant} {path : PathId} {a : Arc}

theorem usable_locked {locked : Bool} (changed : q.layout = p.layout.setLocked path locked) :
    scope.usable q = scope.usable p := by
  funext point
  rw [usable, usable, Plant.point?_locked changed]

theorem drives_locked (changed : q.layout = p.layout.setLocked path true) :
    scope.Drives q a ↔ scope.Drives p a ∧ a.path ≠ path := by
  have usable : scope.usable q = scope.usable p := usable_locked changed
  have lookup := Plant.path?_locked changed a.path
  constructor
  · intro drives
    obtain ⟨found, present, unlocked, open'⟩ := drives.path
    have other : a.path ≠ path := by
      intro same
      rw [lookup] at present
      obtain ⟨before, -, rfl⟩ := Option.map_eq_some_iff.mp present
      simp [same] at unlocked
    simp only [other, if_false, Option.map_id'] at lookup
    exact ⟨⟨⟨found, lookup ▸ present, unlocked, open'⟩, usable ▸ drives.source,
      usable ▸ drives.target, drives.cost⟩, other⟩
  · intro h
    obtain ⟨drives, other⟩ := h
    simp only [other, if_false, Option.map_id'] at lookup
    exact ⟨lookup ▸ drives.path, usable ▸ drives.source, usable ▸ drives.target, drives.cost⟩

theorem Drives.unlocked (drives : scope.Drives p a)
    (changed : q.layout = p.layout.setLocked path false) : scope.Drives q a := by
  have usable : scope.usable q = scope.usable p := usable_locked changed
  obtain ⟨found, present, unlocked, open'⟩ := drives.path
  have still : q.path? a.path = some found := by
    rw [Plant.path?_locked changed, present, Option.map_some, ← unlocked, ite_self]
  exact ⟨⟨found, still, unlocked, open'⟩, usable ▸ drives.source, usable ▸ drives.target, drives.cost⟩

end NetworkScope

theorem Walk.restrict {ok ok' : Arc → Prop} {s d : PointId} {l : List Arc} (walk : Walk ok s l d)
    (each : ∀ a ∈ l, ok a → ok' a) : Walk ok' s l d := by
  induction walk with
  | stay p => exact .stay p
  | drive allowed _ ih =>
    exact .drive (each _ List.mem_cons_self allowed)
      (ih fun b later => each b (List.mem_cons_of_mem _ later))

/-- The answer costs what its route does, and more than can be said if there is none. -/
def Route.costOf (answer : Option Route) : Cost := (answer.map (·.cost)).getD .infinite

namespace IsCheapest

variable {ok ok' : Arc → Prop} {s d : PointId} {answer answer' : Option Route}

theorem cost_le (cheapest : IsCheapest ok s d answer) (other : IsCheapest ok' s d answer')
    (kept : ∀ route l, answer' = some route → route.steps = (l.mapIdx fun i a => stepOf a i) →
      Walk ok' s l d → Walk ok s l d) : Route.costOf answer ≤ Route.costOf answer' := by
  cases found' : answer' with
  | none => exact Cost.le_infinite _
  | some route' =>
    obtain ⟨l, walk', steps, cost', least'⟩ := other.best route' found'
    have walk := kept route' l found' steps walk'
    have cheap : driveCost l < Cost.limit := by
      obtain ⟨m, short, cheap⟩ := other.isSome_iff.mp (by rw [found']; rfl)
      exact Nat.lt_of_le_of_lt (least' m short) cheap
    obtain ⟨route, found⟩ :=
      Option.isSome_iff_exists.mp (cheapest.isSome_iff.mpr ⟨l, walk, cheap⟩)
    obtain ⟨m, -, -, cost, least⟩ := cheapest.best route found
    subst found
    have below := least l walk
    rw [← cost, ← cost'] at below
    exact below

theorem cost_antitone (cheapest : IsCheapest ok s d answer) (other : IsCheapest ok' s d answer')
    (fewer : ∀ a, ok' a → ok a) : Route.costOf answer ≤ Route.costOf answer' :=
  cheapest.cost_le other fun _ _ _ _ walk => walk.mono fewer

/-- Arcs that the route does not drive can be taken away. -/
theorem cost_eq_of_spared {spared : Arc → Prop} (cheapest : IsCheapest ok s d answer)
    (other : IsCheapest (fun a => ok a ∧ spared a) s d answer')
    (spares : ∀ route (l : List Arc), answer = some route →
      route.steps = (l.mapIdx fun i a => stepOf a i) → ∀ a ∈ l, spared a) :
    Route.costOf answer' = Route.costOf answer := by
  have least := cheapest.cost_antitone other fun a => And.left
  have most : Route.costOf answer' ≤ Route.costOf answer :=
    other.cost_le cheapest fun route l found steps walk =>
      walk.restrict fun a driven allowed => ⟨allowed, spares route l found steps a driven⟩
  exact Cost.ext (Nat.le_antisymm most least)

end IsCheapest

theorem Route.path_mem_steps {route : Route} {l : List Arc}
    (steps : route.steps = (l.mapIdx fun i a => stepOf a i)) {a : Arc} (driven : a ∈ l) :
    ∃ step ∈ route.steps, step.path = a.path := by
  obtain ⟨i, found⟩ := List.mem_iff_getElem?.mp driven
  refine ⟨stepOf a i, List.mem_of_getElem? (i := i) ?_, rfl⟩
  rw [steps, List.getElem?_mapIdx, found]
  rfl

namespace Router

variable {r : Router} {v : Vehicle} {fleet : List Vehicle} {questions : List RouterAction}

theorem UpToDate.lock (current : r.UpToDate fleet)
    (asks : ∀ u ∈ questions.flatMap RouterAction.vehicles, u ∈ fleet)
    (quiet : ∀ a ∈ questions, a.keepsPlant = true) (path : PathId) (locked : Bool) :
    let t := (r.next (.lock path locked)).run questions
    t.UpToDate fleet ∧ t.plant = r.plant.afterLock path locked ∧
      t.settings = r.settings ∧ t.weighing = r.weighing := by
  intro t
  obtain ⟨settings, weighing, -⟩ := r.next_basis (.lock path locked)
  obtain ⟨settings', weighing', plant⟩ := (r.next (.lock path locked)).run_basis questions
  refine ⟨(current.next fun u asked => by cases asked).run asks, ?_, settings'.trans settings,
    weighing'.trans weighing⟩
  rw [plant quiet, next_lock]

section Changed

variable {t : Router} {s d : PointId} {path : PathId} (current : r.UpToDate fleet)
  (later : t.UpToDate fleet) (member : v ∈ fleet) (settings : t.settings = r.settings)
  (weighing : t.weighing = r.weighing)
include current later member settings weighing

theorem UpToDate.dearer (shut : t.plant.current.layout = r.plant.current.layout.setLocked path true)
    (source : r.plant.current.defines (.point s) = true)
    (destination : r.plant.current.defines (.point d) = true) :
    ∃ answer cost dearer, (r.route v s d).1 = .ok answer ∧ (r.cost v s d).1 = .ok cost ∧
      (t.cost v s d).1 = .ok dearer ∧ cost ≤ dearer ∧
      ((∀ route, answer = some route → ∀ step ∈ route.steps, step.path ≠ path) →
        dearer = cost) := by
  obtain ⟨answer, found, cheapest, cost⟩ := current.cheapest member source destination
  obtain ⟨answer', -, cheapest', cost'⟩ := later.cheapest member (s := s) (d := d)
    (Plant.defines_point_locked shut s ▸ source) (Plant.defines_point_locked shut d ▸ destination)
  rw [scope_congr settings weighing] at cheapest'
  have cheapest' := cheapest'.congr fun a => NetworkScope.drives_locked shut
  refine ⟨answer, _, _, found, cost, cost', ?_, fun spares => ?_⟩
  · exact cheapest.cost_antitone cheapest' fun a => And.left
  · refine cheapest.cost_eq_of_spared cheapest' fun route l found steps a driven => ?_
    obtain ⟨step, listed, same⟩ := Route.path_mem_steps steps driven
    exact same ▸ spares route found step listed

theorem UpToDate.cheaper
    (opened : t.plant.current.layout = r.plant.current.layout.setLocked path false)
    (source : r.plant.current.defines (.point s) = true)
    (destination : r.plant.current.defines (.point d) = true) :
    ∃ cost cheaper, (r.cost v s d).1 = .ok cost ∧ (t.cost v s d).1 = .ok cheaper ∧
      cheaper ≤ cost := by
  obtain ⟨answer, -, cheapest, cost⟩ := current.cheapest member source destination
  obtain ⟨answer', -, cheapest', cost'⟩ := later.cheapest member (s := s) (d := d)
    (Plant.defines_point_locked opened s ▸ source)
    (Plant.defines_point_locked opened d ▸ destination)
  rw [scope_congr settings weighing] at cheapest'
  exact ⟨_, _, cost, cost', cheapest'.cost_antitone cheapest fun a drives => drives.unlocked opened⟩

theorem UpToDate.same_ways (plant : t.plant.current = r.plant.current) :
    (t.navigator v).1.Same (r.navigator v).1 :=
  ((later.ways v member).trans (build_congr plant settings weighing v).symm).trans
    (current.ways v member).symm

end Changed

/-- Locking a path makes no way cheaper, and leaves the cost of those alone that do not use it.
    Unlocking one makes none dearer. A path that was not locked is locked and unlocked without a
    trace in any route. Anything may be asked in between, by vehicles that pay what others of their
    groups pay, be it that they drive at the same velocities or that nobody looks at these. -/
theorem locking_monotone (plant : PlantVersions) (settings : RouterSettings) (weighing : Weighing)
    {actions questions : List RouterAction} {r : Router} {v : Vehicle} {s d : PointId}
    (history : r = run { plant, settings, weighing } actions)
    (level : ∀ u ∈ v :: (actions ++ questions).flatMap RouterAction.vehicles,
      ∀ w ∈ v :: (actions ++ questions).flatMap RouterAction.vehicles, r.Level u w)
    (quiet : ∀ a ∈ questions, a.keepsPlant = true)
    (source : r.plant.current.defines (.point s) = true)
    (destination : r.plant.current.defines (.point d) = true) (path : PathId) :
    let locked := (r.next (.lock path true)).run questions
    let unlocked := (r.next (.lock path false)).run questions
    let restored := locked.next (.lock path false)
    (∃ answer cost dearer cheaper, (r.route v s d).1 = .ok answer ∧ (r.cost v s d).1 = .ok cost ∧
        (locked.cost v s d).1 = .ok dearer ∧ (unlocked.cost v s d).1 = .ok cheaper ∧
        cost ≤ dearer ∧
        ((∀ route, answer = some route → ∀ step ∈ route.steps, step.path ≠ path) → dearer = cost) ∧
        cheaper ≤ cost) ∧
      (r.plant.current.pathLocked path = false →
        (∀ s d, (restored.route v s d).1 = (r.route v s d).1) ∧
        (∀ s ds, (restored.routes v s ds).1 = (r.routes v s ds).1) ∧
        ∀ s ds, (restored.legs v s ds).1 = (r.legs v s ds).1) := by
  intro locked unlocked restored
  let fleet := v :: (actions ++ questions).flatMap RouterAction.vehicles
  have own : v ∈ fleet := List.mem_cons_self
  have asks : ∀ u ∈ questions.flatMap RouterAction.vehicles, u ∈ fleet := by
    intro u asked
    rw [List.mem_cons, List.flatMap_append, List.mem_append]
    exact .inr (.inr asked)
  have current : r.UpToDate fleet := by
    obtain ⟨settings, weighing, -⟩ := run_basis { plant, settings, weighing } actions
    rw [← history] at settings weighing
    rw [history]
    refine UpToDate.run (.of_nothing (fun u hu w hw => ?_) fun _ => rfl) fun u asked => ?_
    · exact (level u hu w hw).congr settings.symm weighing.symm
    · rw [List.mem_cons, List.flatMap_append, List.mem_append]
      exact .inr (.inl asked)
  obtain ⟨currentLocked, plantLocked, settings₁, weighing₁⟩ := current.lock asks quiet path true
  obtain ⟨currentUnlocked, plantUnlocked, settings₂, weighing₂⟩ :=
    current.lock asks quiet path false
  constructor
  · have shut := r.plant.layout_afterLock path true
    have opened := r.plant.layout_afterLock path false
    rw [← plantLocked] at shut
    rw [← plantUnlocked] at opened
    obtain ⟨answer, cost, dearer, found, asked, after, more, spared⟩ :=
      current.dearer currentLocked own settings₁ weighing₁ shut source destination
    obtain ⟨cost', cheaper, asked', after', less⟩ :=
      current.cheaper currentUnlocked own settings₂ weighing₂ opened source destination
    cases asked.symm.trans asked'
    exact ⟨answer, cost, dearer, cheaper, found, asked, after, after', more, spared, less⟩
  · intro unlocked
    obtain ⟨currentRestored, plantRestored, settings₃, weighing₃⟩ :=
      @UpToDate.lock locked fleet [] currentLocked (fun u asked => by cases asked)
        (fun a asked => by cases asked) path false
    have plant : restored.plant.current = r.plant.current := by
      have twice := r.plant.current_relock path unlocked
      rw [← plantLocked, ← plantRestored] at twice
      exact twice
    have same := current.same_ways currentRestored own (settings₃.trans settings₁)
      (weighing₃.trans weighing₁) plant
    exact ⟨fun s d => query_congr same _ (same.route s d),
      fun s ds => query_congr same _ (same.routesFrom s ds),
      fun s ds => query_congr same _ (same.legs s ds)⟩

theorem locking_monotone_shortcut :
    let settings : RouterSettings := { method := .bellmanFord, measures := [.travelTime] }
    let v : Vehicle := { id := ⟨0⟩, name := "AGV" }
    let slow : Vehicle := { id := ⟨1⟩, name := "slow", group := some "S", forwardVelocity := 300 }
    let actions : List RouterAction := [.route v ⟨0⟩ ⟨2⟩, .cost slow ⟨0⟩ ⟨2⟩]
    let questions : List RouterAction := [.cost slow ⟨0⟩ ⟨1⟩, .invalidate, .route v ⟨0⟩ ⟨1⟩]
    let fleet := v :: (actions ++ questions).flatMap RouterAction.vehicles
    let r := run { plant := shortcut, settings, weighing := .ofMeasures [.travelTime] } actions
    let locked := fun path => (r.next (.lock path true)).run questions
    (∀ u ∈ fleet, ∀ w ∈ fleet, r.Level u w) ∧ (∀ a ∈ questions, a.keepsPlant = true) ∧
      r.plant.current.defines (.point ⟨0⟩) = true ∧ r.plant.current.defines (.point ⟨2⟩) = true ∧
      (r.cost v ⟨0⟩ ⟨2⟩).1 = .ok 2000 ∧ ((locked ⟨0⟩).cost v ⟨0⟩ ⟨2⟩).1 = .ok 2000 ∧
      (∃ dearer, ((locked ⟨2⟩).cost v ⟨0⟩ ⟨2⟩).1 = .ok dearer ∧ 2000 ≤ dearer) ∧
      (((locked ⟨2⟩).next (.lock ⟨2⟩ false)).route v ⟨0⟩ ⟨2⟩).1 = (r.route v ⟨0⟩ ⟨2⟩).1 := by
  intro settings v slow actions questions fleet r locked
  have fast : (r.cost v ⟨0⟩ ⟨2⟩).1 = .ok 2000 := by
    dsimp only [r, actions, settings, v, slow]
    cbv
  have uniform : settings.Uniform fleet := by
    right
    decide_cbv
  obtain ⟨kept, weighing, plant⟩ :=
    run_basis { plant := shortcut, settings, weighing := .ofMeasures [.travelTime] } actions
  have level : ∀ u ∈ fleet, ∀ w ∈ fleet, r.Level u w :=
    fun u hu w hw => level_of_uniform (weighing.trans (by rw [kept])) (kept ▸ uniform) hu hw
  have quiet : ∀ a ∈ questions, a.keepsPlant = true := by decide
  have plant : r.plant = shortcut := plant (by decide)
  have source : r.plant.current.defines (.point ⟨0⟩) = true := by
    rw [plant]
    decide
  have destination : r.plant.current.defines (.point ⟨2⟩) = true := by
    rw [plant]
    decide
  obtain ⟨⟨answer, cost, same, -, found, asked, after, -, -, spared, -⟩, -⟩ :=
    @locking_monotone shortcut settings _ actions questions r v ⟨0⟩ ⟨2⟩ rfl level quiet source
      destination ⟨0⟩
  obtain ⟨⟨-, cost', dearer, -, -, asked', after', -, least, -⟩, restored⟩ :=
    @locking_monotone shortcut settings _ actions questions r v ⟨0⟩ ⟨2⟩ rfl level quiet source
      destination ⟨2⟩
  cases asked.symm.trans fast
  cases asked'.symm.trans fast
  refine ⟨level, quiet, source, destination, fast, ?_, ⟨dearer, after', least⟩, ?_⟩
  · have route : (r.route v ⟨0⟩ ⟨2⟩).1 = .ok (some {
        steps := [{ path := ⟨1⟩, source := ⟨0⟩, destination := ⟨1⟩, direction := .forward, index := 0 },
          { path := ⟨2⟩, source := ⟨1⟩, destination := ⟨2⟩, direction := .forward, index := 1 }]
        cost := 2000 }) := by
      dsimp only [r, actions, settings, v, slow]
      cbv
    cases found.symm.trans route
    rw [← spared ?_]
    · exact after
    · rintro _ ⟨⟩ step listed
      revert step
      decide
  · refine (restored ?_).1 ⟨0⟩ ⟨2⟩
    rw [plant]
    decide

end Router

end TrafficControl
