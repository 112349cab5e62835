import TrafficControl.Proofs.Transport.Restricting

namespace TrafficControl

def Step.unjudged (s : Step) : Step := { s with allowed := true }

def Step.unnoted (s : Step) : Step := { s with locked := false }

/-- The steps of all drive orders, one after the other. -/
def allSteps (orders : List DriveOrder) : List Step := orders.flatMap DriveOrder.steps

/-- The vehicle may execute the plan up to some step, and nothing from there on. -/
def StopsForGood (orders : List DriveOrder) : Prop :=
  ∃ n : Nat, ∀ k s, (allSteps orders)[k]? = some s → (s.allowed = true ↔ k < n)

variable {orders orders' : List DriveOrder} {p : Plant} {fallback : Fallback} {source : PointId}

theorem DriveOrder.mapSteps_id (o : DriveOrder) : o.mapSteps id = o := by
  obtain ⟨destination, operation, route, state⟩ := o
  cases route <;> rfl

theorem DriveOrder.steps_seen (view : Step → Step) (o : DriveOrder) :
    (o.seen view).steps = o.steps.map view := DriveOrder.steps_mapSteps rfl

theorem allSteps_seen (view : Step → Step) (orders : List DriveOrder) :
    allSteps (orders.map (·.seen view)) = (allSteps orders).map view := by
  simp only [allSteps, List.flatMap_map, List.map_flatMap, DriveOrder.steps_seen]

theorem containsLocked_eq (orders : List DriveOrder) :
    containsLocked orders = (allSteps orders).any (·.locked) := by
  simp only [containsLocked, allSteps, List.any_flatMap]

theorem containsLocked_unjudged (orders : List DriveOrder) :
    containsLocked (orders.map (·.seen Step.unjudged)) = containsLocked orders := by
  rw [containsLocked_eq, allSteps_seen, List.any_map, containsLocked_eq]
  rfl

namespace ExecutionTest

variable (t : ExecutionTest)

theorem markSteps_append (l m : List Step) : t.markSteps (l ++ m) =
    ((t.markSteps l).1 ++ ((t.markSteps l).2.markSteps m).1, ((t.markSteps l).2.markSteps m).2) := by
  induction l generalizing t with
  | nil => rfl
  | cons s rest ih => simp only [List.cons_append, markSteps, ih]

/-- To the test it makes no difference where one drive order ends and the next begins. -/
theorem allSteps_markOrders (orders : List DriveOrder) :
    allSteps (t.markOrders orders) = (t.markSteps (allSteps orders)).1 := by
  induction orders generalizing t with
  | nil => rfl
  | cons o rest ih =>
    have own : (o.mapSteps fun _ => (t.markSteps o.steps).1).steps = (t.markSteps o.steps).1 := by
      cases h : o.route <;> simp [DriveOrder.mapSteps, DriveOrder.steps, h, markSteps]
    have later := ih (t.markSteps o.steps).2
    simp only [allSteps, List.flatMap_cons] at later ⊢
    rw [markOrders, List.flatMap_cons, own, later, markSteps_append]

theorem getElem?_markSteps (steps : List Step) (k : Nat) : (t.markSteps steps).1[k]? =
    steps[k]?.map fun s => { s with allowed := t.allowed && (steps.take (k + 1)).all t.permits } := by
  induction steps generalizing t k with
  | nil => rfl
  | cons s rest ih =>
    cases k with
    | zero => simp [markSteps, test]
    | succ k =>
      have kept : (t.test s).permits = t.permits := rfl
      have verdict : (t.test s).allowed = (t.allowed && t.permits s) := rfl
      simp only [markSteps, List.getElem?_cons_succ, ih, kept, verdict, List.take_succ_cons,
        List.all_cons, Bool.and_assoc]

theorem markSteps_unjudged (steps : List Step) :
    t.markSteps (steps.map Step.unjudged) = t.markSteps steps := by
  induction steps generalizing t with
  | nil => rfl
  | cons s rest ih =>
    have same : t.test s.unjudged = t.test s := rfl
    simp only [List.map_cons, markSteps, same, ih]
    rfl

theorem markOrders_unjudged (orders : List DriveOrder) :
    t.markOrders (orders.map (·.seen Step.unjudged)) = t.markOrders orders := by
  induction orders generalizing t with
  | nil => rfl
  | cons o rest ih =>
    simp only [List.map_cons, markOrders, DriveOrder.steps_seen, markSteps_unjudged, ih]
    rw [DriveOrder.seen, DriveOrder.mapSteps_mapSteps]

end ExecutionTest

theorem restrict_of_unlocked (idle : fallback = .ignorePathLocks ∨ containsLocked orders = false) :
    restrict fallback source orders = orders := by
  rw [restrict, if_pos]
  simpa using idle

theorem restrict_of_locked (pauses : fallback ≠ .ignorePathLocks)
    (locked : containsLocked orders = true) :
    restrict fallback source orders = ExecutionTest.markOrders { fallback, source } orders := by
  simp [restrict, pauses, locked]

theorem restrict_congr (pauses : fallback ≠ .ignorePathLocks) (locked : containsLocked orders = true)
    (same : orders'.map (·.seen Step.unjudged) = orders.map (·.seen Step.unjudged)) :
    restrict fallback source orders' = restrict fallback source orders := by
  have locked' : containsLocked orders' = true := by
    rw [← containsLocked_unjudged, same, containsLocked_unjudged, locked]
  rw [restrict_of_locked pauses locked, restrict_of_locked pauses locked',
    ← ExecutionTest.markOrders_unjudged, same, ExecutionTest.markOrders_unjudged]

theorem unjudged_restrict (fallback : Fallback) (source : PointId) (orders : List DriveOrder) :
    (restrict fallback source orders).map (·.seen Step.unjudged) =
      orders.map (·.seen Step.unjudged) :=
  @seen_restrict Step.unjudged (fun _ _ => rfl) fallback source orders

theorem restrict_restrict (fallback : Fallback) (source : PointId) (orders : List DriveOrder) :
    restrict fallback source (restrict fallback source orders) =
      restrict fallback source orders := by
  by_cases idle : fallback = .ignorePathLocks ∨ containsLocked orders = false
  · rw [restrict_of_unlocked idle, restrict_of_unlocked idle]
  · obtain ⟨pauses, locked⟩ := not_or.mp idle
    exact restrict_congr pauses (by simpa using locked) (unjudged_restrict ..)

section Marked

variable (pauses : fallback ≠ .ignorePathLocks) (locked : containsLocked orders = true)
include pauses locked

theorem allowed_restrict_iff {k : Nat} {s : Step}
    (found : (allSteps (restrict fallback source orders))[k]? = some s) : s.allowed = true ↔
      ∀ j ≤ k, ∀ s', (allSteps orders)[j]? = some s' →
        ({ fallback, source } : ExecutionTest).permits s' = true := by
  rw [restrict_of_locked pauses locked, ExecutionTest.allSteps_markOrders,
    ExecutionTest.getElem?_markSteps] at found
  obtain ⟨step, -, rfl⟩ := Option.map_eq_some_iff.mp found
  simp only [Bool.true_and, List.all_eq_true, List.mem_iff_getElem?, List.getElem?_take]
  constructor
  · intro all j before s' there
    exact all s' ⟨j, by rw [if_pos (by omega), there]⟩
  · rintro all s' ⟨j, there⟩
    split at there
    · rename_i before
      exact all j (Nat.le_of_lt_succ before) s' there
    · cases there

theorem stopsForGood_restrict : StopsForGood (restrict fallback source orders) := by
  have steps := congrArg List.length (congrArg allSteps (unjudged_restrict fallback source orders))
  simp only [allSteps_seen, List.length_map] at steps
  refine ⟨(allSteps orders).findIdx fun s => !({ fallback, source } : ExecutionTest).permits s,
    fun k s found => ?_⟩
  obtain ⟨inside, -⟩ := List.getElem?_eq_some_iff.mp found
  rw [steps] at inside
  rw [allowed_restrict_iff pauses locked found, List.lt_findIdx_iff]
  simp only [Bool.not_eq_false', inside, exists_true_left]
  constructor
  · exact fun all j before => all j before _ (List.getElem?_eq_getElem _)
  · intro all j before s' there
    obtain ⟨_, rfl⟩ := List.getElem?_eq_some_iff.mp there
    exact all j before

end Marked

theorem allSteps_refreshLocks (p : Plant) (orders : List DriveOrder) :
    allSteps (refreshLocks p orders) = (allSteps orders).map (·.refresh p) :=
  allSteps_seen (·.refresh p) orders

theorem refreshLocks_of_fresh (fresh : ∀ s ∈ allSteps orders, s.refresh p = s) :
    refreshLocks p orders = orders := by
  have each : ∀ o ∈ orders, (o.mapSteps fun steps => steps.map (·.refresh p)) = o := by
    intro o drive
    have same : o.steps.map (·.refresh p) = id o.steps := by
      rw [List.map_congr_left fun s step => fresh s (List.mem_flatMap.mpr ⟨o, drive, step⟩)]
      exact List.map_id' _
    rw [DriveOrder.mapSteps_congr same, DriveOrder.mapSteps_id]
  rw [refreshLocks, List.map_congr_left each, List.map_id']

theorem refreshLocks_restrict (fallback : Fallback) (source : PointId) (orders : List DriveOrder) :
    refreshLocks p (restrict fallback source (refreshLocks p orders)) =
      restrict fallback source (refreshLocks p orders) := by
  refine refreshLocks_of_fresh fun s member => ?_
  have same := congrArg allSteps (unjudged_restrict fallback source (refreshLocks p orders))
  rw [allSteps_seen, allSteps_seen, allSteps_refreshLocks, List.map_map] at same
  have seen := List.mem_map_of_mem (f := Step.unjudged) member
  rw [same] at seen
  obtain ⟨step, -, alike⟩ := List.mem_map.mp seen
  -- a mark hides neither the path nor the note that was made of it
  have path : step.path = s.path := congrArg (fun s => s.path) alike
  have note : (p.path? step.path).all (·.locked) = s.locked := congrArg (fun s => s.locked) alike
  rw [path] at note
  rw [Step.refresh, note]

/-- A plan stays as it is if locks are to be ignored or none of its steps is locked. Otherwise the
    vehicle may go on up to the first locked step, or to the first one from the point from which it
    could have been rerouted, and no further, through all drive orders and whatever was marked
    before. Marking changes nothing else and is done once and for all. Looking the locks up changes
    nothing but what is noted of them, and finds a plan that was marked after it was looked up as it
    is. -/
theorem restrict_follows_fallback (source : PointId) (orders : List DriveOrder) (p : Plant) :
    restrict .ignorePathLocks source orders = orders ∧
      ((∀ s ∈ allSteps orders, s.locked = false) →
        ∀ fallback, restrict fallback source orders = orders) ∧
      ((∃ s ∈ allSteps orders, s.locked = true) →
        (∀ (k : Nat) s, (allSteps (restrict .pauseAtPathLock source orders))[k]? = some s →
          (s.allowed = true ↔
            ∀ j ≤ k, ∀ s', (allSteps orders)[j]? = some s' → s'.locked = false)) ∧
        (∀ (k : Nat) s, (allSteps (restrict .pauseImmediately source orders))[k]? = some s →
          (s.allowed = true ↔
            ∀ j ≤ k, ∀ s', (allSteps orders)[j]? = some s' → s'.source ≠ source)) ∧
        ∀ fallback, fallback ≠ .ignorePathLocks →
          StopsForGood (restrict fallback source orders) ∧
          ∀ orders', orders'.map (·.seen Step.unjudged) = orders.map (·.seen Step.unjudged) →
            restrict fallback source orders' = restrict fallback source orders) ∧
      (∀ fallback,
        (StopsForGood orders → StopsForGood (restrict fallback source orders)) ∧
        (restrict fallback source orders).map (·.seen Step.unjudged) =
          orders.map (·.seen Step.unjudged) ∧
        restrict fallback source (restrict fallback source orders) =
          restrict fallback source orders ∧
        refreshLocks p (restrict fallback source (refreshLocks p orders)) =
          restrict fallback source (refreshLocks p orders)) ∧
      (∀ s ∈ allSteps (refreshLocks p orders),
        s.locked = true ↔ p.path? s.path = none ∨ p.pathLocked s.path = true) ∧
      (refreshLocks p orders).map (·.seen Step.unnoted) = orders.map (·.seen Step.unnoted) := by
  refine ⟨restrict_of_unlocked (.inl rfl), fun free fallback => restrict_of_unlocked (.inr ?_),
    fun some => ?_, fun fallback => ⟨fun stops => ?_, unjudged_restrict .., restrict_restrict ..,
      refreshLocks_restrict ..⟩, fun s member => ?_, ?_⟩
  · simpa [containsLocked_eq] using free
  · have locked : containsLocked orders = true := by
      rw [containsLocked_eq, List.any_eq_true]
      exact some
    refine ⟨fun k s found => ?_, fun k s found => ?_, fun fallback pauses => ?_⟩
    · rw [allowed_restrict_iff (by decide) locked found]
      simp only [ExecutionTest.permits, Bool.not_eq_true']
    · rw [allowed_restrict_iff (by decide) locked found]
      simp only [ExecutionTest.permits, decide_eq_true_eq]
    · exact ⟨stopsForGood_restrict pauses locked, fun orders' => restrict_congr pauses locked⟩
  · by_cases idle : fallback = .ignorePathLocks ∨ containsLocked orders = false
    · rwa [restrict_of_unlocked idle]
    · obtain ⟨pauses, locked⟩ := not_or.mp idle
      exact stopsForGood_restrict pauses (by simpa using locked)
  · rw [allSteps_refreshLocks, List.mem_map] at member
    obtain ⟨step, -, rfl⟩ := member
    cases found : p.path? step.path <;> simp [Step.refresh, Plant.pathLocked, found]
  · exact @seen_refreshLocks Step.unnoted p (fun _ => rfl) orders

theorem restrict_follows_fallback_errand :
    let step (n : Nat) (allowed locked : Bool) : Step := {
      path := ⟨n⟩, source := ⟨n⟩, destination := ⟨n + 1⟩, direction := .forward, index := n
      allowed, locked }
    let orders : List DriveOrder := [
      { destination := ⟨2⟩, route := some { steps := [step 0 false false, step 1 true true] } },
      { destination := ⟨2⟩, operation := "LOAD" },
      { destination := ⟨3⟩, route := some { steps := [step 2 true false] } }]
    let marked := restrict .pauseAtPathLock ⟨0⟩ orders
    (∃ s ∈ allSteps orders, s.locked = true) ∧
      (∃ s, (allSteps marked)[0]? = some s ∧ s.allowed = true) ∧
      (∃ s, (allSteps marked)[2]? = some s ∧ s.allowed ≠ true) ∧
      (∃ s, (allSteps (restrict .pauseImmediately ⟨0⟩ orders))[0]? = some s ∧ s.allowed ≠ true) ∧
      restrict .pauseAtPathLock ⟨0⟩ marked = marked := by
  intro step orders marked
  have locked : ∃ s ∈ allSteps orders, s.locked = true := ⟨step 1 true true, by decide, rfl⟩
  obtain ⟨-, -, marks, all, -⟩ := restrict_follows_fallback ⟨0⟩ orders .empty
  obtain ⟨atLock, atOnce, -⟩ := marks locked
  refine ⟨locked, ⟨_, rfl, (atLock 0 _ rfl).mpr ?_⟩, ⟨_, rfl, fun allowed => ?_⟩,
    ⟨_, rfl, fun allowed => ?_⟩, (all .pauseAtPathLock).2.2.1⟩
  · intro j first s there
    cases Nat.le_zero.mp first
    cases there
    rfl
  · cases (atLock 2 _ rfl).mp allowed 1 (by decide) _ rfl
  · exact (atOnce 0 _ rfl).mp allowed 0 (by decide) _ rfl rfl

end TrafficControl
