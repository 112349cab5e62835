import TrafficControl.Proofs.Transport.KeptPlan

namespace TrafficControl

namespace DriveOrder

def paths (o : DriveOrder) : List PathId := o.steps.map (·.path)

variable {o : DriveOrder} {change change' : List Step → List Step}

theorem steps_mapSteps (empty : change [] = []) : (o.mapSteps change).steps = change o.steps := by
  cases h : o.route <;> simp [mapSteps, steps, h, empty]

theorem steps_refresh (o : DriveOrder) (p : Plant) :
    (o.mapSteps fun steps => steps.map (·.refresh p)).steps = o.steps.map (·.refresh p) :=
  steps_mapSteps rfl

theorem mapSteps_congr (same : change o.steps = change' o.steps) :
    o.mapSteps change = o.mapSteps change' := by
  cases h : o.route with
  | none => simp [mapSteps, h]
  | some route =>
    rw [steps, h] at same
    simp only [mapSteps, h, Option.map_some]
    exact congrArg (fun steps => { o with route := some { route with steps } }) same

theorem mapSteps_mapSteps :
    (o.mapSteps change).mapSteps change' = o.mapSteps fun steps => change' (change steps) := by
  cases h : o.route <;> simp [mapSteps, h]

end DriveOrder

def restraint (fallback : Fallback) (source : PointId) (p : Plant) (orders : List DriveOrder) :
    Option ExecutionTest :=
  if fallback = .ignorePathLocks || !containsLocked (refreshLocks p orders) then none
  else some { fallback, source }

def stampSteps (p : Plant) (steps : List Step) : Option ExecutionTest →
    List Step × Option ExecutionTest
  | none => (steps.map (·.refresh p), none)
  | some t =>
    let (marked, t) := t.markSteps (steps.map (·.refresh p))
    (marked, some t)

def DriveOrder.stamp (o : DriveOrder) (p : Plant) (t : Option ExecutionTest) : DriveOrder :=
  o.mapSteps fun steps => (stampSteps p steps t).1

def stampOrders (p : Plant) (t : Option ExecutionTest) : List DriveOrder → List DriveOrder
  | [] => []
  | o :: rest => o.stamp p t :: stampOrders p (stampSteps p o.steps t).2 rest

section Stamps

variable {p : Plant} {t : Option ExecutionTest}

@[simp] theorem stampSteps_nil : (stampSteps p [] t).1 = [] := by
  cases t <;> rfl

@[simp] theorem DriveOrder.steps_stamp {o : DriveOrder} :
    (o.stamp p t).steps = (stampSteps p o.steps t).1 := DriveOrder.steps_mapSteps stampSteps_nil

theorem stampOrders_none (orders : List DriveOrder) :
    stampOrders p none orders = refreshLocks p orders := by
  induction orders with
  | nil => rfl
  | cons o rest ih => exact congrArg (_ :: ·) ih

theorem stampOrders_some (test : ExecutionTest) (orders : List DriveOrder) :
    stampOrders p (some test) orders = test.markOrders (refreshLocks p orders) := by
  induction orders generalizing test with
  | nil => rfl
  | cons o rest ih =>
    simp only [refreshLocks, List.map_cons, ExecutionTest.markOrders, DriveOrder.steps_refresh]
    rw [DriveOrder.mapSteps_mapSteps, ← refreshLocks, ← ih, stampOrders]
    exact congrArg (· :: _) (DriveOrder.mapSteps_congr rfl)

theorem markSteps_again (test : ExecutionTest) (steps : List Step) :
    test.markSteps ((test.markSteps (steps.map (·.refresh p))).1.map (·.refresh p)) =
      test.markSteps (steps.map (·.refresh p)) := by
  induction steps generalizing test with
  | nil => rfl
  | cons s rest ih =>
    -- what a step is marked with does not count when it is tested again
    have same : test.test { s.refresh p with allowed := (test.test (s.refresh p)).allowed } =
        test.test (s.refresh p) := rfl
    have later := ih (test.test (s.refresh p))
    simp only [List.map_cons, ExecutionTest.markSteps]
    rw [show ({ s.refresh p with allowed := (test.test (s.refresh p)).allowed } : Step).refresh p =
      { s.refresh p with allowed := (test.test (s.refresh p)).allowed } from rfl, same, later]

theorem stampSteps_again (steps : List Step) :
    stampSteps p (stampSteps p steps t).1 t = stampSteps p steps t := by
  cases t with
  | none =>
    simp only [stampSteps, List.map_map]
    rfl
  | some test => simp only [stampSteps, markSteps_again]

theorem markSteps_anywhere (test : ExecutionTest) (steps : List Step) :
    test.markSteps (steps.map Step.anywhere) =
      ((test.markSteps steps).1.map Step.anywhere, (test.markSteps steps).2) := by
  induction steps generalizing test with
  | nil => rfl
  | cons s rest ih =>
    have same : test.test s.anywhere = test.test s := rfl
    simp only [List.map_cons, ExecutionTest.markSteps, same, ih]
    rfl

theorem stampSteps_anywhere (steps : List Step) :
    stampSteps p (steps.map Step.anywhere) t =
      ((stampSteps p steps t).1.map Step.anywhere, (stampSteps p steps t).2) := by
  have refresh : (steps.map Step.anywhere).map (·.refresh p) =
      (steps.map (·.refresh p)).map Step.anywhere := by
    rw [List.map_map, List.map_map]
    rfl
  cases t with
  | none => simp only [stampSteps, refresh]
  | some test => simp only [stampSteps, refresh, markSteps_anywhere]

theorem stampSteps_congr {l m : List Step} (same : SameSteps l m) :
    SameSteps (stampSteps p l t).1 (stampSteps p m t).1 ∧
      (stampSteps p l t).2 = (stampSteps p m t).2 := by
  have stamped := stampSteps_anywhere (p := p) (t := t) l
  rw [show l.map Step.anywhere = m.map Step.anywhere from same, stampSteps_anywhere] at stamped
  exact ⟨(congrArg Prod.fst stamped).symm, (congrArg Prod.snd stamped).symm⟩

theorem restrict_refreshLocks (fallback : Fallback) (source : PointId) (orders : List DriveOrder) :
    restrict fallback source (refreshLocks p orders) =
      stampOrders p (restraint fallback source p orders) orders := by
  unfold restrict restraint
  split
  · rw [stampOrders_none]
  · rw [stampOrders_some]

theorem stampSteps_unmarked (steps : List Step) :
    (stampSteps p steps t).1.map Step.unmarked = steps.map Step.unmarked := by
  have refreshed : (steps.map (·.refresh p)).map Step.unmarked = steps.map Step.unmarked := by
    rw [List.map_map]
    rfl
  cases t with
  | none => exact refreshed
  | some test =>
    exact (@ExecutionTest.seen_markSteps Step.unmarked (fun _ _ => rfl) test _).trans refreshed

theorem DriveOrder.stamp_again (o : DriveOrder) : (o.stamp p t).stamp p t = o.stamp p t := by
  rw [stamp, stamp, mapSteps_mapSteps]
  exact mapSteps_congr (congrArg Prod.fst (stampSteps_again o.steps))

theorem stampOrders_again (orders : List DriveOrder) :
    stampOrders p t (stampOrders p t orders) = stampOrders p t orders := by
  induction orders generalizing t with
  | nil => rfl
  | cons o rest ih =>
    have passed := congrArg Prod.snd (stampSteps_again (p := p) (t := t) o.steps)
    simp only [stampOrders, DriveOrder.steps_stamp, DriveOrder.stamp_again, passed, ih]

theorem containsLocked_refreshLocks (orders : List DriveOrder) :
    containsLocked (refreshLocks p orders) = (orders.map DriveOrder.paths).any fun paths =>
      paths.any fun path => (p.path? path).all (·.locked) := by
  simp only [containsLocked, refreshLocks, DriveOrder.paths, List.any_map, Function.comp_def,
    DriveOrder.steps_refresh]
  rfl

theorem restraint_congr (fallback : Fallback) (source : PointId) {orders orders' : List DriveOrder}
    (same : orders.map DriveOrder.paths = orders'.map DriveOrder.paths) :
    restraint fallback source p orders = restraint fallback source p orders' := by
  simp only [restraint, containsLocked_refreshLocks, same]

theorem DriveOrder.paths_of_same {o o' : DriveOrder} (same : SameSteps o.steps o'.steps) :
    o.paths = o'.paths := by
  have paths := congrArg (List.map fun s : Step => s.path) same
  rwa [List.map_map, List.map_map] at paths

theorem DriveOrder.paths_stamp (o : DriveOrder) : (o.stamp p t).paths = o.paths := by
  have marks := stampSteps_unmarked (p := p) (t := t) o.steps
  have paths := congrArg (List.map fun s : Step => s.path) marks
  rw [List.map_map, List.map_map] at paths
  rw [DriveOrder.paths, DriveOrder.steps_stamp]
  exact paths

theorem paths_stampOrders (orders : List DriveOrder) :
    (stampOrders p t orders).map DriveOrder.paths = orders.map DriveOrder.paths := by
  induction orders generalizing t with
  | nil => rfl
  | cons o rest ih => rw [stampOrders, List.map_cons, List.map_cons, ih, o.paths_stamp]

/-- A plan that was restricted is restricted as before, also if its first drive order is the old one
    or has got other numbers. -/
theorem restrict_again {fallback : Fallback} {source : PointId}
    {current first current' : DriveOrder} {future rest : List DriveOrder}
    (h : restrict fallback source (refreshLocks p (current :: future)) = first :: rest)
    (alike : SameSteps current'.steps current.steps ∨ SameSteps current'.steps first.steps) :
    ∃ first', restrict fallback source (refreshLocks p (current' :: rest)) = first' :: rest ∧
      SameSteps first'.steps first.steps ∧ (current' = first → first' = first) := by
  rw [restrict_refreshLocks, stampOrders, List.cons.injEq] at h
  obtain ⟨rfl, later⟩ := h
  generalize held : restraint fallback source p (current :: future) = t at *
  have paths : current'.paths = current.paths := by
    rcases alike with old | stamped
    · exact DriveOrder.paths_of_same old
    · exact (DriveOrder.paths_of_same stamped).trans current.paths_stamp
  rw [DriveOrder.steps_stamp] at alike
  -- to the test, the drive order at the head is the one that was there before
  have head : SameSteps (stampSteps p current'.steps t).1 (stampSteps p current.steps t).1 ∧
      (stampSteps p current'.steps t).2 = (stampSteps p current.steps t).2 := by
    rcases alike with old | stamped
    · exact stampSteps_congr old
    · have congr := stampSteps_congr (p := p) (t := t) stamped
      rwa [stampSteps_again] at congr
  have still : restraint fallback source p (current' :: rest) = t := by
    rw [← held]
    apply restraint_congr
    rw [List.map_cons, List.map_cons, paths, ← later, paths_stampOrders]
  refine ⟨current'.stamp p t, ?_, ?_, ?_⟩
  · rw [restrict_refreshLocks, still, stampOrders, head.2, ← later, stampOrders_again]
  · rw [DriveOrder.steps_stamp, DriveOrder.steps_stamp]
    exact head.1
  · rintro rfl
    exact current.stamp_again

end Stamps

end TrafficControl
