import TrafficControl.Proofs.Route.Optimal
import TrafficControl.Proofs.Transport.SentSteps

namespace TrafficControl

def Step.unmarked (s : Step) : Step := { s with allowed := true, locked := false }

def Step.ends (s : Step) : PointId × PointId := (s.source, s.destination)

def DriveOrder.unmarked (o : DriveOrder) : DriveOrder := o.mapSteps fun steps => steps.map Step.unmarked

theorem renumber_unmarked (steps : List Step) :
    (renumber steps).map Step.unmarked = renumber (steps.map Step.unmarked) := by
  apply List.ext_getElem?
  intro k
  simp only [renumber, List.getElem?_map, List.getElem?_mapIdx, Option.map_map]
  rfl

theorem ends_renumber (steps : List Step) :
    (renumber steps).map Step.ends = steps.map Step.ends := by
  apply List.ext_getElem?
  intro k
  rw [List.getElem?_map, List.getElem?_map, renumber, List.getElem?_mapIdx, Option.map_map]
  rfl

theorem ends_of_unmarked {steps steps' : List Step}
    (same : steps.map Step.unmarked = steps'.map Step.unmarked) :
    steps.map Step.ends = steps'.map Step.ends := by
  have ends := congrArg (List.map Step.ends) same
  rwa [List.map_map, List.map_map] at ends

theorem spliceSteps_unmarked {old new steps : List Step}
    (same : new.map Step.unmarked = old.map Step.unmarked) (h : spliceSteps old new = .ok steps) :
    steps = renumber new := by
  obtain ⟨first, branch, head, found, rfl⟩ := spliceSteps_ok h
  have heads : old.head?.map Step.unmarked = some first.unmarked := by
    rw [← List.head?_map, ← same, List.head?_map, head, Option.map_some]
  obtain ⟨start, head', alike⟩ := Option.map_eq_some_iff.mp heads
  obtain ⟨later, rfl⟩ := List.head?_eq_some_iff.mp head'
  -- the new way starts where the old one does, so nothing is kept of the old one before it
  have source : start.source = first.source := congrArg (fun s => s.source) alike
  simp only [List.findIdx?_cons, source, decide_true, if_true, Option.some.injEq] at found
  rw [← found, List.take_zero, List.nil_append]

namespace DriveOrder

variable {o o' : DriveOrder}

theorem steps_unmarked (o : DriveOrder) : o.unmarked.steps = o.steps.map Step.unmarked := by
  cases h : o.route <;> simp [unmarked, mapSteps, steps, h]

def seen (view : Step → Step) (o : DriveOrder) : DriveOrder := o.mapSteps (List.map view)

theorem seen_mapSteps {view : Step → Step} {change : List Step → List Step}
    (same : (change o.steps).map view = o.steps.map view) :
    (o.mapSteps change).seen view = o.seen view := by
  cases h : o.route with
  | none => simp [seen, mapSteps, h]
  | some route =>
    rw [steps, h] at same
    simpa [seen, mapSteps, h] using same

end DriveOrder

section Seen

variable {view : Step → Step}

theorem seen_refreshLocks {p : Plant} (hides : ∀ s : Step, view (s.refresh p) = view s)
    (orders : List DriveOrder) :
    (refreshLocks p orders).map (·.seen view) = orders.map (·.seen view) := by
  rw [refreshLocks, List.map_map]
  refine List.map_congr_left fun o _ => DriveOrder.seen_mapSteps ?_
  rw [List.map_map]
  exact List.map_congr_left fun s _ => hides s

variable (hides : ∀ (s : Step) (allowed : Bool), view { s with allowed } = view s)
include hides

theorem ExecutionTest.seen_markSteps (t : ExecutionTest) (steps : List Step) :
    (t.markSteps steps).1.map view = steps.map view := by
  induction steps generalizing t with
  | nil => rfl
  | cons s rest ih => simp only [markSteps, List.map_cons, ih, hides]

theorem ExecutionTest.seen_markOrders (t : ExecutionTest) (orders : List DriveOrder) :
    (t.markOrders orders).map (·.seen view) = orders.map (·.seen view) := by
  induction orders generalizing t with
  | nil => rfl
  | cons o rest ih =>
    simp only [markOrders, List.map_cons, ih]
    rw [DriveOrder.seen_mapSteps (t.seen_markSteps hides o.steps)]

theorem seen_restrict (fallback : Fallback) (source : PointId) (orders : List DriveOrder) :
    (restrict fallback source orders).map (·.seen view) = orders.map (·.seen view) := by
  unfold restrict
  split
  · rfl
  · exact ExecutionTest.seen_markOrders hides _ orders

end Seen

theorem unmarked_restrict_refreshLocks (fallback : Fallback) (source : PointId) (p : Plant)
    (orders : List DriveOrder) :
    (restrict fallback source (refreshLocks p orders)).map DriveOrder.unmarked =
      orders.map DriveOrder.unmarked :=
  (@seen_restrict Step.unmarked (fun _ _ => rfl) fallback source _).trans
    (@seen_refreshLocks Step.unmarked p (fun _ => rfl) orders)

namespace Router

def price? (r : Router) (v : Vehicle) (steps : List Step) : Option Cost :=
  steps.head?.bind fun first => steps.getLast?.bind fun last =>
    (r.cost v first.source last.destination).1.toOption

variable {r : Router} {v : Vehicle} {old new spliced : DriveOrder}

theorem price?_congr {l m : List Step} (same : l.map Step.ends = m.map Step.ends) :
    r.price? v l = r.price? v m := by
  have heads : l.head?.map Step.ends = m.head?.map Step.ends := by
    rw [← List.head?_map, same, List.head?_map]
  have lasts : l.getLast?.map Step.ends = m.getLast?.map Step.ends := by
    rw [← List.getLast?_map, same, List.getLast?_map]
  have factor : ∀ l : List Step, r.price? v l = (l.head?.map Step.ends).bind fun first =>
      (l.getLast?.map Step.ends).bind fun last => (r.cost v first.1 last.2).1.toOption := by
    intro l
    rw [price?]
    cases l.head? <;> cases l.getLast? <;> rfl
  rw [factor, factor, heads, lasts]

theorem price?_again {α : Type} {points : List PointId} {question : Navigator → α}
    (steps : List Step) : (r.query v points question).2.price? v steps = r.price? v steps := by
  have same : ∀ p q, ((r.query v points question).2.cost v p q).1 = (r.cost v p q).1 :=
    fun p q => query_again
  simp only [price?, same]

theorem splice_unmarked (same : new.unmarked = old.unmarked)
    (h : (r.splice v old new).1 = .ok spliced) :
    ∃ cost, r.price? v old.steps = some cost ∧ spliced.unmarked =
      { old with route := some { steps := renumber old.steps, cost } : DriveOrder }.unmarked := by
  have same : new.steps.map Step.unmarked = old.steps.map Step.unmarked := by
    rw [← DriveOrder.steps_unmarked, same, DriveOrder.steps_unmarked]
  simp only [Router.splice] at h
  split at h
  · cases h
  · rename_i steps joined
    have whole := spliceSteps_unmarked same joined
    split at h
    · rename_i first last head final
      split at h
      · cases h
      · rename_i cost r' asked
        cases h
        have ends : steps.map Step.ends = old.steps.map Step.ends := by
          rw [whole, ends_renumber, ends_of_unmarked same]
        refine ⟨cost, ?_, ?_⟩
        · rw [← price?_congr ends, price?, head, final, Option.bind_some, Option.bind_some, asked]
          rfl
        · have marks : steps.map Step.unmarked = (renumber old.steps).map Step.unmarked := by
            rw [whole, renumber_unmarked, same, renumber_unmarked]
          simp only [DriveOrder.unmarked, DriveOrder.mapSteps, Option.map_some, marks]
    · cases h

end Router

namespace Fleet

variable {f f₁ : Fleet} {v : VehicleReport} {former : TransportOrder} {source : PointId}

/-- What a restriction makes of the current drive order, its marks aside: if the vehicle is on its way
    and has not been sent all of it, its route is numbered and priced anew. -/
def respliced (f : Fleet) (v : VehicleReport) (source : PointId) (o : DriveOrder) : DriveOrder :=
  if v.activity = .processingOrder ∧ o.routeEnd? ≠ some source then
    { o with route := (f.router.price? v.vehicle o.steps).map fun cost =>
        { steps := renumber o.steps, cost } }
  else o

theorem respliced_unmarked_iff {o : DriveOrder} (numbered : renumber o.steps = o.steps) :
    (f.respliced v source o).unmarked = o.unmarked ↔
      (v.activity = .processingOrder → o.routeEnd? ≠ some source →
        f.router.price? v.vehicle o.steps = o.route.map (·.cost)) := by
  unfold respliced
  split
  · rename_i goesOn
    simp only [goesOn.1, goesOn.2, ne_eq, not_false_eq_true, forall_const, numbered]
    obtain ⟨destination, operation, route, state⟩ := o
    cases route with
    | none => cases f.router.price? v.vehicle _ <;> simp [DriveOrder.unmarked, DriveOrder.mapSteps]
    | some route =>
      obtain ⟨steps, cost⟩ := route
      cases f.router.price? v.vehicle _ <;>
        simp [DriveOrder.unmarked, DriveOrder.mapSteps, DriveOrder.steps]
  · rename_i stays
    exact iff_of_true rfl fun processing goesOn => absurd ⟨processing, goesOn⟩ stays

theorem replan_restricted {orders plan : List DriveOrder}
    (h : f.replan v source orders = (.ok (plan, .restricted), f₁)) :
    plan.map DriveOrder.unmarked = orders.map DriveOrder.unmarked ∧
      ∀ o, f₁.respliced v source o = f.respliced v source o := by
  unfold replan at h
  split at h
  · cases h
  · cases h
  · rename_i router asked
    cases h
    refine ⟨unmarked_restrict_refreshLocks .., fun o => ?_⟩
    have again : router = (f.router.legs v.vehicle source (orders.map (·.destination))).2 :=
      (congrArg Prod.snd asked).symm
    have same : ∀ steps, router.price? v.vehicle steps = f.router.price? v.vehicle steps := by
      intro steps
      rw [again]
      exact Router.price?_again steps
    simp only [respliced, same]

theorem adjoin_unmarked {current first : DriveOrder} {rest joined : List DriveOrder}
    (same : first.unmarked = current.unmarked)
    (h : f.adjoin v (some current) source (first :: rest) = (.ok joined, f₁)) :
    ∃ current', joined = current' :: rest ∧
      current'.unmarked = (f.respliced v source current).unmarked := by
  unfold adjoin at h
  split at h
  · rename_i still
    cases h
    refine ⟨first, rfl, ?_⟩
    rw [respliced, if_neg fun goesOn => still goesOn.1, same]
  · rename_i processing
    have processing : v.activity = .processingOrder := Decidable.not_not.mp processing
    simp only at h
    split at h
    · rename_i ends
      cases h
      refine ⟨current, rfl, ?_⟩
      rw [respliced, if_neg fun goesOn => goesOn.2 ends]
    · rename_i goesOn
      split at h
      · cases h
      · rename_i spliced router stage
        cases h
        obtain ⟨cost, priced, marks⟩ := Router.splice_unmarked same (congrArg Prod.fst stage)
        refine ⟨spliced, rfl, ?_⟩
        rw [respliced, if_pos ⟨processing, goesOn⟩, priced, marks]
        rfl

theorem adopt_stored {order : TransportOrder} (stored : f.book.orders.get? former.name = some order)
    {plan : List DriveOrder} (h : f.adopt v former plan = (.ok (), f₁)) :
    f₁.book.orders.get? former.name =
      some { order with driveOrders := former.past ++ plan } := by
  simp only [adopt] at h
  split at h
  · cases h
  · rename_i book updated
    obtain ⟨before, same, orders⟩ := OrderBook.update_ok updated
    cases stored.symm.trans same
    split at h
    · cases h
    · rename_i f₂ handed
      cases h
      have kept := (handOver_fleet { f with book } v former.name).2
      rw [handed] at kept
      rw [kept, orders, Table.get?_insert_self]

theorem reroute_ok {outcome : RerouteOutcome} (carries : outcome ≠ .notProcessingOrder)
    (h : (f.reroute v).1 = .ok outcome) :
    ∃ name former c source, v.order = some name ∧ f.book.order? name = some former ∧
      f.attached? v.vehicle.name = some c ∧ f.source v c = .ok source ∧
        f.reroute v = f.rerouteFrom v former source := by
  unfold reroute at h ⊢
  split at h
  · cases h
    exact absurd rfl carries
  · rename_i name carried
    split at h
    · cases h
    · rename_i former stored
      split at h
      · cases h
      · rename_i c attached
        split at h
        · cases h
        · rename_i source located
          exact ⟨name, former, c, source, carried, stored, attached, located, rfl⟩

theorem rerouteFrom_current {outcome : RerouteOutcome}
    (h : f.rerouteFrom v former source = (.ok outcome, f₁)) :
    ∃ current, former.current? = some current := by
  unfold rerouteFrom at h
  split at h
  · cases h
  · rename_i unfinished
    rw [TransportOrder.unfinished, List.isEmpty_iff, List.drop_eq_nil_iff, Nat.not_le] at unfinished
    exact ⟨_, List.getElem?_eq_getElem unfinished⟩

/-- A plan that was restricted differs from the former one in marks only, but for the current drive
    order of a vehicle that is on its way to its end: that one is numbered and priced anew. If it was
    numbered well, then all is kept exactly if its route costs what the router says now. -/
theorem restricted_keeps_iff (named : f.book.Named) (restricted : (f.reroute v).1 = .ok .restricted) :
    ∃ name former former' current c source, v.order = some name ∧
      f.book.order? name = some former ∧ former.current? = some current ∧
      f.attached? v.vehicle.name = some c ∧ f.source v c = .ok source ∧
      (f.reroute v).2.book.orders.get? name = some former' ∧
      former'.name = former.name ∧ former'.current = former.current ∧
      former'.driveOrders.map DriveOrder.unmarked =
        (former.past ++ f.respliced v source current :: former.future).map DriveOrder.unmarked ∧
      (renumber current.steps = current.steps →
        (former'.driveOrders.map DriveOrder.unmarked = former.driveOrders.map DriveOrder.unmarked ↔
          (v.activity = .processingOrder → current.routeEnd? ≠ some source →
            f.router.price? v.vehicle current.steps = current.route.map (·.cost)))) := by
  obtain ⟨name, former, c, source, carried, stored, attached, located, rerouted⟩ :=
    reroute_ok (by decide) restricted
  rw [rerouted] at restricted ⊢
  have done : f.rerouteFrom v former source = (.ok .restricted, (f.rerouteFrom v former source).2) :=
    Prod.ext restricted rfl
  obtain ⟨current, driving⟩ := rerouteFrom_current done
  obtain ⟨f₁, f₂, plan, joined, replanned, adjoined, adopted⟩ := rerouteFrom_ok done
  have whole : former.driveOrders = former.past ++ current :: former.future := by
    rw [← TransportOrder.unfinished_of_current? driving]
    exact (List.take_append_drop former.current former.driveOrders).symm
  obtain ⟨marks, again⟩ := replan_restricted replanned
  rw [TransportOrder.unfinished_of_current? driving, List.map_cons] at marks
  obtain ⟨first, rest, rfl, same, later⟩ := List.map_eq_cons_iff.mp marks
  rw [driving] at adjoined
  obtain ⟨current', rfl, spliced⟩ := adjoin_unmarked same adjoined
  have book : f₂.book = f.book := by
    rw [← congrArg (·.2.book) adjoined, adjoin_book, ← congrArg (·.2.book) replanned, replan_book]
  have entered := OrderBook.get?_of_order? stored
  cases named name former entered
  rw [← book] at entered
  have result : (former.past ++ current' :: rest).map DriveOrder.unmarked =
      (former.past ++ f.respliced v source current :: former.future).map DriveOrder.unmarked := by
    simp only [List.map_append, List.map_cons, spliced, again, later]
  refine ⟨former.name, former, _, current, c, source, carried, stored, driving, attached, located,
    adopt_stored entered adopted, rfl, rfl, result, fun numbered => ?_⟩
  rw [result, whole, ← respliced_unmarked_iff numbered]
  simp only [List.map_append, List.map_cons, List.append_cancel_left_eq, List.cons.injEq, and_true]

def cutOff (destinations : List PointId) : Fleet :=
  (ofSettings junction {} .pauseAtPathLock .keeps).run
    [.attach "AGV-01", .enter "t1" agv.vehicle ⟨0⟩ destinations, .lock ⟨1⟩ true]

def parked : VehicleReport := { agv with point := some ⟨0⟩ }

theorem restricted_keeps_junction :
    ((cutOff [⟨1⟩, ⟨2⟩]).reroute parked).1 = .ok .restricted ∧
      ∃ former former', (cutOff [⟨1⟩, ⟨2⟩]).book.order? "t1" = some former ∧
        ((cutOff [⟨1⟩, ⟨2⟩]).reroute parked).2.book.orders.get? "t1" = some former' ∧
          former'.driveOrders.map DriveOrder.unmarked = former.driveOrders.map DriveOrder.unmarked := by
  have named : (cutOff [⟨1⟩, ⟨2⟩]).book.Named := (sound_run (sound_ofSettings ..) _).book
  have restricted : ((cutOff [⟨1⟩, ⟨2⟩]).reroute parked).1 = .ok .restricted := by decide_cbv
  obtain ⟨name, former, former', current, c, source, carried, stored, driving, -, -, kept, -, -, -,
    keeps⟩ := restricted_keeps_iff named restricted
  cases carried
  have order : (cutOff [⟨1⟩, ⟨2⟩]).book.order? "t1" = some { name := "t1", driveOrders := [
      { destination := ⟨1⟩, route := some { steps := outward.take 1, cost := 1000 } },
      { destination := ⟨2⟩, route := some { steps := renumber (outward.drop 1), cost := 1000 } }] } := by
    decide_cbv
  cases order.symm.trans stored
  cases driving
  refine ⟨restricted, _, former', stored, kept, (keeps rfl).mpr fun _ _ => ?_⟩
  decide_cbv

/-- The vehicle cannot get to C any more, and the way there is kept at an infinite cost. -/
theorem not_restricted_keeps_junction :
    ((cutOff [⟨2⟩]).reroute parked).1 = .ok .restricted ∧
      ∃ former former', (cutOff [⟨2⟩]).book.order? "t1" = some former ∧
        ((cutOff [⟨2⟩]).reroute parked).2.book.orders.get? "t1" = some former' ∧
          former.driveOrders.map (·.route.map (·.cost)) = [some 2000] ∧
            former'.driveOrders.map (·.route.map (·.cost)) = [some .infinite] ∧
              former'.driveOrders.map DriveOrder.unmarked ≠
                former.driveOrders.map DriveOrder.unmarked := by
  let barred : Step :=
    { path := ⟨1⟩, source := ⟨1⟩, destination := ⟨2⟩, direction := .forward, index := 1,
      allowed := false, locked := true }
  let driven (steps : List Step) (cost : Cost) : TransportOrder :=
    { name := "t1", driveOrders := [{ destination := ⟨2⟩, route := some { steps, cost } }] }
  exact ⟨by decide_cbv, driven outward 2000, driven (outward.take 1 ++ [barred]) .infinite,
    by decide_cbv, by decide_cbv, rfl, rfl, by decide⟩

end Fleet

end TrafficControl
