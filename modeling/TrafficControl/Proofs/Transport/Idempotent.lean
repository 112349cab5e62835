import TrafficControl.Proofs.Transport.AllOrNothing
import TrafficControl.Proofs.Transport.Connected
import TrafficControl.Proofs.Transport.Itinerary
import TrafficControl.Proofs.Transport.Restricting
import TrafficControl.Proofs.Transport.SameWays

namespace TrafficControl

theorem OrderBook.order?_insert {b : OrderBook} (keeps : b.bookkeeping = .keeps)
    (order : TransportOrder) : (b.insert order).order? order.name = some order := by
  have still : (b.insert order).bookkeeping = .keeps := keeps
  rw [order?_of_keeps still]
  exact Table.get?_insert_self

theorem TransportOrder.isEmpty_unfinished {t : TransportOrder} {current : DriveOrder}
    (driving : t.current? = some current) : t.unfinished.isEmpty = false := by
  rw [unfinished_of_current? driving]
  rfl

namespace DriveOrder

variable {o o' : DriveOrder}

theorem steps_of_unmarked (same : o.unmarked = o'.unmarked) :
    o.steps.map Step.unmarked = o'.steps.map Step.unmarked := by
  rw [← steps_unmarked, same, steps_unmarked]

theorem routeEnd?_of_unmarked (same : o.unmarked = o'.unmarked) : o.routeEnd? = o'.routeEnd? := by
  have lasts := congrArg (·.getLast?.map Prod.snd) (ends_of_unmarked (steps_of_unmarked same))
  simp only [List.getLast?_map, Option.map_map] at lasts
  rw [routeEnd?_eq, routeEnd?_eq]
  exact lasts

end DriveOrder

namespace Router

variable {r : Router} {v : Vehicle} {old new spliced : DriveOrder}

theorem splice_ok_iff : (r.splice v old new).1 = .ok spliced ↔
    ∃ steps cost, spliceSteps old.steps new.steps = .ok steps ∧ r.price? v steps = some cost ∧
      spliced = { old with route := some { steps, cost } } := by
  constructor
  · intro h
    simp only [Router.splice] at h
    split at h
    · cases h
    · rename_i steps joined
      split at h
      · rename_i first last head final
        split at h
        · cases h
        · rename_i cost router asked
          cases h
          refine ⟨steps, cost, joined, ?_, rfl⟩
          rw [price?, head, final, Option.bind_some, Option.bind_some, asked]
          rfl
      · cases h
  · rintro ⟨steps, cost, joined, priced, rfl⟩
    simp only [price?, Option.bind_eq_some_iff] at priced
    obtain ⟨first, head, last, final, priced⟩ := priced
    simp only [Router.splice, joined, head, final]
    rcases asked : r.cost v first.source last.destination with ⟨fault | cost', router⟩
    · rw [asked] at priced
      cases priced
    · rw [asked] at priced
      cases priced
      rfl

theorem splice_again {new' : DriveOrder} (h : (r.splice v old new).1 = .ok spliced)
    (same : SameSteps new'.steps new.steps) : (r.splice v spliced new').1 = .ok spliced := by
  obtain ⟨steps, cost, joined, priced, rfl⟩ := splice_ok_iff.mp h
  refine splice_ok_iff.mpr ⟨steps, cost, ?_, priced, rfl⟩
  exact (spliceSteps_congr (.refl _) same).trans (spliceSteps_again joined)

theorem routeEnd?_splice (h : (r.splice v old new).1 = .ok spliced) :
    spliced.routeEnd? = new.routeEnd? := by
  rw [DriveOrder.routeEnd?_eq, DriveOrder.routeEnd?_eq]
  exact getLast?_spliceSteps (splice_ok h)

end Router

namespace Fleet

variable {f g : Fleet} {v : VehicleReport} {former : TransportOrder} {source : PointId}

/-- Both fleets have what is asked for the vehicle at hand, and it is the same. -/
structure Alike (v : Vehicle) (f g : Fleet) : Prop where
  atHand : ∃ n, f.router.AtHand v n ∧ g.router.AtHand v n
  plant : g.plant = f.plant
  fallback : g.fallback = f.fallback

namespace Alike

variable (alike : Alike v.vehicle f g)

include alike

theorem sameWays : SameWays v.vehicle f g := by
  obtain ⟨n, atHand, atHand'⟩ := alike.atHand
  refine ⟨alike.plant, alike.fallback, ?_⟩
  rw [atHand.navigator, atHand'.navigator]
  exact .refl n

theorem replan (source : PointId) (orders : List DriveOrder) :
    g.replan v source orders = ((f.replan v source orders).1, g) := by
  obtain ⟨n, -, atHand⟩ := alike.atHand
  exact Prod.ext (alike.sameWays.replan source orders) (replan_atHand atHand source orders)

theorem splice (old new : DriveOrder) :
    g.router.splice v.vehicle old new = ((f.router.splice v.vehicle old new).1, g.router) := by
  obtain ⟨n, -, atHand⟩ := alike.atHand
  exact Prod.ext (Router.splice_congr alike.sameWays.ways old new) (atHand.splice old new)

theorem adjoin_again {current first : DriveOrder} {rest joined : List DriveOrder}
    (h : (f.adjoin v (some current) source (first :: rest)).1 = .ok joined)
    (goesOn : current.routeEnd? ≠ some source → first.routeEnd? ≠ some source) :
    ∃ current', joined = current' :: rest ∧
      (current' = current ∨ current' = first ∨
        spliceSteps current.steps first.steps = .ok current'.steps) ∧
      ∀ first', SameSteps first'.steps first.steps → (current' = first → first' = first) →
        g.adjoin v (some current') source (first' :: rest) = (.ok joined, g) := by
  by_cases processing : v.activity = .processingOrder
  · simp only [Fleet.adjoin, processing, ne_eq, not_true_eq_false, if_false] at h ⊢
    split at h
    · rename_i ends
      cases h
      refine ⟨current, rfl, .inl rfl, fun first' _ _ => ?_⟩
      rw [if_pos ends]
    · rename_i unfinished
      rcases stage : f.router.splice v.vehicle current first with ⟨fault | spliced, router⟩
      · rw [stage] at h
        cases h
      · rw [stage] at h
        cases h
        have joins : (f.router.splice v.vehicle current first).1 = .ok spliced := by rw [stage]
        have apart : spliced.routeEnd? ≠ some source := by
          rw [Router.routeEnd?_splice joins]
          exact goesOn unfinished
        refine ⟨spliced, rfl, .inr (.inr (Router.splice_ok joins)), fun first' same _ => ?_⟩
        rw [if_neg apart, alike.splice, Router.splice_again joins same]
  · simp only [Fleet.adjoin, processing, ne_eq, not_false_eq_true, if_true] at h ⊢
    cases h
    refine ⟨first, rfl, .inr (.inl rfl), fun first' _ same => ?_⟩
    rw [same rfl]

end Alike

section Replan

variable {current first current' : DriveOrder} {future rest plan orders orders' : List DriveOrder}
  {outcome : RerouteOutcome}

theorem replan_rerouted_iff : (f.replan v source orders).1 = .ok (plan, .rerouted) ↔
    ∃ routes, (f.router.legs v.vehicle source (orders.map (·.destination))).1 = .ok (some routes) ∧
      List.zipWith rerouteOrder orders routes = plan := by
  unfold replan
  split <;> (rename_i asked; simp [asked])

theorem replan_restricted_iff : (f.replan v source orders).1 = .ok (plan, .restricted) ↔
    (f.router.legs v.vehicle source (orders.map (·.destination))).1 = .ok none ∧
      restrict f.fallback source (refreshLocks f.plant orders) = plan := by
  unfold replan
  split <;> (rename_i asked; simp [asked])

theorem rerouteOrder_unrouted (orders : List DriveOrder) (routes : List Route) :
    List.zipWith rerouteOrder (orders.map DriveOrder.unrouted) routes =
      List.zipWith rerouteOrder orders routes := List.zipWith_map_left ..

theorem map_destination_of_unrouted
    (same : orders'.map DriveOrder.unrouted = orders.map DriveOrder.unrouted) :
    orders'.map (·.destination) = orders.map (·.destination) := by
  have points := congrArg (List.map DriveOrder.destination) same
  rwa [List.map_map, List.map_map] at points

theorem unmarked_of_restricted
    (h : (f.replan v source (current :: future)).1 = .ok (first :: rest, .restricted)) :
    first.unmarked = current.unmarked :=
  (List.cons.inj (replan_restricted (Prod.ext h rfl)).1).1

theorem routeEnd?_replan (sound : f.router.Sound)
    (h : (f.replan v source (current :: future)).1 = .ok (first :: rest, outcome))
    (goesOn : current.routeEnd? ≠ some source) : first.routeEnd? ≠ some source := by
  cases outcome with
  | notProcessingOrder => exact absurd rfl (outcome_of_replan (Prod.ext h rfl))
  | rerouted =>
    obtain ⟨first', rest', same, -, away⟩ := replan_ok sound (Prod.ext h rfl)
    cases same
    intro ends
    rw [DriveOrder.routeEnd?_eq, Option.map_eq_some_iff] at ends
    obtain ⟨last, final, back⟩ := ends
    exact away last (List.mem_of_getLast? final) back
  | restricted => rwa [DriveOrder.routeEnd?_of_unmarked (unmarked_of_restricted h)]

/-- The plan for what was joined to a plan is that plan, for the numbers of its first steps. -/
theorem replan_again (h : (f.replan v source (current :: future)).1 = .ok (first :: rest, outcome))
    (same : (current' :: rest).map DriveOrder.unrouted =
      (current :: future).map DriveOrder.unrouted)
    (joins : current' = current ∨ current' = first ∨
      spliceSteps current.steps first.steps = .ok current'.steps) :
    ∃ first', (f.replan v source (current' :: rest)).1 = .ok (first' :: rest, outcome) ∧
      SameSteps first'.steps first.steps ∧ (current' = first → first' = first) := by
  have destinations := map_destination_of_unrouted same
  cases outcome with
  | notProcessingOrder => exact absurd rfl (outcome_of_replan (Prod.ext h rfl))
  | rerouted =>
    obtain ⟨routes, asked, planned⟩ := replan_rerouted_iff.mp h
    refine ⟨first, replan_rerouted_iff.mpr ⟨routes, ?_, ?_⟩, .refl _, fun _ => rfl⟩
    · rw [destinations, asked]
    · rw [← planned, ← rerouteOrder_unrouted, same, rerouteOrder_unrouted]
  | restricted =>
    obtain ⟨asked, planned⟩ := replan_restricted_iff.mp h
    have alike : SameSteps current'.steps current.steps ∨ SameSteps current'.steps first.steps := by
      rcases joins with rfl | rfl | spliced
      · exact .inl (.refl _)
      · exact .inr (.refl _)
      · have marks := DriveOrder.steps_of_unmarked (unmarked_of_restricted h)
        rw [spliceSteps_unmarked marks spliced]
        exact .inr (sameSteps_renumber first.steps)
    obtain ⟨first', again, steps, own⟩ := restrict_again planned alike
    exact ⟨first', replan_restricted_iff.mpr ⟨by rw [destinations, asked], again⟩, steps, own⟩

end Replan

/-- The fleet with an order in its book and its routes selected. A vehicle that is on its way was
    handed the order. -/
def install (f : Fleet) (v : VehicleReport) (order : TransportOrder) : Fleet where
  router := f.router.select v.vehicle.id (order.driveOrders.filterMap (·.route))
  fallback := f.fallback
  book := f.book.insert order
  controllers :=
    if v.activity = .processingOrder then
      f.controllers.insert v.vehicle.name { f.controller v.vehicle.name with order := some order }
    else f.controllers

theorem adopt_of_keeps (keeps : f.book.bookkeeping = .keeps)
    (stored : f.book.orders.get? former.name = some former) (plan : List DriveOrder) :
    f.adopt v former plan =
      (.ok (), f.install v { former with driveOrders := former.past ++ plan }) := by
  have entered : f.book.update former.name (former.past ++ plan) =
      .ok (f.book.insert { former with driveOrders := former.past ++ plan }) := by
    simp only [OrderBook.update, keeps, reduceCtorEq, if_false, stored, OrderBook.insert,
      Bookkeeping.noteUpdate]
  have found := OrderBook.order?_insert keeps { former with driveOrders := former.past ++ plan }
  by_cases processing : v.activity = .processingOrder
  · simp only [adopt, entered, handOver, found, processing, ne_eq, not_true_eq_false, if_false,
      install, if_true]
    rfl
  · simp only [adopt, entered, handOver, processing, ne_eq, not_false_eq_true, if_true, install,
      if_false]

theorem controller_install (processing : v.activity = .processingOrder) (order : TransportOrder) :
    (f.install v order).controllers.get? v.vehicle.name =
      some { f.controller v.vehicle.name with order := some order } := by
  simp only [install, processing, if_true, Table.get?_insert_self]

theorem install_install (order : TransportOrder) :
    (f.install v order).install v order = f.install v order := by
  have book : (f.install v order).book.insert order = (f.install v order).book :=
    congrArg (OrderBook.mk · _) (Table.insert_of_get? Table.get?_insert_self)
  have router : (f.install v order).router.select v.vehicle.id
      (order.driveOrders.filterMap (·.route)) = (f.install v order).router :=
    congrArg (Router.mk _ _ _ _ · _) (Table.insert_of_get? Table.get?_insert_self)
  by_cases processing : v.activity = .processingOrder
  · have known := controller_install (f := f) processing order
    rw [install, book, router, if_pos processing, controller, known, Option.getD_some,
      Table.insert_of_get? known]
  · rw [install, book, router, if_neg processing]

theorem adopt_install (keeps : f.book.bookkeeping = .keeps) {order : TransportOrder}
    {plan : List DriveOrder} (whole : order.past ++ plan = order.driveOrders) :
    (f.install v order).adopt v order plan = (.ok (), f.install v order) := by
  have still : (f.install v order).book.bookkeeping = .keeps := keeps
  rw [adopt_of_keeps still Table.get?_insert_self, whole]
  exact congrArg (Except.ok (), ·) (install_install order)

theorem keeps_of_adopt (lasting : f.book.Lasting) {plan : List DriveOrder}
    (h : (f.adopt v former plan).1 = .ok ()) : f.book.bookkeeping = .keeps := by
  cases kind : f.book.bookkeeping with
  | keeps => rfl
  | loses updated => exact absurd kind (lasting updated)
  | refuses =>
    simp only [adopt, OrderBook.update, kind, if_true] at h
    cases h

def prepared (f : Fleet) (v : VehicleReport) : Fleet :=
  { f with router := (f.router.navigator v.vehicle).2 }

theorem atHand_prepared (f : Fleet) (v : VehicleReport) :
    (f.prepared v).router.AtHand v.vehicle (f.router.navigator v.vehicle).1 :=
  Router.atHand_navigator

theorem plant_prepared (f : Fleet) (v : VehicleReport) : (f.prepared v).plant = f.plant :=
  congrArg PlantVersions.current Router.navigator_basis.1

theorem rerouteFrom_prepared {current : DriveOrder} (driving : former.current? = some current) :
    f.rerouteFrom v former source = (f.prepared v).rerouteFrom v former source := by
  have asked {α : Type} (points : List PointId) (question : Navigator → α) :
      (f.prepared v).router.query v.vehicle points question =
        f.router.query v.vehicle points question := by
    simp only [Router.query, (f.atHand_prepared v).navigator]
    rfl
  have replanned : (f.prepared v).replan v source former.unfinished =
      f.replan v source former.unfinished := by
    simp only [replan, Router.legs, asked, plant_prepared]
    rfl
  have goesOn := TransportOrder.isEmpty_unfinished driving
  simp only [rerouteFrom, goesOn, replanned, Bool.false_eq_true, if_false]

theorem alike_install {n : Navigator} (atHand : f.router.AtHand v.vehicle n)
    (order : TransportOrder) : Alike v.vehicle f (f.install v order) :=
  ⟨⟨n, atHand, atHand⟩, rfl, rfl⟩

theorem rerouteFrom_eq {current : DriveOrder} {plan joined : List DriveOrder}
    {outcome : RerouteOutcome} {f₁ f₂ f₃ : Fleet} (driving : former.current? = some current)
    (replanned : f.replan v source former.unfinished = (.ok (plan, outcome), f₁))
    (adjoined : f₁.adjoin v (some current) source plan = (.ok joined, f₂))
    (adopted : f₂.adopt v former joined = (.ok (), f₃)) :
    f.rerouteFrom v former source = (.ok outcome, f₃) := by
  have goesOn := TransportOrder.isEmpty_unfinished driving
  simp only [rerouteFrom, goesOn, Bool.false_eq_true, if_false, replanned, driving, adjoined,
    adopted]

/-- Where the navigator is at hand, a reroute changes nothing before it takes the new plan over. -/
theorem rerouteFrom_ok_atHand {n : Navigator} {outcome : RerouteOutcome}
    (atHand : f.router.AtHand v.vehicle n)
    (h : f.rerouteFrom v former source = (.ok outcome, g)) :
    ∃ plan joined, f.replan v source former.unfinished = (.ok (plan, outcome), f) ∧
      f.adjoin v former.current? source plan = (.ok joined, f) ∧
        f.adopt v former joined = (.ok (), g) := by
  obtain ⟨f₁, f₂, plan, joined, replanned, adjoined, adopted⟩ := rerouteFrom_ok h
  have kept : f₁ = f := (congrArg Prod.snd replanned).symm.trans (replan_atHand atHand ..)
  subst kept
  have kept' : f₂ = f₁ := (congrArg Prod.snd adjoined).symm.trans (adjoin_atHand atHand ..)
  subst kept'
  exact ⟨plan, joined, replanned, adjoined, adopted⟩

theorem rerouteFrom_again {n : Navigator} {outcome : RerouteOutcome} (sound : f.router.Sound)
    (atHand : f.router.AtHand v.vehicle n) (lasting : f.book.Lasting)
    (stored : f.book.orders.get? former.name = some former)
    (h : f.rerouteFrom v former source = (.ok outcome, g)) :
    ∃ former', g = f.install v former' ∧ former'.name = former.name ∧
      f.book.bookkeeping = .keeps ∧ g.rerouteFrom v former' source = (.ok outcome, g) := by
  obtain ⟨current, driving⟩ := rerouteFrom_current h
  obtain ⟨plan, joined, replanned, adjoined, adopted⟩ := rerouteFrom_ok_atHand atHand h
  have keeps := keeps_of_adopt lasting (congrArg Prod.fst adopted)
  have planned := unrouted_replan replanned
  have kept := unrouted_adjoin planned adjoined
  let former' : TransportOrder := { former with driveOrders := former.past ++ joined }
  have inside : former.current < former.driveOrders.length :=
    (List.getElem?_eq_some_iff.mp driving).1
  have past : former'.past = former.past :=
    (TransportOrder.replanned_past kept (Nat.le_of_lt inside)).past
  rw [TransportOrder.unfinished_of_current? driving] at planned replanned kept
  obtain ⟨first, rest, rfl, -, -⟩ := List.map_eq_cons_iff.mp planned
  rw [driving] at adjoined
  rw [adopt_of_keeps keeps stored] at adopted
  obtain rfl : f.install v former' = g := congrArg Prod.snd adopted
  have alike := alike_install atHand former'
  have goesOn := routeEnd?_replan sound (congrArg Prod.fst replanned)
  obtain ⟨current', rfl, joins, adjoinsAgain⟩ :=
    alike.adjoin_again (congrArg Prod.fst adjoined) goesOn
  obtain ⟨first', plannedAgain, steps, own⟩ := replan_again (congrArg Prod.fst replanned) kept joins
  have driving' : former'.current? = (current' :: rest).head? :=
    TransportOrder.current?_of_past driving rfl rfl
  have unfinished' : former'.unfinished = current' :: rest :=
    TransportOrder.unfinished_of_past driving
  have whole : former'.past ++ (current' :: rest) = former'.driveOrders := by rw [past]
  have adopted' := adopt_install (v := v) keeps whole
  have replanned' : (f.install v former').replan v source former'.unfinished =
      (.ok (first' :: rest, outcome), f.install v former') := by
    rw [unfinished', alike.replan, plannedAgain]
  exact ⟨former', rfl, rfl, keeps,
    rerouteFrom_eq driving' replanned' (adjoinsAgain first' steps own) adopted'⟩

theorem order_of_notProcessingOrder (h : (f.reroute v).1 = .ok .notProcessingOrder) :
    v.order = none := by
  unfold reroute at h
  split at h
  · assumption
  · split at h
    · cases h
    · split at h
      · cases h
      · split at h
        · cases h
        · obtain ⟨_, _, _, _, replanned, _⟩ := rerouteFrom_ok (Prod.ext h rfl)
          exact absurd rfl (outcome_of_replan replanned)

theorem attached?_install {c : Controller} (h : f.attached? v.vehicle.name = some c)
    (order : TransportOrder) :
    ∃ c', (f.install v order).attached? v.vehicle.name = some c' ∧ c'.sent = c.sent := by
  by_cases processing : v.activity = .processingOrder
  · obtain ⟨known, attached⟩ := Option.filter_eq_some_iff.mp h
    have own : f.controller v.vehicle.name = c := by rw [controller, known, Option.getD_some]
    refine ⟨{ c with order := some order }, ?_, rfl⟩
    rw [attached?, controller_install processing, own, Option.filter_some]
    exact if_pos attached
  · refine ⟨c, ?_, rfl⟩
    simpa only [attached?, install, processing, if_false] using h

theorem source_congr {c c' : Controller} (plant : g.plant = f.plant) (sent : c'.sent = c.sent) :
    g.source v c' = f.source v c := by
  simp only [Fleet.source, sent, plant]

/-- A reroute that was answered is answered the same once more, and then nothing at all changes. -/
theorem reroute_idempotent (sound : f.Sound) (lasting : f.book.Lasting) {outcome : RerouteOutcome}
    (answered : (f.reroute v).1 = .ok outcome) :
    (f.reroute v).2.reroute v = (.ok outcome, (f.reroute v).2) := by
  by_cases nothing : outcome = .notProcessingOrder
  · subst nothing
    have carried := order_of_notProcessingOrder answered
    simp only [reroute, carried]
  · obtain ⟨name, former, c, source, carried, stored, attached, located, rerouted⟩ :=
      reroute_ok nothing answered
    rw [rerouted] at answered ⊢
    have done : f.rerouteFrom v former source = (.ok outcome, (f.rerouteFrom v former source).2) :=
      Prod.ext answered rfl
    obtain ⟨current, driving⟩ := rerouteFrom_current done
    have entered := OrderBook.get?_of_order? stored
    cases sound.book name former entered
    generalize (f.rerouteFrom v former source).2 = g at done ⊢
    rw [rerouteFrom_prepared driving] at done
    have still := (sound.router.navigator v.vehicle).2
    obtain ⟨former', rfl, name, keeps, again⟩ :=
      rerouteFrom_again still (f.atHand_prepared v) lasting entered done
    have found : ((f.prepared v).install v former').book.order? former.name = some former' := by
      rw [← name]
      exact OrderBook.order?_insert keeps former'
    obtain ⟨c', attached', sent⟩ := attached?_install (f := f.prepared v) attached former'
    have plant : ((f.prepared v).install v former').plant = f.plant := f.plant_prepared v
    have located' := (source_congr plant sent).trans located
    simp only [reroute, carried, found, attached', located', again]

theorem reroute_idempotent_junction : (sentOut.reroute agv).1 = .ok .rerouted ∧
    (sentOut.reroute agv).2.reroute agv = (.ok .rerouted, (sentOut.reroute agv).2) := by
  have sound : sentOut.Sound := sound_run (sound_ofSettings ..) _
  have lasting : sentOut.book.Lasting := fun updated => by decide_cbv
  have rerouted : (sentOut.reroute agv).1 = .ok .rerouted := by cbv
  exact ⟨rerouted, reroute_idempotent sound lasting rerouted⟩

end Fleet

end TrafficControl
