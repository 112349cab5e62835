import TrafficControl.Proofs.Transport.KeptPlan

namespace TrafficControl

theorem OrderBook.order?_of_keeps {b : OrderBook} (keeps : b.bookkeeping = .keeps) (name : String) :
    b.order? name = b.orders.get? name := by
  simp only [order?, keeps, Bookkeeping.hides, Bool.false_eq_true, if_false]

namespace OrderBook

variable {b b' : OrderBook} {name : String} {driveOrders : List DriveOrder}

theorem update_of_keeps (keeps : b.bookkeeping = .keeps) (h : b.update name driveOrders = .ok b') :
    b'.bookkeeping = .keeps ∧ ∃ order, b.order? name = some order ∧
      b'.order? name = some { order with driveOrders } ∧
        ∀ other, other ≠ name → b'.order? other = b.order? other := by
  have still : b'.bookkeeping = .keeps := by
    unfold update at h
    split at h
    · cases h
    · split at h
      · cases h
      · cases h
        simp only [keeps, Bookkeeping.noteUpdate]
  obtain ⟨order, found, orders⟩ := update_ok h
  refine ⟨still, order, ?_, ?_, fun other apart => ?_⟩
  · rw [order?_of_keeps keeps, found]
  · rw [order?_of_keeps still, orders, Table.get?_insert_self]
  · rw [order?_of_keeps still, order?_of_keeps keeps, orders, Table.get?_insert_of_ne apart]

end OrderBook

namespace Router

variable {r : Router} {v : Vehicle}

@[simp] theorem selected_navigator : (r.navigator v).2.selected = r.selected := by
  simp only [Router.navigator]
  split
  · split <;> rfl
  · rfl

@[simp] theorem selected_splice {old new : DriveOrder} :
    (r.splice v old new).2.selected = r.selected := by
  rcases r.splice_router v old new with same | ⟨p, q, asked⟩
  · rw [same]
  · rw [asked]
    exact selected_navigator

end Router

namespace Fleet

structure SamePlans (f g : Fleet) : Prop where
  book : g.book = f.book
  controllers : g.controllers = f.controllers
  selected : g.router.selected = f.router.selected

/-- The second fleet differs from the first in what is planned for one vehicle: the order is stored
    under its name, the routes in it are those selected for the vehicle, and if the vehicle is on its
    way it was handed the order. -/
structure Replans (f : Fleet) (v : VehicleReport) (order : TransportOrder) (g : Fleet) : Prop where
  stored : g.book.order? order.name = some order
  orders : ∀ name, name ≠ order.name → g.book.order? name = f.book.order? name
  selected : g.router.selected.get? v.vehicle.id = some (order.driveOrders.filterMap (·.route))
  selections : ∀ id, id ≠ v.vehicle.id → g.router.selected.get? id = f.router.selected.get? id
  handed : v.activity = .processingOrder → (g.controller v.vehicle.name).order = some order
  controllers : ∀ name, v.activity ≠ .processingOrder ∨ name ≠ v.vehicle.name →
    g.controllers.get? name = f.controllers.get? name

variable {f g h : Fleet} {v : VehicleReport} {former order : TransportOrder} {source : PointId}

theorem SamePlans.refl (f : Fleet) : f.SamePlans f := ⟨rfl, rfl, rfl⟩

theorem SamePlans.trans (first : f.SamePlans g) (second : g.SamePlans h) : f.SamePlans h where
  book := second.book.trans first.book
  controllers := second.controllers.trans first.controllers
  selected := second.selected.trans first.selected

theorem SamePlans.replans (same : f.SamePlans g) (replans : g.Replans v order h) :
    f.Replans v order h where
  stored := replans.stored
  orders name other := by rw [replans.orders name other, same.book]
  selected := replans.selected
  selections id other := by rw [replans.selections id other, same.selected]
  handed := replans.handed
  controllers name other := by rw [replans.controllers name other, same.controllers]

theorem replan_samePlans (f : Fleet) (v : VehicleReport) (source : PointId)
    (orders : List DriveOrder) : f.SamePlans (f.replan v source orders).2 := by
  rw [replan_fleet]
  exact ⟨rfl, rfl, Router.selected_navigator⟩

theorem adjoin_samePlans (f : Fleet) (v : VehicleReport) (current : Option DriveOrder)
    (source : PointId) (plan : List DriveOrder) :
    f.SamePlans (f.adjoin v current source plan).2 := by
  rcases f.adjoin_fleet v current source plan with same | ⟨old, new, spliced⟩
  · rw [same]
    exact .refl f
  · rw [spliced]
    exact ⟨rfl, rfl, Router.selected_splice⟩

theorem handOver_of_stored (v : VehicleReport) {name : String}
    (stored : f.book.order? name = some order) :
    ∃ g, f.handOver v name = (.ok (), g) ∧ g.book = f.book ∧ g.router = f.router ∧
      (v.activity = .processingOrder → (g.controller v.vehicle.name).order = some order) ∧
      ∀ other, v.activity ≠ .processingOrder ∨ other ≠ v.vehicle.name →
        g.controllers.get? other = f.controllers.get? other := by
  by_cases processing : v.activity = .processingOrder
  · let c := f.controller v.vehicle.name
    refine ⟨f.setController v.vehicle.name { c with order := some order }, ?_, rfl, rfl,
      fun _ => ?_, fun other apart => ?_⟩
    · simp only [handOver, processing, stored, ne_eq, not_true_eq_false, if_false, c]
    · simp only [controller, setController, Table.get?_insert_self, Option.getD_some]
    · exact Table.get?_insert_of_ne (apart.resolve_left (not_not_intro processing))
  · refine ⟨f, ?_, rfl, rfl, fun h => absurd h processing, fun _ _ => rfl⟩
    simp only [handOver, processing, ne_eq, not_false_eq_true, if_true]

theorem adopt_whole (keeps : f.book.bookkeeping = .keeps) (named : f.book.Named) (v : VehicleReport)
    (former : TransportOrder) (plan : List DriveOrder) :
    (∃ fault, f.adopt v former plan = (.error fault, f)) ∨
      ∃ order g, order.name = former.name ∧ f.adopt v former plan = (.ok (), g) ∧
        f.Replans v order g := by
  cases updated : f.book.update former.name (former.past ++ plan) with
  | error fault =>
    refine .inl ⟨fault, ?_⟩
    simp only [adopt, updated]
  | ok book =>
    obtain ⟨still, before, found, stored, others⟩ := OrderBook.update_of_keeps keeps updated
    have same : before.name = former.name :=
      named former.name before (OrderBook.get?_of_order? found)
    obtain ⟨g, handed, book', router, order, controllers⟩ :=
      handOver_of_stored (f := { f with book }) v stored
    refine .inr ⟨{ before with driveOrders := former.past ++ plan }, { g with
      router := g.router.select v.vehicle.id ((former.past ++ plan).filterMap (·.route)) },
      same, ?_, ?_⟩
    · simp only [adopt, updated, handed]
    · refine ⟨?_, fun name other => ?_, ?_, fun id other => ?_, order, controllers⟩
      · rw [← same] at stored
        rw [book']
        exact stored
      · rw [book']
        exact others name (same ▸ other)
      · exact Table.get?_insert_self
      · rw [Router.select, Table.get?_insert_of_ne other, router]

theorem outcome_of_replan {orders plan : List DriveOrder} {outcome : RerouteOutcome}
    (h : f.replan v source orders = (.ok (plan, outcome), g)) : outcome ≠ .notProcessingOrder := by
  unfold replan at h
  split at h <;> cases h <;> decide

theorem rerouteFrom_whole (keeps : f.book.bookkeeping = .keeps) (named : f.book.Named)
    (v : VehicleReport) (former : TransportOrder) (source : PointId) :
    (∃ fault, (f.rerouteFrom v former source).1 = .error fault ∧
        f.SamePlans (f.rerouteFrom v former source).2) ∨
      ∃ outcome order, outcome ≠ .notProcessingOrder ∧
        (f.rerouteFrom v former source).1 = .ok outcome ∧ order.name = former.name ∧
          f.Replans v order (f.rerouteFrom v former source).2 := by
  unfold rerouteFrom
  split
  · exact .inl ⟨_, rfl, .refl f⟩
  · have replanned := f.replan_samePlans v source former.unfinished
    split
    · rename_i stage
      rw [stage] at replanned
      exact .inl ⟨_, rfl, replanned⟩
    · rename_i plan outcome f₁ stage
      rw [stage] at replanned
      have adjoined := f₁.adjoin_samePlans v former.current? source plan
      split
      · rename_i stage'
        rw [stage'] at adjoined
        exact .inl ⟨_, rfl, replanned.trans adjoined⟩
      · rename_i joined f₂ stage'
        rw [stage'] at adjoined
        have same := replanned.trans adjoined
        rcases f₂.adopt_whole (same.book ▸ keeps) (same.book ▸ named) v former joined with
          ⟨fault, refused⟩ | ⟨order, g, name, adopted, replans⟩
        · rw [refused]
          exact .inl ⟨fault, rfl, same⟩
        · rw [adopted]
          exact .inr ⟨outcome, order, outcome_of_replan stage, rfl, name, same.replans replans⟩

theorem reroute_whole (keeps : f.book.bookkeeping = .keeps) (named : f.book.Named)
    (v : VehicleReport) :
    (∃ fault, (f.reroute v).1 = .error fault ∧ f.SamePlans (f.reroute v).2) ∨
      ((f.reroute v).1 = .ok .notProcessingOrder ∧ f.SamePlans (f.reroute v).2) ∨
        ∃ outcome order, outcome ≠ .notProcessingOrder ∧ (f.reroute v).1 = .ok outcome ∧
          v.order = some order.name ∧ f.Replans v order (f.reroute v).2 := by
  unfold reroute
  split
  · exact .inr (.inl ⟨rfl, .refl f⟩)
  · rename_i name carried
    split
    · exact .inl ⟨_, rfl, .refl f⟩
    · rename_i former stored
      split
      · exact .inl ⟨_, rfl, .refl f⟩
      · split
        · exact .inl ⟨_, rfl, .refl f⟩
        · rename_i source _
          rcases rerouteFrom_whole keeps named v former source with
            failed | ⟨outcome, order, planned, answered, own, replans⟩
          · exact .inl failed
          · have own : order.name = name :=
              own.trans (named name former (OrderBook.get?_of_order? stored))
            exact .inr (.inr ⟨outcome, order, planned, answered, own ▸ carried, replans⟩)

/-- A reroute that fails or finds nothing to do leaves all plans as they were. One that comes to a
    plan puts it in place of the vehicle's former one, in the order, with the controller and among
    the routes selected alike, and leaves all other plans as they were. -/
theorem reroute_all_or_nothing (keeps : f.book.bookkeeping = .keeps) (named : f.book.Named)
    (v : VehicleReport) :
    (∀ fault, (f.reroute v).1 = .error fault → f.SamePlans (f.reroute v).2) ∧
      ((f.reroute v).1 = .ok .notProcessingOrder → f.SamePlans (f.reroute v).2) ∧
      ((f.reroute v).1 = .ok .rerouted ∨ (f.reroute v).1 = .ok .restricted →
        ∃ order, v.order = some order.name ∧ f.Replans v order (f.reroute v).2) := by
  rcases reroute_whole keeps named v with
    ⟨fault, answered, same⟩ | ⟨answered, same⟩ | ⟨outcome, order, planned, answered, carried, replans⟩
  · refine ⟨fun _ _ => same, fun _ => same, fun h => ?_⟩
    rw [answered] at h
    rcases h with h | h <;> cases h
  · refine ⟨fun _ _ => same, fun _ => same, fun h => ?_⟩
    rw [answered] at h
    rcases h with h | h <;> cases h
  · refine ⟨fun fault h => ?_, fun h => ?_, fun _ => ⟨order, carried, replans⟩⟩
    · rw [answered] at h
      cases h
    · rw [answered] at h
      cases h
      exact absurd rfl planned

theorem reroute_all_or_nothing_junction :
    (sentOut.reroute agv).1 = .ok .rerouted ∧
      ∃ order, agv.order = some order.name ∧ sentOut.Replans agv order (sentOut.reroute agv).2 := by
  have named : sentOut.book.Named := (sound_run (sound_ofSettings ..) _).book
  have rerouted : (sentOut.reroute agv).1 = .ok .rerouted := by cbv
  exact ⟨rerouted, (reroute_all_or_nothing (by decide_cbv) named agv).2.2 (.inl rerouted)⟩

end Fleet

end TrafficControl
