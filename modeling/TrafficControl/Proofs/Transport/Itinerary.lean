import Mathlib
import TrafficControl.Proofs.Route.Batching
import TrafficControl.Proofs.Transport.KeptPlan

namespace TrafficControl

inductive SiteAction where
  | fleet (action : FleetAction)
  | router (action : RouterAction)

namespace SiteAction

def enters? : SiteAction → Option String
  | .fleet (.insert order) => some order.name
  | .fleet (.enter order ..) => some order
  | _ => none

def advances (name : String) : SiteAction → Bool
  | .fleet (.advance order) => order = name
  | _ => false

end SiteAction

def OrderBook.Lasting (b : OrderBook) : Prop := ∀ updated, b.bookkeeping ≠ .loses updated

namespace OrderBook

variable {b b' : OrderBook} {name : String}

theorem Lasting.update (lasting : b.Lasting) {driveOrders : List DriveOrder}
    (h : b.update name driveOrders = .ok b') : b'.bookkeeping = b.bookkeeping := by
  unfold OrderBook.update at h
  split at h
  · cases h
  · split at h
    · cases h
    · cases h
      cases kind : b.bookkeeping with
      | loses updated => exact absurd kind (lasting updated)
      | _ => rfl

theorem Lasting.order? (lasting : b.Lasting) (name : String) :
    b.order? name = b.orders.get? name := by
  unfold OrderBook.order?
  cases kind : b.bookkeeping with
  | loses updated => exact absurd kind (lasting updated)
  | _ => rfl

end OrderBook

def DriveOrder.unrouted (o : DriveOrder) : DriveOrder := { o with route := none }

theorem map_unrouted_of_unmarked {orders orders' : List DriveOrder}
    (same : orders.map DriveOrder.unmarked = orders'.map DriveOrder.unmarked) :
    orders.map DriveOrder.unrouted = orders'.map DriveOrder.unrouted := by
  have unrouted := congrArg (List.map DriveOrder.unrouted) same
  rwa [List.map_map, List.map_map] at unrouted

theorem map_unrouted_modify (orders : List DriveOrder) (place : Nat) (state : DriveState) :
    (orders.modify place fun o => { o with state }).map DriveOrder.unrouted =
      (orders.map DriveOrder.unrouted).modify place fun o => { o with state } := by
  apply List.ext_getElem?
  intro i
  simp only [List.getElem?_map, List.getElem?_modify]
  cases orders[i]? with
  | none => rfl
  | some o => by_cases here : place = i <;> simp [here, DriveOrder.unrouted]

namespace TransportOrder

variable {t t' t'' : TransportOrder} {j k : Nat}

def unrouted (t : TransportOrder) : TransportOrder :=
  { t with driveOrders := t.driveOrders.map DriveOrder.unrouted }

theorem past_current_future (t : TransportOrder) :
    t.past ++ t.current?.toList ++ t.future = t.driveOrders := by
  cases driving : t.current? with
  | some current =>
    have unfinished := unfinished_of_current? driving
    rw [Option.toList_some, List.append_assoc, List.singleton_append, ← unfinished]
    exact List.take_append_drop t.current t.driveOrders
  | none =>
    have beyond : t.driveOrders.length ≤ t.current := List.getElem?_eq_none_iff.mp driving
    rw [past, future, List.take_of_length_le beyond, List.drop_eq_nil_of_le (by omega)]
    simp

theorem current_advance (t : TransportOrder) : t.current ≤ t.advance.current := by
  simp only [advance]
  split <;> omega

theorem getElem?_advance_of_lt {i : Nat} (passed : i < t.current) :
    t.advance.driveOrders[i]? = t.driveOrders[i]? := by
  have later := t.current_advance
  have apart : t.advance.current ≠ i := by omega
  have apart' : t.current ≠ i := by omega
  exact (List.getElem?_modify_ne _ _ apart).trans (List.getElem?_modify_ne _ _ apart')

theorem past_advance (t : TransportOrder) : t.past <+: t.advance.past := by
  have kept : t.advance.past.take t.current = t.past := by
    apply List.ext_getElem?
    intro i
    rw [past, List.take_take, Nat.min_eq_left t.current_advance, past, List.getElem?_take,
      List.getElem?_take]
    split
    · exact getElem?_advance_of_lt ‹_›
    · rfl
  rw [← kept]
  exact List.take_prefix _ _

theorem unrouted_advance (t : TransportOrder) : t.advance.unrouted = t.unrouted.advance := by
  simp only [advance, unrouted, List.length_map, map_unrouted_modify]

structure Replanned (t t' : TransportOrder) : Prop where
  name : t'.name = t.name
  current : t'.current = t.current
  past : t'.past = t.past
  drives : t'.driveOrders.map DriveOrder.unrouted = t.driveOrders.map DriveOrder.unrouted

theorem Replanned.refl (t : TransportOrder) : t.Replanned t := ⟨rfl, rfl, rfl, rfl⟩

/-- The second order comes of the first by so many advances with other routes planned in between. -/
structure Continues (k : Nat) (t t' : TransportOrder) : Prop where
  past : t.past <+: t'.past
  drives : t'.unrouted = advance^[k] t.unrouted

theorem Continues.trans (first : Continues j t t') (second : Continues k t' t'') :
    Continues (k + j) t t'' where
  past := first.past.trans second.past
  drives := by rw [second.drives, first.drives, Function.iterate_add_apply]

theorem Replanned.continues (replanned : t.Replanned t') : Continues 0 t t' where
  past := replanned.past ▸ List.prefix_refl _
  drives := by
    simp only [unrouted, replanned.name, replanned.current, replanned.drives, Function.iterate_zero,
      id]

theorem continues_advance (t : TransportOrder) : Continues 1 t t.advance where
  past := t.past_advance
  drives := t.unrouted_advance

theorem replanned_past {plan : List DriveOrder}
    (same : plan.map DriveOrder.unrouted = t.unfinished.map DriveOrder.unrouted)
    (goesOn : t.current ≤ t.driveOrders.length) :
    t.Replanned { t with driveOrders := t.past ++ plan } where
  name := rfl
  current := rfl
  past := by
    have passed : t.past.length = t.current := List.length_take_of_le goesOn
    exact List.take_left' passed
  drives := by
    rw [List.map_append, same, ← List.map_append]
    exact congrArg _ (List.take_append_drop t.current t.driveOrders)

end TransportOrder

theorem DriveOrder.map_unrouted_rerouteOrder {orders : List DriveOrder} {routes : List Route}
    (each : routes.length = orders.length) :
    (List.zipWith Fleet.rerouteOrder orders routes).map DriveOrder.unrouted =
      orders.map DriveOrder.unrouted := by
  induction orders generalizing routes with
  | nil => rfl
  | cons o rest ih =>
    cases routes with
    | nil => cases each
    | cons route later =>
      rw [List.zipWith_cons_cons, List.map_cons, List.map_cons, ih (Nat.succ.inj each)]
      rfl

theorem Navigator.length_of_legs {n : Navigator} {source : PointId} {destinations : List PointId}
    {routes : List Route} (h : n.legs source destinations = some routes) :
    routes.length = destinations.length := by
  have lengths := congrArg List.length (Navigator.map_route_of_legs h)
  simp only [List.length_map, List.length_zip, List.length_cons] at lengths
  omega

theorem Router.unrouted_splice {r : Router} {v : Vehicle} {old new spliced : DriveOrder}
    (h : (r.splice v old new).1 = .ok spliced) : spliced.unrouted = old.unrouted := by
  simp only [Router.splice] at h
  split at h
  · cases h
  · split at h
    · split at h
      · cases h
      · cases h
        rfl
    · cases h

namespace Fleet

variable {f f₁ : Fleet} {v : VehicleReport} {former order : TransportOrder} {source : PointId}
  {name : String}

theorem unrouted_replan {orders plan : List DriveOrder} {outcome : RerouteOutcome}
    (h : f.replan v source orders = (.ok (plan, outcome), f₁)) :
    plan.map DriveOrder.unrouted = orders.map DriveOrder.unrouted := by
  unfold replan at h
  split at h
  · cases h
  · rename_i routes router asked
    cases h
    have answer : Router.ask (f.router.navigator v.vehicle).1
        (source :: orders.map (·.destination)) (·.legs source (orders.map (·.destination))) =
          .ok (some routes) := congrArg Prod.fst asked
    have each := Navigator.length_of_legs (Router.ask_ok answer).2
    rw [List.length_map] at each
    exact DriveOrder.map_unrouted_rerouteOrder each
  · cases h
    exact map_unrouted_of_unmarked (unmarked_restrict_refreshLocks ..)

theorem unrouted_adjoin {plan joined : List DriveOrder}
    (same : plan.map DriveOrder.unrouted = former.unfinished.map DriveOrder.unrouted)
    (h : f.adjoin v former.current? source plan = (.ok joined, f₁)) :
    joined.map DriveOrder.unrouted = former.unfinished.map DriveOrder.unrouted := by
  unfold adjoin at h
  split at h
  · cases h
    exact same
  · split at h
    · rename_i current first rest driving
      rw [TransportOrder.unfinished_of_current? driving, List.map_cons] at same ⊢
      obtain ⟨-, later⟩ := List.cons.inj same
      split at h
      · cases h
        rw [List.map_cons, later]
      · split at h
        · cases h
        · rename_i spliced router stage
          cases h
          rw [List.map_cons, later, Router.unrouted_splice (congrArg Prod.fst stage)]
    · cases h
      exact same

theorem adopt_book (f : Fleet) (v : VehicleReport) (former : TransportOrder)
    (plan : List DriveOrder) : (f.adopt v former plan).2.book = f.book ∨
      f.book.update former.name (former.past ++ plan) = .ok (f.adopt v former plan).2.book := by
  simp only [adopt]
  split
  · exact .inl rfl
  · rename_i book updated
    have kept := (handOver_fleet { f with book } v former.name).2
    split <;> (rename_i stage; rw [stage] at kept; exact .inr (kept ▸ updated))

/-- The order of that name is still in the book, at most replanned. -/
def Retains (f : Fleet) (name : String) (g : Fleet) : Prop :=
  ∀ order, f.book.orders.get? name = some order →
    ∃ order', g.book.orders.get? name = some order' ∧ order.Replanned order'

theorem retains_of_same {g : Fleet}
    (same : g.book.orders.get? name = f.book.orders.get? name) : f.Retains name g := by
  intro order stored
  exact ⟨order, same ▸ stored, .refl order⟩

theorem adopt_retains (stored : f.book.orders.get? former.name = some former)
    {plan : List DriveOrder}
    (same : plan.map DriveOrder.unrouted = former.unfinished.map DriveOrder.unrouted)
    (goesOn : former.current ≤ former.driveOrders.length) (name : String) :
    f.Retains name (f.adopt v former plan).2 := by
  rcases f.adopt_book v former plan with kept | updated
  · exact retains_of_same (by rw [kept])
  · obtain ⟨before, found, orders⟩ := OrderBook.update_ok updated
    cases stored.symm.trans found
    intro order known
    rw [orders, Table.get?_insert]
    split
    · rename_i own
      subst own
      cases stored.symm.trans known
      exact ⟨_, rfl, TransportOrder.replanned_past same goesOn⟩
    · exact ⟨order, known, .refl order⟩

theorem rerouteFrom_retains (stored : f.book.orders.get? former.name = some former)
    (name : String) : f.Retains name (f.rerouteFrom v former source).2 := by
  unfold rerouteFrom
  split
  · exact retains_of_same rfl
  · rename_i unfinished
    rw [TransportOrder.unfinished, List.isEmpty_iff, List.drop_eq_nil_iff, Nat.not_le] at unfinished
    have book := f.replan_book v source former.unfinished
    split
    · rename_i replanned
      rw [replanned] at book
      exact retains_of_same (by rw [book])
    · rename_i plan outcome f₁ replanned
      rw [replanned] at book
      have same := unrouted_replan replanned
      have book' := f₁.adjoin_book v former.current? source plan
      split
      · rename_i adjoined
        rw [adjoined] at book'
        exact retains_of_same (by rw [book', book])
      · rename_i joined f₂ adjoined
        rw [adjoined] at book'
        have book : f₂.book = f.book := book'.trans book
        have retains : f₂.Retains name (f₂.adopt v former joined).2 :=
          adopt_retains (book ▸ stored) (unrouted_adjoin same adjoined) (Nat.le_of_lt unfinished) _
        unfold Retains at retains ⊢
        rw [book] at retains
        split <;> (rename_i adopted; rw [adopted] at retains; exact retains)

theorem reroute_retains (named : f.book.Named) (v : VehicleReport) (name : String) :
    f.Retains name (f.reroute v).2 := by
  unfold reroute
  split
  · exact retains_of_same rfl
  · rename_i carried _
    split
    · exact retains_of_same rfl
    · rename_i former found
      have stored := OrderBook.get?_of_order? found
      cases named carried former stored
      split
      · exact retains_of_same rfl
      · split
        · exact retains_of_same rfl
        · exact rerouteFrom_retains stored name

def after (f : Fleet) : SiteAction → Fleet
  | .fleet action => f.next action
  | .router action => { f with router := f.router.next action }

def undergo (f : Fleet) (actions : List SiteAction) : Fleet := actions.foldl after f

theorem sound_after (sound : f.Sound) (a : SiteAction) : (f.after a).Sound := by
  cases a with
  | fleet action => exact sound.next action
  | router action => exact ⟨sound.router.next action, sound.book⟩

theorem sound_undergo (sound : f.Sound) (actions : List SiteAction) :
    (f.undergo actions).Sound := by
  induction actions generalizing f with
  | nil => exact sound
  | cons a rest ih => exact ih (sound_after sound a)

theorem lasting_adopt (lasting : f.book.Lasting) (v : VehicleReport) (former : TransportOrder)
    (plan : List DriveOrder) : (f.adopt v former plan).2.book.Lasting := by
  rcases f.adopt_book v former plan with kept | updated
  · rwa [kept]
  · unfold OrderBook.Lasting
    rwa [lasting.update updated]

theorem lasting_after (lasting : f.book.Lasting) (a : SiteAction) : (f.after a).book.Lasting := by
  cases a with
  | router action => exact lasting
  | fleet action =>
    cases action with
    | enter order v source destinations =>
      simp only [after, next, enter]
      split <;> exact lasting
    | advance order =>
      simp only [after, next, OrderBook.advance]
      split <;> exact lasting
    | lock path locked =>
      simp only [after, next, setLocked]
      split <;> exact lasting
    | reroute v =>
      refine reroute_keeps (P := fun g => g.book.Lasting) (fun g source orders lasting => ?_)
        (fun g current source plan lasting => ?_)
        (fun g former plan lasting => lasting_adopt lasting v former plan) lasting
      · rwa [replan_book]
      · rwa [adjoin_book]
    | _ => exact lasting

theorem insert_retains {book : OrderBook} (entered : TransportOrder) (other : entered.name ≠ name)
    (same : book = f.book.insert entered) {router : Router} :
    f.Retains name { f with router, book } := by
  apply retains_of_same
  rw [same]
  exact Table.get?_insert_of_ne other.symm

theorem after_retains (named : f.book.Named) {a : SiteAction} (apart : a.enters? ≠ some name)
    (idle : a.advances name = false) : f.Retains name (f.after a) := by
  cases a with
  | router action => exact retains_of_same rfl
  | fleet action =>
    cases action with
    | insert entered => exact insert_retains entered (fun same => apart (congrArg some same)) rfl
    | enter entered v source destinations =>
      have other : entered ≠ name := fun same => apart (congrArg some same)
      simp only [after, next, enter]
      split
      · exact insert_retains _ other rfl
      · exact retains_of_same rfl
    | advance advanced =>
      have other : advanced ≠ name := of_decide_eq_false idle
      simp only [after, next, OrderBook.advance]
      split
      · exact retains_of_same rfl
      · rename_i order found
        have own : order.advance.name = advanced :=
          named advanced order (OrderBook.get?_of_order? found)
        exact insert_retains _ (own ▸ other) rfl
    | lock path locked =>
      simp only [after, next, setLocked]
      split <;> exact retains_of_same rfl
    | reroute v => exact reroute_retains named v name
    | _ => exact retains_of_same rfl

theorem after_continues (named : f.book.Named) (stored : f.book.orders.get? name = some order)
    {a : SiteAction} (apart : a.enters? ≠ some name) :
    ∃ order' k, (f.after a).book.orders.get? name = some order' ∧ order.Continues k order' ∧
      k ≤ (a.advances name).toNat ∧ (f.book.Lasting → k = (a.advances name).toNat) := by
  cases told : a.advances name with
  | false =>
    obtain ⟨order', stored', replanned⟩ := after_retains named apart told order stored
    exact ⟨order', 0, stored', replanned.continues, Nat.le_refl 0, fun _ => rfl⟩
  | true =>
    have action : a = .fleet (.advance name) := by
      unfold SiteAction.advances at told
      split at told
      · rw [of_decide_eq_true told]
      · cases told
    subst action
    simp only [after, next, OrderBook.advance]
    split
    · rename_i hidden
      refine ⟨order, 0, stored, (TransportOrder.Replanned.refl order).continues, Nat.zero_le 1,
        fun lasting => ?_⟩
      rw [lasting.order?, stored] at hidden
      cases hidden
    · rename_i order' found
      cases stored.symm.trans (OrderBook.get?_of_order? found)
      cases named name order stored
      exact ⟨order.advance, 1, Table.get?_insert_self, order.continues_advance, Nat.le_refl 1,
        fun _ => rfl⟩

theorem undergo_continues (sound : f.Sound) (actions : List SiteAction)
    (stored : f.book.orders.get? name = some order)
    (apart : ∀ a ∈ actions, a.enters? ≠ some name) :
    ∃ order' k, (f.undergo actions).book.orders.get? name = some order' ∧
      order.Continues k order' ∧ k ≤ actions.countP (·.advances name) ∧
        (f.book.Lasting → k = actions.countP (·.advances name)) := by
  induction actions generalizing f order with
  | nil => exact ⟨order, 0, stored, (TransportOrder.Replanned.refl order).continues, Nat.le_refl 0,
      fun _ => rfl⟩
  | cons a rest ih =>
    obtain ⟨between, j, stored', first, most, exactly⟩ :=
      after_continues sound.book stored (apart a List.mem_cons_self)
    obtain ⟨order', k, stored'', later, most', exactly'⟩ := ih (sound_after sound a) stored'
      fun b member => apart b (List.mem_cons_of_mem _ member)
    have count : (a :: rest).countP (·.advances name) =
        rest.countP (·.advances name) + (a.advances name).toNat := by
      rw [List.countP_cons]
      cases a.advances name <;> rfl
    refine ⟨order', k + j, stored'', first.trans later, ?_, fun lasting => ?_⟩
    · rw [count]
      exact Nat.add_le_add most' most
    · rw [count, exactly' (lasting_after lasting a), exactly lasting]

/-- Whatever happens to a fleet, an order keeps its drive orders and goes through them one by one.
    A reroute leaves all of it as it is but for the routes of what is not past. -/
theorem reroutes_keep_itinerary (sound : f.Sound) (actions : List SiteAction)
    (stored : f.book.orders.get? name = some order)
    (apart : ∀ a ∈ actions, a.enters? ≠ some name) :
    ∃ order', (f.undergo actions).book.orders.get? name = some order' ∧
      order'.past ++ order'.current?.toList ++ order'.future = order'.driveOrders ∧
      order.past <+: order'.past ∧
      (∃ k ≤ actions.countP (·.advances name),
        order'.unrouted = TransportOrder.advance^[k] order.unrouted ∧
          (f.book.Lasting → k = actions.countP (·.advances name))) ∧
      ∀ v, ∃ order'', ((f.undergo actions).reroute v).2.book.orders.get? name = some order'' ∧
        order'.Replanned order'' := by
  obtain ⟨order', k, stored', continues, most, exactly⟩ :=
    undergo_continues sound actions stored apart
  exact ⟨order', stored', order'.past_current_future, continues.past,
    ⟨k, most, continues.drives, exactly⟩,
    fun v => reroute_retains (sound_undergo sound actions).book v name order' stored'⟩

def twoStops : Fleet := (ofSettings junction {} .pauseAtPathLock .keeps).run
  [.attach "AGV-01", .enter "t1" agv.vehicle ⟨0⟩ [⟨1⟩, ⟨3⟩]]

def firstStop : Fleet := twoStops.undergo [.fleet (.advance "t1"), .router (.lock ⟨2⟩ true)]

def stopped : VehicleReport := { agv with point := some ⟨1⟩ }

theorem reroutes_keep_itinerary_junction :
    (firstStop.reroute stopped).1 = .ok .rerouted ∧
      ∃ order, (firstStop.reroute stopped).2.book.orders.get? "t1" = some order ∧
        order.current = 1 ∧ order.driveOrders.map (·.destination) = [⟨1⟩, ⟨3⟩] ∧
          order.driveOrders.map (·.state) = [.finished, .travelling] := by
  have sound : twoStops.Sound := sound_run (sound_ofSettings ..) _
  have stored : twoStops.book.orders.get? "t1" = some { name := "t1", driveOrders := [
      { destination := ⟨1⟩, route := some { steps := outward.take 1, cost := 1000 } },
      { destination := ⟨3⟩,
        route := some { steps := renumber (outward.drop 1 ++ onward), cost := 2000 } }] } := by
    decide_cbv
  have lasting : twoStops.book.Lasting := fun updated => by decide_cbv
  obtain ⟨order', -, -, -, ⟨k, -, drives, exactly⟩, replans⟩ :=
    reroutes_keep_itinerary sound [.fleet (.advance "t1"), .router (.lock ⟨2⟩ true)] stored
      (by simp [SiteAction.enters?])
  cases exactly lasting
  obtain ⟨order, found, replanned⟩ := replans stopped
  have plan := replanned.drives.trans (congrArg TransportOrder.driveOrders drives)
  refine ⟨by cbv, order, found, ?_, ?_, ?_⟩
  · exact replanned.current.trans (congrArg TransportOrder.current drives)
  · have points := congrArg (List.map DriveOrder.destination) plan
    rwa [List.map_map] at points
  · have states := congrArg (List.map DriveOrder.state) plan
    rwa [List.map_map] at states

end Fleet

end TrafficControl
