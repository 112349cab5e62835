import TrafficControl.Proofs.Transport.Splicing
import TrafficControl.Transport.Rerouting

namespace TrafficControl

inductive FleetAction where
  | attach (vehicle : String)
  | detach (vehicle : String)
  | insert (order : TransportOrder)
  | enter (order : String) (v : Vehicle) (source : PointId) (destinations : List PointId)
  | advance (order : String)
  | send (vehicle : String) (steps : List Step)
  | executed (vehicle : String)
  | lock (path : PathId) (locked : Bool)
  | reroute (v : VehicleReport)

def OrderBook.Named (b : OrderBook) : Prop :=
  ∀ name order, b.orders.get? name = some order → order.name = name

namespace OrderBook

variable {b : OrderBook} {name : String} {order : TransportOrder}

theorem get?_of_order? (h : b.order? name = some order) : b.orders.get? name = some order := by
  unfold order? at h
  split at h
  · cases h
  · exact h

theorem Named.insert (named : b.Named) (order : TransportOrder) : (b.insert order).Named := by
  intro name stored h
  rw [OrderBook.insert, Table.get?_insert] at h
  split at h
  · rename_i own
    cases h
    exact own.symm
  · exact named name stored h

theorem Named.advance (named : b.Named) (name : String) : (b.advance name).Named := by
  unfold OrderBook.advance
  split
  · exact named
  · exact named.insert _

theorem update_ok {driveOrders : List DriveOrder} {b' : OrderBook}
    (h : b.update name driveOrders = .ok b') : ∃ order, b.orders.get? name = some order ∧
      b'.orders = b.orders.insert name { order with driveOrders } := by
  unfold update at h
  split at h
  · cases h
  · split at h
    · cases h
    · rename_i order found
      cases h
      exact ⟨order, found, rfl⟩

theorem Named.update (named : b.Named) {driveOrders : List DriveOrder} {b' : OrderBook}
    (h : b.update name driveOrders = .ok b') : b'.Named := by
  obtain ⟨order, found, orders⟩ := update_ok h
  intro name' stored h
  rw [orders, Table.get?_insert] at h
  split at h
  · rename_i own
    cases h
    rw [own]
    exact named name order found
  · exact named name' stored h

end OrderBook

namespace Fleet

def ofSettings (plant : PlantVersions) (settings : RouterSettings) (fallback : Fallback)
    (bookkeeping : Bookkeeping) : Fleet where
  router := .ofSettings plant settings
  fallback
  book := { bookkeeping }

def enter (f : Fleet) (order : String) (v : Vehicle) (source : PointId)
    (destinations : List PointId) : Fleet :=
  match f.router.legs v source destinations with
  | (.ok (some routes), router) =>
    let driveOrders := List.zipWith (fun d route => { destination := d, route := some route })
      destinations routes
    { f with router, book := f.book.insert { name := order, driveOrders } }
  | (_, router) => { f with router }

def setLocked (f : Fleet) (path : PathId) (locked : Bool) : Fleet :=
  match f.router.plant.setLocked path locked with
  | .error _ => f
  | .ok plant => { f with router := { f.router with plant } }

def next (f : Fleet) : FleetAction → Fleet
  | .attach vehicle => f.attach vehicle
  | .detach vehicle => f.detach vehicle
  | .insert order => { f with book := f.book.insert order }
  | .enter order v source destinations => f.enter order v source destinations
  | .advance order => { f with book := f.book.advance order }
  | .send vehicle steps => f.send vehicle steps
  | .executed vehicle => (f.executed vehicle).2
  | .lock path locked => f.setLocked path locked
  | .reroute v => (f.reroute v).2

def run (f : Fleet) (actions : List FleetAction) : Fleet := actions.foldl next f

theorem replan_fleet (f : Fleet) (v : VehicleReport) (source : PointId)
    (orders : List DriveOrder) : (f.replan v source orders).2 =
      { f with router := (f.router.legs v.vehicle source (orders.map (·.destination))).2 } := by
  unfold replan
  split <;> (rename_i asked; rw [asked])

theorem adjoin_fleet (f : Fleet) (v : VehicleReport) (current : Option DriveOrder)
    (source : PointId) (plan : List DriveOrder) :
    (f.adjoin v current source plan).2 = f ∨ ∃ old new,
      (f.adjoin v current source plan).2 =
        { f with router := (f.router.splice v.vehicle old new).2 } := by
  unfold adjoin
  split
  · exact .inl rfl
  · split
    · split
      · exact .inl rfl
      · rename_i current first rest _
        refine .inr ⟨current, first, ?_⟩
        split <;> (rename_i spliced; rw [spliced])
    · exact .inl rfl

theorem handOver_fleet (f : Fleet) (v : VehicleReport) (name : String) :
    (f.handOver v name).2.router = f.router ∧ (f.handOver v name).2.book = f.book := by
  unfold handOver
  split
  · exact ⟨rfl, rfl⟩
  · split <;> exact ⟨rfl, rfl⟩

theorem reroute_keeps {P : Fleet → Prop} {v : VehicleReport}
    (replan : ∀ f source orders, P f → P (f.replan v source orders).2)
    (adjoin : ∀ f current source plan, P f → P (f.adjoin v current source plan).2)
    (adopt : ∀ f former plan, P f → P (f.adopt v former plan).2) {f : Fleet} (start : P f) :
    P (f.reroute v).2 := by
  have from' (former : TransportOrder) (source : PointId) : P (f.rerouteFrom v former source).2 := by
    unfold rerouteFrom
    split
    · exact start
    · have replanned := replan f source former.unfinished start
      split
      · rename_i stage
        rw [stage] at replanned
        exact replanned
      · rename_i plan _ f₁ stage
        rw [stage] at replanned
        have adjoined := adjoin f₁ former.current? source plan replanned
        split
        · rename_i stage
          rw [stage] at adjoined
          exact adjoined
        · rename_i plan f₂ stage
          rw [stage] at adjoined
          have adopted := adopt f₂ former plan adjoined
          split <;> (rename_i stage; rw [stage] at adopted; exact adopted)
  unfold reroute
  split
  · exact start
  · split
    · exact start
    · split
      · exact start
      · split
        · exact start
        · exact from' ..

/-- The networks of the router were built from plants, and the orders are kept under their names. -/
structure Sound (f : Fleet) : Prop where
  router : f.router.Sound
  book : f.book.Named

variable {f : Fleet}

theorem Sound.replan (sound : f.Sound) (v : VehicleReport) (source : PointId)
    (orders : List DriveOrder) : (f.replan v source orders).2.Sound := by
  rw [replan_fleet]
  exact ⟨sound.router.legs v.vehicle source (orders.map (·.destination)), sound.book⟩

theorem Sound.adjoin (sound : f.Sound) (v : VehicleReport) (current : Option DriveOrder)
    (source : PointId) (plan : List DriveOrder) : (f.adjoin v current source plan).2.Sound := by
  rcases f.adjoin_fleet v current source plan with same | ⟨old, new, spliced⟩
  · rwa [same]
  · rw [spliced]
    exact ⟨sound.router.splice v.vehicle old new, sound.book⟩

theorem Sound.handOver (sound : f.Sound) (v : VehicleReport) (name : String) :
    (f.handOver v name).2.Sound := by
  obtain ⟨router, book⟩ := f.handOver_fleet v name
  exact ⟨by rw [router]; exact sound.router, by rw [book]; exact sound.book⟩

theorem Sound.adopt (sound : f.Sound) (v : VehicleReport) (former : TransportOrder)
    (plan : List DriveOrder) : (f.adopt v former plan).2.Sound := by
  simp only [Fleet.adopt]
  split
  · exact sound
  · rename_i book updated
    have entered : Sound { f with book } := ⟨sound.router, sound.book.update updated⟩
    have handed := entered.handOver v former.name
    split
    · rename_i stage
      rw [stage] at handed
      exact handed
    · rename_i stage
      rw [stage] at handed
      exact ⟨handed.router, handed.book⟩

theorem Sound.reroute (sound : f.Sound) (v : VehicleReport) : (f.reroute v).2.Sound :=
  reroute_keeps (fun _ source orders sound => sound.replan v source orders)
    (fun _ current source plan sound => sound.adjoin v current source plan)
    (fun _ former plan sound => sound.adopt v former plan) sound

theorem Sound.enter (sound : f.Sound) (order : String) (v : Vehicle) (source : PointId)
    (destinations : List PointId) : (f.enter order v source destinations).Sound := by
  have asked := sound.router.legs v source destinations
  simp only [Fleet.enter]
  split
  · rename_i stage
    rw [stage] at asked
    exact ⟨asked, sound.book.insert _⟩
  · rename_i stage
    rw [stage] at asked
    exact ⟨asked, sound.book⟩

theorem Sound.next (sound : f.Sound) (a : FleetAction) : (f.next a).Sound := by
  cases a with
  | insert order => exact ⟨sound.router, sound.book.insert order⟩
  | enter order v source destinations => exact sound.enter order v source destinations
  | advance order => exact ⟨sound.router, sound.book.advance order⟩
  | lock path locked =>
    simp only [Fleet.next, setLocked]
    split
    · exact sound
    · exact ⟨sound.router, sound.book⟩
  | reroute v => exact sound.reroute v
  | _ => exact ⟨sound.router, sound.book⟩

theorem sound_ofSettings (plant : PlantVersions) (settings : RouterSettings) (fallback : Fallback)
    (bookkeeping : Bookkeeping) : (ofSettings plant settings fallback bookkeeping).Sound where
  router := Router.sound_ofSettings plant settings
  book := by
    intro name order h
    cases h

theorem sound_run (sound : f.Sound) (actions : List FleetAction) : (f.run actions).Sound := by
  induction actions generalizing f with
  | nil => exact sound
  | cons a rest ih => exact ih (sound.next a)

end Fleet

end TrafficControl
