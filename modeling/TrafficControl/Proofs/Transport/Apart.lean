import TrafficControl.Proofs.Transport.Idempotent

namespace TrafficControl

namespace Bookkeeping

variable {b b' : Bookkeeping} {name other : String}

def about (name : String) : Bookkeeping → Bookkeeping
  | loses updated => loses (if name ∈ updated then [name] else [])
  | other => other

theorem hides_about : (b.about name).hides name = b.hides name := by
  cases b with
  | loses updated => by_cases lost : name ∈ updated <;> simp [about, hides, lost]
  | _ => rfl

theorem about_eq_refuses (name : String) : b.about name = .refuses ↔ b = .refuses := by
  cases b <;> simp [about]

theorem about_noteUpdate_of_ne (apart : other ≠ name) :
    (b.noteUpdate name).about other = b.about other := by
  cases b with
  | loses updated => simp only [noteUpdate, about, List.mem_cons, apart, false_or]
  | _ => rfl

theorem about_noteUpdate (same : b'.about name = b.about name) :
    (b'.noteUpdate name).about name = (b.noteUpdate name).about name := by
  cases b <;> cases b' <;> simp_all [noteUpdate, about]

end Bookkeeping

namespace OrderBook

variable {b b' c : OrderBook} {name other : String}

structure Agrees (name : String) (b b' : OrderBook) : Prop where
  orders : b'.orders.get? name = b.orders.get? name
  bookkeeping : b'.bookkeeping.about name = b.bookkeeping.about name

namespace Agrees

theorem refl (name : String) (b : OrderBook) : b.Agrees name b := ⟨rfl, rfl⟩

theorem symm (agrees : b.Agrees name b') : b'.Agrees name b :=
  ⟨agrees.orders.symm, agrees.bookkeeping.symm⟩

theorem trans (first : b.Agrees name b') (second : b'.Agrees name c) : b.Agrees name c :=
  ⟨second.orders.trans first.orders, second.bookkeeping.trans first.bookkeeping⟩

theorem order? (agrees : b.Agrees name b') : b'.order? name = b.order? name := by
  have hides : b'.bookkeeping.hides name = b.bookkeeping.hides name := by
    rw [← Bookkeeping.hides_about, agrees.bookkeeping, Bookkeeping.hides_about]
  simp only [OrderBook.order?, hides, agrees.orders]

theorem update (agrees : b.Agrees name b') (driveOrders : List DriveOrder) :
    (∃ fault, b.update name driveOrders = .error fault ∧
        b'.update name driveOrders = .error fault) ∨
      ∃ c c', b.update name driveOrders = .ok c ∧ b'.update name driveOrders = .ok c' ∧
        c.Agrees name c' := by
  have refuses : b'.bookkeeping = .refuses ↔ b.bookkeeping = .refuses := by
    rw [← Bookkeeping.about_eq_refuses name, agrees.bookkeeping, Bookkeeping.about_eq_refuses]
  simp only [OrderBook.update, refuses, agrees.orders]
  split
  · exact .inl ⟨_, rfl, rfl⟩
  · cases b.orders.get? name with
    | none => exact .inl ⟨_, rfl, rfl⟩
    | some order =>
      refine .inr ⟨_, _, rfl, rfl, ?_, Bookkeeping.about_noteUpdate agrees.bookkeeping⟩
      rw [Table.get?_insert_self, Table.get?_insert_self]

end Agrees

theorem agrees_update {driveOrders : List DriveOrder} (h : b.update name driveOrders = .ok b')
    (apart : other ≠ name) : b.Agrees other b' := by
  unfold update at h
  split at h
  · cases h
  · split at h
    · cases h
    · cases h
      exact ⟨Table.get?_insert_of_ne apart, Bookkeeping.about_noteUpdate_of_ne apart⟩

end OrderBook

/-- The vehicles share neither number nor name nor transport order. -/
structure VehicleReport.Apart (v w : VehicleReport) : Prop where
  id : w.vehicle.id ≠ v.vehicle.id
  name : w.vehicle.name ≠ v.vehicle.name
  order : ∀ name, v.order = some name → w.order ≠ some name

instance (v w : VehicleReport) : Decidable (v.Apart w) :=
  decidable_of_iff (w.vehicle.id ≠ v.vehicle.id ∧ w.vehicle.name ≠ v.vehicle.name ∧
      ∀ name ∈ v.order, w.order ≠ some name)
    ⟨fun ⟨id, name, order⟩ => ⟨id, name, order⟩, fun ⟨id, name, order⟩ => ⟨id, name, order⟩⟩

namespace Fleet

variable {f g h : Fleet} {v w : VehicleReport} {former : TransportOrder} {source : PointId}
  {name : String}

structure SamePlanFor (v : VehicleReport) (f g : Fleet) : Prop where
  book : ∀ name, v.order = some name → f.book.Agrees name g.book
  controller : g.controllers.get? v.vehicle.name = f.controllers.get? v.vehicle.name
  selected : g.router.selected.get? v.vehicle.id = f.router.selected.get? v.vehicle.id

/-- The vehicle has the same to go by: its plan, and the ways that it finds. -/
structure SameFor (v : VehicleReport) (f g : Fleet) : Prop
  extends SamePlanFor v f g, SameWays v.vehicle f g

namespace SamePlanFor

theorem refl (v : VehicleReport) (f : Fleet) : SamePlanFor v f f :=
  ⟨fun name _ => .refl name f.book, rfl, rfl⟩

theorem symm (same : SamePlanFor v f g) : SamePlanFor v g f where
  book name carried := (same.book name carried).symm
  controller := same.controller.symm
  selected := same.selected.symm

theorem trans (first : SamePlanFor v f g) (second : SamePlanFor v g h) : SamePlanFor v f h where
  book name carried := (first.book name carried).trans (second.book name carried)
  controller := second.controller.trans first.controller
  selected := second.selected.trans first.selected

end SamePlanFor

namespace SameFor

theorem refl (v : VehicleReport) (f : Fleet) : SameFor v f f := ⟨.refl v f, .refl v.vehicle f⟩

theorem symm (same : SameFor v f g) : SameFor v g f :=
  ⟨same.toSamePlanFor.symm, same.toSameWays.symm⟩

theorem trans (first : SameFor v f g) (second : SameFor v g h) : SameFor v f h :=
  ⟨first.toSamePlanFor.trans second.toSamePlanFor, first.toSameWays.trans second.toSameWays⟩

theorem prepared (v : VehicleReport) (f : Fleet) : SameFor v f (f.prepared v) where
  book name _ := .refl name f.book
  controller := rfl
  selected := congrArg (·.get? v.vehicle.id) Router.selected_navigator
  plant := f.plant_prepared v
  fallback := rfl
  ways := (Router.Level.refl f.router v.vehicle).navigator

section Stages

variable (same : SameFor v f g)

include same

theorem attached? : g.attached? v.vehicle.name = f.attached? v.vehicle.name := by
  simp only [Fleet.attached?, same.controller]

theorem handOver (carried : v.order = some name) :
    (g.handOver v name).1 = (f.handOver v name).1 ∧
      SameFor v (f.handOver v name).2 (g.handOver v name).2 := by
  simp only [Fleet.handOver, (same.book name carried).order?]
  split
  · exact ⟨rfl, same⟩
  · cases f.book.order? name with
    | none => exact ⟨rfl, same⟩
    | some order =>
      have own : g.controller v.vehicle.name = f.controller v.vehicle.name := by
        simp only [Fleet.controller, same.controller]
      refine ⟨rfl, ⟨same.book, ?_, same.selected⟩, same.plant, same.fallback, same.ways⟩
      simp only [setController, Table.get?_insert_self, own]

theorem adopt (carried : v.order = some former.name) (plan : List DriveOrder) :
    (g.adopt v former plan).1 = (f.adopt v former plan).1 ∧
      SameFor v (f.adopt v former plan).2 (g.adopt v former plan).2 := by
  simp only [Fleet.adopt]
  rcases (same.book former.name carried).update (former.past ++ plan) with
    ⟨fault, refused, refused'⟩ | ⟨book, book', updated, updated', agrees⟩
  · rw [refused, refused']
    exact ⟨rfl, same⟩
  · rw [updated, updated']
    have entered : SameFor v { f with book } { g with book := book' } := {
      same with
      book := fun name own => by
        cases carried.symm.trans own
        exact agrees }
    have handed := entered.handOver carried
    revert handed
    simp only
    rcases Fleet.handOver { f with book } v former.name with ⟨answer, f'⟩
    rcases Fleet.handOver { g with book := book' } v former.name with ⟨answer', g'⟩
    rintro ⟨rfl, handed⟩
    cases answer' with
    | error fault => exact ⟨rfl, handed⟩
    | ok =>
      refine ⟨rfl, ⟨handed.book, handed.controller, ?_⟩, handed.plant, handed.fallback, ?_⟩
      · simp only [Router.select, Table.get?_insert_self]
      · exact (f'.router.same_select ..).symm.trans (handed.ways.trans (g'.router.same_select ..))

end Stages

end SameFor

def proposalFrom (f : Fleet) (v : VehicleReport) (former : TransportOrder) (source : PointId) :
    Except RerouteFault (List DriveOrder × RerouteOutcome) :=
  if former.unfinished.isEmpty then .error (.noCurrentDriveOrder former.name)
  else
    match (f.replan v source former.unfinished).1 with
    | .error fault => .error fault
    | .ok (plan, outcome) =>
      ((f.prepared v).adjoin v former.current? source plan).1.map (·, outcome)

def proposal (f : Fleet) (v : VehicleReport) (name : String) :
    Except RerouteFault (TransportOrder × List DriveOrder × RerouteOutcome) :=
  match f.book.order? name with
  | none => .error (.unknownTransportOrder name)
  | some former =>
    match f.attached? v.vehicle.name with
    | none => .error (.noController v.vehicle.name)
    | some c =>
      match f.source v c with
      | .error fault => .error fault
      | .ok source => (f.proposalFrom v former source).map (former, ·)

theorem replan_prepared (f : Fleet) (v : VehicleReport) (source : PointId)
    (orders : List DriveOrder) : (f.replan v source orders).2 = f.prepared v :=
  f.replan_fleet v source orders

def conclude (f : Fleet) (v : VehicleReport) (g : Fleet) :
    Except RerouteFault (TransportOrder × List DriveOrder × RerouteOutcome) →
      Except RerouteFault RerouteOutcome × Fleet
  | .error fault => (.error fault, g)
  | .ok (former, plan, outcome) =>
    match (f.prepared v).adopt v former plan with
    | (.error fault, f) => (.error fault, f)
    | (.ok _, f) => (.ok outcome, f)

theorem rerouteFrom_proposal (f : Fleet) (v : VehicleReport) (former : TransportOrder)
    (source : PointId) : ∃ g, (g = f ∨ g = f.prepared v) ∧
      f.rerouteFrom v former source =
        f.conclude v g ((f.proposalFrom v former source).map (former, ·)) := by
  simp only [rerouteFrom, proposalFrom]
  split
  · exact ⟨f, .inl rfl, rfl⟩
  · have asked := f.replan_prepared v source former.unfinished
    rcases stage : f.replan v source former.unfinished with ⟨fault | ⟨plan, outcome⟩, f₁⟩
    · rw [stage] at asked
      exact ⟨f₁, .inr asked, rfl⟩
    · rw [stage] at asked
      obtain rfl : f₁ = f.prepared v := asked
      have joined := adjoin_atHand (f.atHand_prepared v) former.current? source plan
      simp only
      rcases stage' : (f.prepared v).adjoin v former.current? source plan with
        ⟨fault | joined', f₂⟩
      · rw [stage'] at joined
        exact ⟨f₂, .inr joined, rfl⟩
      · rw [stage'] at joined
        obtain rfl : f₂ = f.prepared v := joined
        exact ⟨f, .inl rfl, rfl⟩

/-- A reroute that comes to a plan tries to take it over. One that comes to none writes nothing. -/
theorem reroute_proposal (carried : v.order = some name) : ∃ g, (g = f ∨ g = f.prepared v) ∧
    f.reroute v = f.conclude v g (f.proposal v name) := by
  simp only [Fleet.reroute, carried, proposal]
  cases f.book.order? name with
  | none => exact ⟨f, .inl rfl, rfl⟩
  | some former =>
    simp only
    cases f.attached? v.vehicle.name with
    | none => exact ⟨f, .inl rfl, rfl⟩
    | some c =>
      simp only
      cases f.source v c with
      | error fault => exact ⟨f, .inl rfl, rfl⟩
      | ok source => exact f.rerouteFrom_proposal v former source

theorem order_of_proposal {plan : List DriveOrder} {outcome : RerouteOutcome}
    (h : f.proposal v name = .ok (former, plan, outcome)) : f.book.order? name = some former := by
  simp only [proposal] at h
  split at h
  · cases h
  · rename_i stored
    split at h
    · cases h
    · split at h
      · cases h
      · rw [stored]
        cases planned : f.proposalFrom v _ _ <;> rw [planned] at h <;> cases h
        rfl

theorem reroute_idle (idle : v.order = none) : f.reroute v = (.ok .notProcessingOrder, f) := by
  simp only [Fleet.reroute, idle]

namespace SameFor

theorem of_prepared (still : g = f ∨ g = f.prepared v) : SameFor v f g := by
  rcases still with rfl | rfl
  · exact .refl v g
  · exact .prepared v f

theorem proposal (same : SameFor v f g) (carried : v.order = some name) :
    g.proposal v name = f.proposal v name := by
  have prepared : SameFor v (f.prepared v) (g.prepared v) :=
    (prepared v f).symm.trans (same.trans (prepared v g))
  have located (c : Controller) : g.source v c = f.source v c := source_congr same.plant rfl
  simp only [Fleet.proposal, proposalFrom, (same.book name carried).order?, same.attached?, located,
    same.toSameWays.replan, prepared.toSameWays.adjoin]

theorem reroute (same : SameFor v f g) (named : f.book.Named) :
    (g.reroute v).1 = (f.reroute v).1 ∧ SameFor v (f.reroute v).2 (g.reroute v).2 := by
  cases carried : v.order with
  | none =>
    rw [reroute_idle carried, reroute_idle carried]
    exact ⟨rfl, same⟩
  | some name =>
    obtain ⟨f', still, rerouted⟩ := reroute_proposal (f := f) carried
    obtain ⟨g', still', rerouted'⟩ := reroute_proposal (f := g) carried
    have unwritten : SameFor v f' g' :=
      (of_prepared still).symm.trans (same.trans (of_prepared still'))
    have prepared : SameFor v (f.prepared v) (g.prepared v) :=
      (prepared v f).symm.trans (same.trans (prepared v g))
    rw [rerouted, rerouted', same.proposal carried]
    rcases proposed : f.proposal v name with fault | ⟨former, plan, outcome⟩
    · exact ⟨rfl, unwritten⟩
    · have own : former.name = name :=
        named name former (OrderBook.get?_of_order? (order_of_proposal proposed))
      have adopted := prepared.adopt (own ▸ carried) plan
      simp only [conclude]
      rcases stage : (f.prepared v).adopt v former plan with ⟨answer, f₁⟩
      rcases stage' : (g.prepared v).adopt v former plan with ⟨answer', g₁⟩
      rw [stage, stage'] at adopted
      obtain ⟨rfl, adopted⟩ := adopted
      cases answer' <;> exact ⟨rfl, adopted⟩

end SameFor

/-- From the first fleet to the second nothing has changed but what is the vehicle's own. -/
structure ConfinedTo (v : VehicleReport) (f g : Fleet) : Prop where
  evolves : f.router.Evolves g.router
  fallback : g.fallback = f.fallback
  ways : ∀ u, f.router.Level v.vehicle u → (f.router.navigator u).1.Same (g.router.navigator u).1
  book : ∀ name, v.order ≠ some name → f.book.Agrees name g.book
  controllers : ∀ name, name ≠ v.vehicle.name →
    g.controllers.get? name = f.controllers.get? name
  selected : ∀ id, id ≠ v.vehicle.id → g.router.selected.get? id = f.router.selected.get? id

namespace ConfinedTo

theorem refl (v : VehicleReport) (f : Fleet) : ConfinedTo v f f :=
  ⟨.refl, rfl, fun _ _ => .refl _, fun name _ => .refl name f.book, fun _ _ => rfl, fun _ _ => rfl⟩

theorem trans (first : ConfinedTo v f g) (second : ConfinedTo v g h) : ConfinedTo v f h where
  evolves := first.evolves.trans second.evolves
  fallback := second.fallback.trans first.fallback
  ways u level := (first.ways u level).trans (second.ways u (level.evolve first.evolves))
  book name apart := (first.book name apart).trans (second.book name apart)
  controllers name apart := (second.controllers name apart).trans (first.controllers name apart)
  selected id apart := (second.selected id apart).trans (first.selected id apart)

theorem prepared (f : Fleet) (v : VehicleReport) : ConfinedTo v f (f.prepared v) where
  evolves := .asked v.vehicle .refl
  fallback := rfl
  ways _ level := level.navigator
  book name _ := .refl name f.book
  controllers _ _ := rfl
  selected id _ := congrArg (·.get? id) Router.selected_navigator

theorem sameFor (confined : ConfinedTo v f g) (apart : v.Apart w)
    (level : f.router.Level v.vehicle w.vehicle) : SameFor w f g where
  plant := congrArg PlantVersions.current confined.evolves.basis.1
  fallback := confined.fallback
  ways := confined.ways w.vehicle level
  book name carried := confined.book name fun own => apart.order name own carried
  controller := confined.controllers w.vehicle.name apart.name
  selected := confined.selected w.vehicle.id apart.id

end ConfinedTo

theorem handOver_controllers (f : Fleet) (v : VehicleReport) (name : String) :
    ∃ controllers, (f.handOver v name).2 = { f with controllers } ∧
      ∀ other, other ≠ v.vehicle.name → controllers.get? other = f.controllers.get? other := by
  unfold handOver
  split
  · exact ⟨f.controllers, rfl, fun _ _ => rfl⟩
  · split
    · exact ⟨f.controllers, rfl, fun _ _ => rfl⟩
    · exact ⟨_, rfl, fun _ apart => Table.get?_insert_of_ne apart⟩

theorem confined_adopt (carried : v.order = some former.name) (f : Fleet)
    (plan : List DriveOrder) : ConfinedTo v f (f.adopt v former plan).2 := by
  simp only [adopt]
  split
  · exact .refl v f
  · rename_i book updated
    obtain ⟨controllers, handed, others⟩ := handOver_controllers { f with book } v former.name
    have agrees (name : String) (apart : v.order ≠ some name) : f.book.Agrees name book :=
      OrderBook.agrees_update updated fun same => apart (same ▸ carried)
    split <;> (rename_i stage; rw [stage] at handed; cases handed)
    · exact ⟨.refl, rfl, fun _ _ => .refl _, agrees, others, fun _ _ => rfl⟩
    · exact ⟨.selected _ _ .refl, rfl, fun _ _ => Router.same_select .., agrees, others,
        fun _ apart => Table.get?_insert_of_ne apart⟩

theorem confined_reroute (named : f.book.Named) (v : VehicleReport) :
    ConfinedTo v f (f.reroute v).2 := by
  cases carried : v.order with
  | none =>
    rw [reroute_idle carried]
    exact .refl v f
  | some name =>
    obtain ⟨g, still, rerouted⟩ := reroute_proposal (f := f) carried
    rw [rerouted]
    rcases proposed : f.proposal v name with fault | ⟨former, plan, outcome⟩
    · rcases still with rfl | rfl
      · exact .refl v g
      · exact .prepared f v
    · have own : former.name = name :=
        named name former (OrderBook.get?_of_order? (order_of_proposal proposed))
      have adopted := (ConfinedTo.prepared f v).trans
        (confined_adopt (own ▸ carried) (f.prepared v) plan)
      simp only [conclude]
      split <;> (rename_i stage; rw [stage] at adopted; exact adopted)

theorem named_reroute (named : f.book.Named) (v : VehicleReport) : (f.reroute v).2.book.Named := by
  refine reroute_keeps (P := fun g => g.book.Named) (fun g source orders named => ?_)
    (fun g current source plan named => ?_) (fun g former plan named => ?_) named
  · rwa [replan_book]
  · rwa [adjoin_book]
  · rcases g.adopt_book v former plan with kept | updated
    · rwa [kept]
    · exact named.update updated

end Fleet

end TrafficControl
