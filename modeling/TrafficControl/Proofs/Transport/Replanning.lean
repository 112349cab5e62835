import TrafficControl.Proofs.Route.Fresh
import TrafficControl.Proofs.Route.Reaching
import TrafficControl.Proofs.Transport.AllOrNothing
import TrafficControl.Proofs.Transport.Connected

namespace TrafficControl

namespace Router

variable {r : Router} {v : Vehicle} {source : PointId}

theorem evolves_splice (r : Router) (v : Vehicle) (old new : DriveOrder) :
    r.Evolves (r.splice v old new).2 := by
  rcases r.splice_router v old new with same | ⟨p, q, asked⟩
  · rw [same]
    exact .refl
  · rw [asked]
    exact .asked v .refl

theorem Fresh.legs (fresh : r.Fresh) (v : Vehicle) (here : source.index < r.plant.current.pointCount)
    {destinations : List PointId}
    (there : ∀ d ∈ destinations, d.index < r.plant.current.pointCount) :
    ∃ u answer, r.groupOf u = r.groupOf v ∧ (r.legs v source destinations).1 = .ok answer ∧
      (answer.isSome = true ↔
        ReachedInTurn ((r.scope u []).Drives r.plant.current) source destinations) := by
  obtain ⟨sound, count, u, group, drives⟩ := (fresh.navigator v).1.drives
  have known : ∀ p ∈ source :: destinations, p.index < (r.navigator v).1.network.pointCount := by
    intro p asked
    rw [count]
    rcases List.mem_cons.mp asked with rfl | later
    · exact here
    · exact there p later
  refine ⟨u, (r.navigator v).1.legs source destinations, group, query_ok known _, ?_⟩
  rw [Navigator.isSome_legs_iff sound (known source List.mem_cons_self) fun d later =>
    known d (List.mem_cons_of_mem _ later)]
  exact ReachedInTurn.congr drives

theorem Fresh.splice (fresh : r.Fresh) (v : Vehicle) {old new : DriveOrder} {s t : Step}
    (head : new.steps.head? = some s) (passed : t ∈ old.steps) (meets : t.source = s.source)
    (known : ∀ t ∈ old.steps, t.source.index < r.plant.current.pointCount)
    (ends : ∀ l, new.steps.getLast? = some l → l.destination.index < r.plant.current.pointCount) :
    ∃ spliced, (r.splice v old new).1 = .ok spliced := by
  obtain ⟨rest, way⟩ := List.head?_eq_some_iff.mp head
  obtain ⟨branch, found⟩ : ∃ branch,
      (old.steps.findIdx? fun o => o.source = s.source) = some branch := by
    rw [← Option.isSome_iff_exists, List.findIdx?_isSome, List.any_eq_true]
    exact ⟨t, passed, decide_eq_true meets⟩
  have steps : spliceSteps old.steps new.steps =
      .ok (renumber (old.steps.take branch ++ new.steps)) := by
    simp only [spliceSteps, way, found]
  have first : ∃ h, (renumber (old.steps.take branch ++ new.steps)).head? = some h ∧
      h.source.index < r.plant.current.pointCount := by
    rw [renumber, List.head?_mapIdx, List.head?_append]
    cases kept : (old.steps.take branch).head? with
    | none =>
      rw [Option.none_or, head]
      exact ⟨_, rfl, meets ▸ known t passed⟩
    | some o => exact ⟨_, rfl, known o (List.mem_of_mem_take (List.mem_of_head? kept))⟩
  have last : ∃ l, (renumber (old.steps.take branch ++ new.steps)).getLast? = some l ∧
      l.destination.index < r.plant.current.pointCount := by
    have some' : new.steps ≠ [] := by
      rw [way]
      exact List.cons_ne_nil s rest
    rw [renumber, List.getLast?_mapIdx, List.getLast?_append_of_ne_nil _ some',
      List.getLast?_eq_some_getLast some']
    refine ⟨_, rfl, ?_⟩
    exact ends (new.steps.getLast some') (List.getLast?_eq_some_getLast some')
  obtain ⟨h, head', start⟩ := first
  obtain ⟨l, last', finish⟩ := last
  have count := (fresh.navigator v).1.drives.2.1
  have costed : (r.cost v h.source l.destination).1 =
      .ok ((r.navigator v).1.cost h.source l.destination) := by
    refine query_ok (fun p asked => ?_) _
    rw [count]
    rcases List.mem_cons.mp asked with rfl | asked
    · exact start
    · rw [List.mem_singleton.mp asked]
      exact finish
  simp only [Router.splice, steps, head', last']
  cases asked : r.cost v h.source l.destination with
  | mk answer r' =>
    rw [asked] at costed
    cases costed
    exact ⟨_, rfl⟩

end Router

namespace Fleet

variable {f f₁ : Fleet} {v : VehicleReport} {former : TransportOrder} {source : PointId}

theorem evolves_replan (f : Fleet) (v : VehicleReport) (source : PointId)
    (orders : List DriveOrder) : f.router.Evolves (f.replan v source orders).2.router := by
  rw [replan_fleet]
  exact .asked v.vehicle .refl

theorem evolves_adjoin (f : Fleet) (v : VehicleReport) (current : Option DriveOrder)
    (source : PointId) (plan : List DriveOrder) :
    f.router.Evolves (f.adjoin v current source plan).2.router := by
  rcases f.adjoin_fleet v current source plan with same | ⟨old, new, spliced⟩
  · rw [same]
    exact .refl
  · rw [spliced]
    exact f.router.evolves_splice v.vehicle old new

theorem evolves_adopt (f : Fleet) (v : VehicleReport) (former : TransportOrder)
    (plan : List DriveOrder) : f.router.Evolves (f.adopt v former plan).2.router := by
  simp only [adopt]
  split
  · exact .refl
  · rename_i book _
    have handed := (handOver_fleet { f with book } v former.name).1
    split
    · rename_i stage
      rw [stage] at handed
      exact handed ▸ .refl
    · rename_i stage
      rw [stage] at handed
      exact .selected _ _ (handed ▸ .refl)

theorem evolves_reroute (f : Fleet) (v : VehicleReport) :
    f.router.Evolves (f.reroute v).2.router :=
  reroute_keeps (P := fun g => f.router.Evolves g.router)
    (fun g source orders before => before.trans (g.evolves_replan v source orders))
    (fun g current source plan before => before.trans (g.evolves_adjoin v current source plan))
    (fun g former plan before => before.trans (g.evolves_adopt v former plan)) .refl

theorem evolves_enter (f : Fleet) (order : String) (v : Vehicle) (source : PointId)
    (destinations : List PointId) :
    f.router.Evolves (f.enter order v source destinations).router := by
  have asked : f.router.Evolves (f.router.legs v source destinations).2 := .asked v .refl
  unfold enter
  split <;> (rename_i stage; rw [stage] at asked; exact asked)

theorem fresh_ofSettings (plant : PlantVersions) (settings : RouterSettings) (fallback : Fallback)
    (bookkeeping : Bookkeeping) : (ofSettings plant settings fallback bookkeeping).router.Fresh :=
  Router.fresh_ofSettings plant settings

theorem fresh_next (fresh : f.router.Fresh) (a : FleetAction) : (f.next a).router.Fresh := by
  cases a with
  | enter order v source destinations =>
    exact fresh.evolve (f.evolves_enter order v source destinations)
  | lock path locked =>
    simp only [Fleet.next, setLocked]
    split
    · exact fresh
    · rename_i changed
      exact fresh.follow (PlantVersions.follows_setLocked changed)
  | reroute v => exact fresh.evolve (f.evolves_reroute v)
  | _ => exact fresh

theorem fresh_run (fresh : f.router.Fresh) (actions : List FleetAction) :
    (f.run actions).router.Fresh := by
  induction actions generalizing f with
  | nil => exact fresh
  | cons a rest ih => exact ih (fresh_next fresh a)

theorem defines_point {p : PointId} : f.plant.defines (.point p) = true ↔
    p.index < f.plant.pointCount := decide_eq_true_iff

theorem adopt_isOk (keeps : f.book.bookkeeping = .keeps) {order : TransportOrder}
    (stored : f.book.order? former.name = some order) (v : VehicleReport)
    (plan : List DriveOrder) : (f.adopt v former plan).1 = .ok () := by
  have found := OrderBook.get?_of_order? stored
  cases updated : f.book.update former.name (former.past ++ plan) with
  | error fault =>
    simp only [OrderBook.update, keeps, reduceCtorEq, if_false, found] at updated
  | ok book =>
    obtain ⟨-, before, -, stored', -⟩ := OrderBook.update_of_keeps keeps updated
    obtain ⟨g, handed, -⟩ := handOver_of_stored (f := { f with book }) v stored'
    simp only [adopt, updated, handed]

/-- The first drive order of a new plan ends where the current one is to end and starts where that one
    comes by, and it has no steps if that one has none. -/
structure Replaces (current : DriveOrder) (source : PointId) (first : DriveOrder) : Prop where
  ends : ∀ s, first.steps.getLast? = some s → s.destination = current.destination
  meets : source ≠ current.destination →
    ∃ s, first.steps.head? = some s ∧ ∃ t ∈ current.steps, t.source = s.source
  empty : current.steps = [] → first.steps = []

section Stages

variable {current first : DriveOrder} {rest future plan : List DriveOrder}

theorem replaces_of_rerouted (sound : f.router.Sound)
    (onRoute : (∃ s ∈ current.steps, s.source = source) ∨ source = current.destination)
    (h : f.replan v source (current :: future) = (.ok (plan, .rerouted), f₁)) :
    ∃ first rest, plan = first :: rest ∧ Replaces current source first := by
  obtain ⟨first, rest, rfl, starts, away⟩ := replan_ok sound h
  obtain ⟨⟨leg, -⟩, same⟩ := legs_replan sound h
  rw [List.map_cons, List.map_cons, List.cons.injEq] at same
  have leads := leg.leads
  rw [same.1] at leads
  refine ⟨first, rest, rfl, leads.ends, fun apart => ?_, fun none => ?_⟩
  · cases way : first.steps with
    | nil => exact absurd (leads.stays way) apart
    | cons s later =>
      obtain ⟨t, passed, start⟩ := onRoute.resolve_right apart
      have head : first.steps.head? = some s := congrArg List.head? way
      exact ⟨s, rfl, t, passed, start.trans (starts s head).symm⟩
  · have arrived : source = current.destination := by
      rcases onRoute with passes | arrived
      · obtain ⟨t, passed, -⟩ := passes
        rw [none] at passed
        cases passed
      · exact arrived
    -- a new way never comes back to the source, so none leads there from itself
    by_contra some'
    have last := List.getLast?_eq_some_getLast some'
    exact away _ (List.getLast_mem some') ((leads.ends _ last).trans arrived.symm)

theorem replaces_of_restricted
    (ends : ∀ s, current.steps.getLast? = some s → s.destination = current.destination)
    (onRoute : (∃ s ∈ current.steps, s.source = source) ∨ source = current.destination)
    (h : f.replan v source (current :: future) = (.ok (plan, .restricted), f₁)) :
    ∃ first rest, plan = first :: rest ∧ Replaces current source first := by
  obtain ⟨marks, -⟩ := replan_restricted h
  rw [List.map_cons] at marks
  obtain ⟨first, rest, rfl, same, -⟩ := List.map_eq_cons_iff.mp marks
  have alike : first.steps.map Step.ends = current.steps.map Step.ends := by
    refine ends_of_unmarked ?_
    rw [← DriveOrder.steps_unmarked, same, DriveOrder.steps_unmarked]
  refine ⟨first, rest, rfl, fun s last => ?_, fun apart => ?_, fun none => ?_⟩
  · have lasts : current.steps.getLast?.map Step.ends = some s.ends := by
      rw [← List.getLast?_map, ← alike, List.getLast?_map, last, Option.map_some]
    obtain ⟨t, last', same⟩ := Option.map_eq_some_iff.mp lasts
    exact (congrArg Prod.snd same.symm).trans (ends t last')
  · obtain ⟨o, passed, -⟩ := onRoute.resolve_right apart
    obtain ⟨t, later, way⟩ := List.exists_cons_of_ne_nil (List.ne_nil_of_mem passed)
    rw [way, List.map_cons] at alike
    obtain ⟨s, later', way', same, -⟩ := List.map_eq_cons_iff.mp alike
    rw [way, way']
    exact ⟨s, rfl, t, List.mem_cons_self, (congrArg Prod.fst same).symm⟩
  · rw [none, List.map_nil, List.map_eq_nil_iff] at alike
    exact alike

theorem adjoin_outcome (rest : List DriveOrder) (processing : v.activity = .processingOrder)
    (fresh : f.router.Fresh) (there : current.destination.index < f.plant.pointCount)
    (passed : ∀ s ∈ current.steps, s.source.index < f.plant.pointCount)
    (ends : ∀ s, current.steps.getLast? = some s → s.destination = current.destination)
    (replaces : Replaces current source first) :
    (current.steps = [] →
      (f.adjoin v (some current) source (first :: rest)).1 = .error .emptyReplacement) ∧
    (current.steps ≠ [] →
      ∃ joined, (f.adjoin v (some current) source (first :: rest)).1 = .ok joined) := by
  simp only [adjoin, processing, ne_eq, not_true_eq_false, if_false]
  constructor
  · intro none
    have goesOn : current.routeEnd? ≠ some source := by
      rw [DriveOrder.routeEnd?_eq, none]
      intro ended
      cases ended
    simp only [goesOn, if_false, Router.splice, spliceSteps, replaces.empty none]
  · intro some'
    split
    · exact ⟨_, rfl⟩
    · rename_i goesOn
      -- where the current way ends at the source, the drive order was kept above
      have apart : source ≠ current.destination := by
        intro arrived
        have last := List.getLast?_eq_some_getLast some'
        rw [DriveOrder.routeEnd?_eq, last, arrived] at goesOn
        exact goesOn (congrArg some (ends _ last))
      obtain ⟨s, head, t, old, meets⟩ := replaces.meets apart
      obtain ⟨spliced, joins⟩ := fresh.splice v.vehicle head old meets passed
        fun l last => by rw [replaces.ends l last]; exact there
      cases stage : f.router.splice v.vehicle current first with
      | mk answer router =>
        rw [stage] at joins
        cases joins
        exact ⟨_, rfl⟩

theorem replan_isOk (orders : List DriveOrder) {answer : Option (List Route)}
    (asked : (f.router.legs v.vehicle source (orders.map (·.destination))).1 = .ok answer) :
    ∃ plan f₁, f.replan v source orders =
      (.ok (plan, if answer.isSome then .rerouted else .restricted), f₁) := by
  unfold replan
  cases stage : f.router.legs v.vehicle source (orders.map (·.destination)) with
  | mk answer' router =>
    rw [stage] at asked
    cases asked
    cases answer with
    | none => exact ⟨_, _, rfl⟩
    | some routes => exact ⟨_, _, rfl⟩

theorem rerouteFrom_outcome {outcome : RerouteOutcome} (fresh : f.router.Fresh)
    (keeps : f.book.bookkeeping = .keeps) (stored : f.book.order? former.name = some former)
    (processing : v.activity = .processingOrder) (driving : former.current? = some current)
    (there : current.destination.index < f.plant.pointCount)
    (passed : ∀ s ∈ current.steps, s.source.index < f.plant.pointCount)
    (ends : ∀ s, current.steps.getLast? = some s → s.destination = current.destination)
    (replanned : f.replan v source former.unfinished = (.ok (first :: rest, outcome), f₁))
    (replaces : Replaces current source first) :
    (current.steps = [] → (f.rerouteFrom v former source).1 = .error .emptyReplacement) ∧
      (current.steps ≠ [] → (f.rerouteFrom v former source).1 = .ok outcome) := by
  have evolves := f.evolves_replan v source former.unfinished
  have same := f.replan_samePlans v source former.unfinished
  rw [replanned] at evolves same
  have plant : f₁.plant = f.plant := by rw [Fleet.plant, evolves.basis.1]; rfl
  have some' : former.unfinished.isEmpty = false := by
    rw [TransportOrder.unfinished_of_current? driving]
    rfl
  rw [← plant] at there passed
  obtain ⟨fails, joins⟩ :=
    adjoin_outcome rest processing (fresh.evolve evolves) there passed ends replaces
  have same' := same.trans (f₁.adjoin_samePlans v (some current) source (first :: rest))
  simp only [rerouteFrom, some', Bool.false_eq_true, if_false, replanned, driving]
  cases stage : f₁.adjoin v (some current) source (first :: rest) with
  | mk answer f₂ =>
    rw [stage] at fails joins same'
    refine ⟨fun none => ?_, fun some' => ?_⟩
    · cases fails none
      rfl
    · obtain ⟨joined, answered⟩ := joins some'
      cases answered
      have adopted : (f₂.adopt v former joined).1 = .ok () :=
        adopt_isOk (same'.book ▸ keeps) (same'.book ▸ stored) v joined
      cases stage' : f₂.adopt v former joined with
      | mk answer f₃ =>
        rw [stage'] at adopted
        cases adopted
        simp only [stage']

end Stages

/-- A vehicle that is on its route is given a new plan, or its old one restricted where a vehicle of its
    group cannot reach all that it has to. It is refused if the current drive order has no steps, as
    where it was at the destination from the first. -/
theorem reroute_on_route (sound : f.Sound) (fresh : f.router.Fresh)
    (keeps : f.book.bookkeeping = .keeps) {name : String} {current : DriveOrder} {c : Controller}
    (processing : v.activity = .processingOrder) (carried : v.order = some name)
    (stored : f.book.order? name = some former) (driving : former.current? = some current)
    (attached : f.attached? v.vehicle.name = some c) (located : f.source v c = .ok source)
    (ends : ∀ s, current.steps.getLast? = some s → s.destination = current.destination)
    (onRoute : (∃ s ∈ current.steps, s.source = source) ∨ source = current.destination)
    (here : f.plant.defines (.point source) = true)
    (there : ∀ o ∈ former.unfinished, f.plant.defines (.point o.destination) = true)
    (passed : ∀ s ∈ current.steps, f.plant.defines (.point s.source) = true) :
    ∃ u, f.router.groupOf u = f.router.groupOf v.vehicle ∧
      (current.steps = [] → (f.reroute v).1 = .error .emptyReplacement) ∧
      (current.steps ≠ [] →
        (ReachedInTurn ((f.router.scope u []).Drives f.plant) source
            (former.unfinished.map (·.destination)) → (f.reroute v).1 = .ok .rerouted) ∧
        (¬ ReachedInTurn ((f.router.scope u []).Drives f.plant) source
            (former.unfinished.map (·.destination)) → (f.reroute v).1 = .ok .restricted)) := by
  have unfinished := TransportOrder.unfinished_of_current? driving
  rw [unfinished] at there ⊢
  have ahead : ∀ d ∈ (current :: former.future).map (·.destination),
      d.index < f.plant.pointCount := by
    intro d member
    obtain ⟨o, later, rfl⟩ := List.mem_map.mp member
    exact defines_point.mp (there o later)
  obtain ⟨u, answer, group, asked, found⟩ :=
    fresh.legs v.vehicle (defines_point.mp here) ahead
  refine ⟨u, group, ?_⟩
  have start : f.reroute v = f.rerouteFrom v former source := by
    simp only [reroute, carried, stored, attached, located]
  rw [start]
  obtain ⟨plan, f₁, replanned⟩ := replan_isOk (current :: former.future) asked
  have replaced : ∃ first rest, plan = first :: rest ∧ Replaces current source first := by
    cases answer with
    | none => exact replaces_of_restricted ends onRoute replanned
    | some routes => exact replaces_of_rerouted sound.router onRoute replanned
  obtain ⟨first, rest, rfl, replaces⟩ := replaced
  have own : name = former.name :=
    (sound.book name former (OrderBook.get?_of_order? stored)).symm
  obtain ⟨fails, succeeds⟩ := rerouteFrom_outcome fresh keeps (own ▸ stored) processing driving
    (defines_point.mp (there current List.mem_cons_self))
    (fun s member => defines_point.mp (passed s member)) ends (unfinished ▸ replanned) replaces
  refine ⟨fails, fun some' => ⟨fun reached => ?_, fun cut => ?_⟩⟩
  · rw [succeeds some', if_pos (found.mpr reached)]
  · rw [succeeds some', if_neg fun known => cut (found.mp known)]

theorem reroute_on_route_junction : ∃ outcome, (sentOut.reroute agv).1 = .ok outcome := by
  have sound : sentOut.Sound := sound_run (sound_ofSettings ..) _
  have fresh : sentOut.router.Fresh := fresh_run (fresh_ofSettings _ _ _ _) _
  have stored : sentOut.book.order? "t1" =
      some { name := "t1", driveOrders := [driveTo (outward ++ onward) 3000] } := by decide_cbv
  have attached : sentOut.attached? agv.vehicle.name =
      some { sent := outward, attached := true } := by decide_cbv
  have located : sentOut.source agv { sent := outward, attached := true } = .ok ⟨2⟩ := by decide_cbv
  obtain ⟨u, -, -, driving⟩ := reroute_on_route sound fresh (by decide_cbv) rfl rfl stored rfl
    attached located (by decide) (by decide) (by decide_cbv) (by decide_cbv) (by decide_cbv)
  have some' : (driveTo (outward ++ onward) 3000).steps ≠ [] := by decide
  by_cases reached : ReachedInTurn ((sentOut.router.scope u []).Drives sentOut.plant) ⟨2⟩ [⟨3⟩]
  · exact ⟨_, (driving some').1 reached⟩
  · exact ⟨_, (driving some').2 reached⟩

def waiting : Fleet := (ofSettings junction {} .pauseAtPathLock .keeps).run
  [.attach "AGV-01", .enter "t1" agv.vehicle ⟨0⟩ [⟨0⟩, ⟨1⟩]]

/-- It is refused a new plan, although it is where it is to be and the way to B is open. -/
theorem not_replanned_junction :
    ∃ former current c, waiting.book.order? "t1" = some former ∧
      former.current? = some current ∧ current.route = some .empty ∧
      waiting.attached? "AGV-01" = some c ∧ waiting.source parked c = .ok current.destination ∧
      former.unfinished.map (·.destination) = [⟨0⟩, ⟨1⟩] ∧
      ReachedInTurn ((waiting.router.scope agv.vehicle []).Drives waiting.plant) ⟨0⟩ [⟨0⟩, ⟨1⟩] ∧
      (waiting.reroute parked).1 = .error .emptyReplacement := by
  let way : Arc := { source := ⟨0⟩, target := ⟨1⟩, path := ⟨0⟩, direction := .forward, cost := 1000 }
  have drives : (waiting.router.scope agv.vehicle []).Drives waiting.plant way := {
    path := ⟨_, rfl, by decide_cbv, by decide_cbv, by decide_cbv, rfl, rfl, by decide_cbv⟩
    source := by decide_cbv
    target := by decide_cbv
    cost := by decide }
  have reached : ReachedInTurn ((waiting.router.scope agv.vehicle []).Drives waiting.plant) ⟨0⟩
      [⟨0⟩, ⟨1⟩] :=
    ⟨⟨[], .stay _, by decide⟩, ⟨[way], .drive drives (.stay _), by decide⟩, trivial⟩
  let here : DriveOrder := { destination := ⟨0⟩, route := some .empty }
  let there : DriveOrder :=
    { destination := ⟨1⟩, route := some { steps := outward.take 1, cost := 1000 } }
  exact ⟨{ name := "t1", driveOrders := [here, there] }, here, { attached := true }, by decide_cbv,
    rfl, rfl, by decide_cbv, by decide_cbv, rfl, reached, by decide_cbv⟩

end Fleet

end TrafficControl
