import Mathlib
import TrafficControl.Proofs.Transport.History

namespace TrafficControl

namespace TransportOrder

variable {t : TransportOrder} {current : DriveOrder}

theorem unfinished_of_current? (h : t.current? = some current) :
    t.unfinished = current :: t.future := by
  obtain ⟨inside, rfl⟩ := List.getElem?_eq_some_iff.mp h
  exact List.drop_eq_getElem_cons inside

theorem current?_of_past {t' : TransportOrder} {plan : List DriveOrder}
    (h : t.current? = some current) (orders : t'.driveOrders = t.past ++ plan)
    (place : t'.current = t.current) : t'.current? = plan.head? := by
  obtain ⟨inside, -⟩ := List.getElem?_eq_some_iff.mp h
  have passed : t.past.length = t.current := List.length_take_of_le (Nat.le_of_lt inside)
  rw [current?, orders, place, List.getElem?_append_right (by omega), passed, Nat.sub_self,
    List.head?_eq_getElem?]

end TransportOrder

/-- The first `j` steps come back to a point that one of them started from, and the route does not
    end there. -/
def DriveOrder.Revisits (o : DriveOrder) (j : Nat) : Prop :=
  ∃ last, (o.steps.take j).getLast? = some last ∧ o.routeEnd? ≠ some last.destination ∧
    ∃ s ∈ o.steps.take j, s.source = last.destination

namespace Fleet

variable {f : Fleet} {v : VehicleReport} {former : TransportOrder} {source : PointId}

@[simp] theorem replan_book (f : Fleet) (v : VehicleReport) (source : PointId)
    (orders : List DriveOrder) : (f.replan v source orders).2.book = f.book := by
  rw [replan_fleet]

@[simp] theorem adjoin_book (f : Fleet) (v : VehicleReport) (current : Option DriveOrder)
    (source : PointId) (plan : List DriveOrder) :
    (f.adjoin v current source plan).2.book = f.book := by
  rcases f.adjoin_fleet v current source plan with same | ⟨old, new, spliced⟩
  · rw [same]
  · rw [spliced]

theorem rerouteFrom_ok {outcome : RerouteOutcome} {f₃ : Fleet}
    (h : f.rerouteFrom v former source = (.ok outcome, f₃)) :
    ∃ f₁ f₂ plan joined, f.replan v source former.unfinished = (.ok (plan, outcome), f₁) ∧
      f₁.adjoin v former.current? source plan = (.ok joined, f₂) ∧
        f₂.adopt v former joined = (.ok (), f₃) := by
  unfold rerouteFrom at h
  split at h
  · cases h
  · split at h
    · cases h
    · rename_i plan _ f₁ replanned
      split at h
      · cases h
      · rename_i joined f₂ adjoined
        split at h
        · cases h
        · rename_i adopted
          cases h
          exact ⟨f₁, f₂, plan, joined, replanned, adjoined, adopted⟩

theorem replan_ok (sound : f.router.Sound) {first : DriveOrder} {rest plan : List DriveOrder}
    {f₁ : Fleet} (h : f.replan v source (first :: rest) = (.ok (plan, .rerouted), f₁)) :
    ∃ first' rest', plan = first' :: rest' ∧
      (∀ s, first'.steps.head? = some s → s.source = source) ∧
        ∀ s ∈ first'.steps, s.destination ≠ source := by
  simp only [replan, List.map_cons] at h
  split at h
  · cases h
  · rename_i routes router asked
    cases h
    obtain ⟨route, later, rfl, known, found⟩ :=
      Router.legs_cons (congrArg Prod.fst asked)
    have built := (sound.navigator v.vehicle).1
    refine ⟨_, _, rfl, ?_, ?_⟩
    · intro s head
      simp only [rerouteOrder, DriveOrder.steps, Option.map_some, Option.getD_some,
        List.head?_map, Option.map_eq_some_iff] at head
      obtain ⟨s, head, rfl⟩ := head
      exact (Navigator.source_of_head built known found head :)
    · intro s member
      simp only [rerouteOrder, DriveOrder.steps, Option.map_some, Option.getD_some] at member
      obtain ⟨s, listed, rfl⟩ := List.mem_map.mp member
      exact (Navigator.destination_ne built known found listed :)
  · cases h

theorem adjoin_ok (processing : v.activity = .processingOrder) {current first : DriveOrder}
    {rest joined : List DriveOrder} {f₁ : Fleet}
    (h : f.adjoin v (some current) source (first :: rest) = (.ok joined, f₁)) :
    ∃ current', joined = current' :: rest ∧
      if current.routeEnd? = some source then current' = current
      else spliceSteps current.steps first.steps = .ok current'.steps := by
  simp only [adjoin, processing, ne_eq, not_true_eq_false, if_false] at h
  split at h
  · rename_i ends
    cases h
    exact ⟨current, rfl, by rw [if_pos ends]⟩
  · rename_i goesOn
    split at h
    · cases h
    · rename_i spliced router stage
      cases h
      refine ⟨spliced, rfl, ?_⟩
      rw [if_neg goesOn]
      exact Router.splice_ok (congrArg Prod.fst stage)

theorem adopt_ok (processing : v.activity = .processingOrder)
    (stored : f.book.orders.get? former.name = some former) {plan : List DriveOrder} {f₁ : Fleet}
    (h : f.adopt v former plan = (.ok (), f₁)) :
    ∃ order, f₁.book.order? former.name = some order ∧ order.driveOrders = former.past ++ plan ∧
      order.current = former.current := by
  simp only [adopt] at h
  split at h
  · cases h
  · rename_i book updated
    split at h
    · cases h
    · rename_i handed
      cases h
      simp only [handOver, processing, ne_eq, not_true_eq_false, if_false] at handed
      split at handed
      · cases handed
      · rename_i order found
        cases handed
        obtain ⟨before, same, orders⟩ := OrderBook.update_ok updated
        cases stored.symm.trans same
        have kept := OrderBook.get?_of_order? found
        rw [orders, Table.get?_insert, if_pos rfl] at kept
        cases kept
        exact ⟨_, found, rfl, rfl⟩

/-- The vehicle carries out the current drive order of a transport order. Of its steps, those from
    place `i` up to place `j` have been sent and are not executed yet. -/
structure Underway (f : Fleet) (v : VehicleReport) (former : TransportOrder) (current : DriveOrder)
    (i j : Nat) : Prop where
  processing : v.activity = .processingOrder
  stored : ∃ name, v.order = some name ∧ f.book.order? name = some former
  driving : former.current? = some current
  sent : ∃ c, f.attached? v.vehicle.name = some c ∧ c.sent = (current.steps.take j).drop i
  order : i < j
  within : j ≤ current.steps.length

namespace Underway

variable {current : DriveOrder} {i j : Nat}

theorem last (underway : f.Underway v former current i j) :
    ∃ last, current.steps[j - 1]? = some last ∧ (current.steps.take j).getLast? = some last := by
  have order := underway.order
  have within := underway.within
  have inside : j - 1 < current.steps.length := by omega
  refine ⟨current.steps[j - 1], List.getElem?_eq_getElem inside, ?_⟩
  rw [List.getLast?_eq_getElem?, List.length_take_of_le within,
    List.getElem?_take_of_lt (by omega), List.getElem?_eq_getElem inside]

theorem reroute_eq (underway : f.Underway v former current i j) {last : Step}
    (h : (current.steps.take j).getLast? = some last) :
    f.reroute v = f.rerouteFrom v former last.destination := by
  obtain ⟨name, carried, stored⟩ := underway.stored
  obtain ⟨c, attached, sent⟩ := underway.sent
  have long : i < (current.steps.take j).length := by
    rw [List.length_take_of_le underway.within]
    exact underway.order
  have final : c.sent.getLast? = some last := by
    rw [sent, List.getLast?_drop, if_neg (Nat.not_le_of_lt long), h]
  have starts : f.source v c = .ok last.destination := by
    rw [Fleet.source, final]
  simp only [reroute, carried, stored, attached, starts]

end Underway

/-- A reroute leaves the steps that were sent in the drive order, whatever happened before, exactly
    if they do not end at a point that the vehicle has come by on its way. -/
theorem keeps_sent_iff (plant : PlantVersions) (settings : RouterSettings) (fallback : Fallback)
    (bookkeeping : Bookkeeping) (actions : List FleetAction) {f : Fleet} {v : VehicleReport}
    {former : TransportOrder} {current : DriveOrder} {i j : Nat}
    (history : f = (ofSettings plant settings fallback bookkeeping).run actions)
    (underway : f.Underway v former current i j) (rerouted : (f.reroute v).1 = .ok .rerouted) :
    ∃ name former' current', v.order = some name ∧
      (f.reroute v).2.book.order? name = some former' ∧ former'.current? = some current' ∧
        (SameSteps (current'.steps.take j) (current.steps.take j) ↔ ¬ current.Revisits j) := by
  have sound : f.Sound := history ▸ sound_run (sound_ofSettings ..) actions
  obtain ⟨last, place, final⟩ := underway.last
  rw [underway.reroute_eq final] at rerouted ⊢
  obtain ⟨f₁, f₂, plan, joined, replanned, adjoined, adopted⟩ :=
    rerouteFrom_ok (Prod.ext rerouted rfl)
  rw [TransportOrder.unfinished_of_current? underway.driving] at replanned
  obtain ⟨first, rest, rfl, starts, away⟩ := replan_ok sound.router replanned
  rw [underway.driving] at adjoined
  obtain ⟨current', rfl, joins⟩ := adjoin_ok underway.processing adjoined
  have book : f₂.book = f.book := by
    rw [← congrArg (·.2.book) adjoined, adjoin_book, ← congrArg (·.2.book) replanned, replan_book]
  obtain ⟨name, carried, stored⟩ := underway.stored
  have entered := OrderBook.get?_of_order? stored
  cases sound.book name former entered
  rw [← book] at entered
  obtain ⟨former', found, orders, place'⟩ := adopt_ok underway.processing entered adopted
  refine ⟨former.name, former', current', carried, found, ?_, ?_⟩
  · rw [TransportOrder.current?_of_past underway.driving orders place', List.head?_cons]
  · split at joins
    · rename_i ends
      subst joins
      have unvisited : ¬ current'.Revisits j := by
        intro h
        obtain ⟨last', final', goesOn, -⟩ := h
        cases final.symm.trans final'
        exact goesOn ends
      exact iff_of_true (.refl _) unvisited
    · rename_i goesOn
      have order := underway.order
      have keeps := spliceSteps_keeps_iff joins starts away place rfl
      rw [show j - 1 + 1 = j by omega] at keeps
      rw [keeps]
      constructor
      · intro clear h
        obtain ⟨last', final', -, s, sent, back⟩ := h
        cases final.symm.trans final'
        exact clear s sent back
      · intro unvisited s sent back
        exact unvisited ⟨last, final, goesOn, s, sent, back⟩

def junction : PlantVersions where
  current := {
    layout := {
      points := [{ name := "A", position := ⟨0, 0⟩ }, { name := "B", position := ⟨1000, 0⟩ },
        { name := "C", position := ⟨2000, 0⟩ }, { name := "D", position := ⟨3000, 0⟩ },
        { name := "X", position := ⟨2000, 1000⟩ }]
      paths := [{ name := "A-->B", source := ⟨0⟩, destination := ⟨1⟩, length := 1000 },
        { name := "B-->C", source := ⟨1⟩, destination := ⟨2⟩, length := 1000,
          backwardVelocity := 1000 },
        { name := "C-->D", source := ⟨2⟩, destination := ⟨3⟩, length := 1000 },
        { name := "B-->X", source := ⟨1⟩, destination := ⟨4⟩, length := 1500 },
        { name := "X-->D", source := ⟨4⟩, destination := ⟨3⟩, length := 1500 }] }
    sound := by decide
    incidence := [[⟨0⟩], [⟨0⟩, ⟨1⟩, ⟨3⟩], [⟨1⟩, ⟨2⟩], [⟨2⟩, ⟨4⟩], [⟨3⟩, ⟨4⟩]]
    incidence_eq := by decide
    memberships := ∅
    memberships_eq := by decide }

def agv : VehicleReport where
  vehicle := { id := ⟨0⟩, name := "AGV-01" }
  activity := .processingOrder
  order := some "t1"

def outward : List Step := [
  { path := ⟨0⟩, source := ⟨0⟩, destination := ⟨1⟩, direction := .forward, index := 0 },
  { path := ⟨1⟩, source := ⟨1⟩, destination := ⟨2⟩, direction := .forward, index := 1 }]

def onward : List Step := [
  { path := ⟨2⟩, source := ⟨2⟩, destination := ⟨3⟩, direction := .forward, index := 2 }]

def around : List Step := [
  { path := ⟨1⟩, source := ⟨2⟩, destination := ⟨1⟩, direction := .backward, index := 2,
    rerouted := true },
  { path := ⟨3⟩, source := ⟨1⟩, destination := ⟨4⟩, direction := .forward, index := 3,
    rerouted := true },
  { path := ⟨4⟩, source := ⟨4⟩, destination := ⟨3⟩, direction := .forward, index := 4,
    rerouted := true }]

def driveTo (steps : List Step) (cost : Cost) : DriveOrder where
  destination := ⟨3⟩
  route := some { steps, cost }

def sentOut : Fleet := (ofSettings junction {} .pauseAtPathLock .keeps).run [.attach "AGV-01",
  .enter "t1" agv.vehicle ⟨0⟩ [⟨3⟩], .send "AGV-01" outward, .lock ⟨2⟩ true]

def sentBack : Fleet := (ofSettings junction {} .pauseAtPathLock .keeps).run [.attach "AGV-01",
  .enter "t1" agv.vehicle ⟨0⟩ [⟨3⟩], .send "AGV-01" outward, .lock ⟨2⟩ true, .reroute agv,
  .send "AGV-01" (around.take 1)]

theorem keeps_sent_junction :
    ∃ former' current', (sentOut.reroute agv).2.book.order? "t1" = some former' ∧
      former'.current? = some current' ∧ SameSteps (current'.steps.take 2) outward := by
  have underway : sentOut.Underway agv
      { name := "t1", driveOrders := [driveTo (outward ++ onward) 3000] }
      (driveTo (outward ++ onward) 3000) 0 2 := {
    processing := rfl
    stored := ⟨"t1", rfl, by decide_cbv⟩
    driving := rfl
    sent := ⟨{ sent := outward, attached := true }, by decide_cbv, rfl⟩
    order := by decide
    within := by decide }
  obtain ⟨name, former', current', carried, found, driving, keeps⟩ :=
    keeps_sent_iff junction {} .pauseAtPathLock .keeps _ rfl underway (by cbv)
  cases carried
  refine ⟨former', current', found, driving, keeps.mpr ?_⟩
  intro h
  obtain ⟨last, final, -, s, sent, back⟩ := h
  cases final
  have steps : (driveTo (outward ++ onward) 3000).steps.take 2 = outward := rfl
  rw [steps] at sent
  revert s
  decide

/-- At B it is rerouted again: the steps to C and back are taken out of the order, although the
    vehicle was sent there. -/
theorem not_keeps_sent_junction :
    ∃ former current former' current', sentBack.Underway agv former current 0 3 ∧
      (sentBack.reroute agv).1 = .ok .rerouted ∧
        (sentBack.reroute agv).2.book.order? "t1" = some former' ∧
          former'.current? = some current' ∧
            ¬ SameSteps (current'.steps.take 3) (current.steps.take 3) := by
  let former : TransportOrder :=
    { name := "t1", driveOrders := [driveTo (outward ++ around) 4000] }
  let former' : TransportOrder :=
    { name := "t1", driveOrders := [driveTo (renumber (outward.take 1 ++ around.drop 1)) 4000] }
  have underway : sentBack.Underway agv former (driveTo (outward ++ around) 4000) 0 3 := {
    processing := rfl
    stored := ⟨"t1", rfl, by decide_cbv⟩
    driving := rfl
    sent := ⟨{ sent := outward ++ around.take 1, attached := true, order := some former },
      by decide_cbv, rfl⟩
    order := by decide
    within := by decide }
  refine ⟨former, _, former', _, underway, by cbv, by decide_cbv, rfl, ?_⟩
  unfold SameSteps
  decide

end Fleet

end TrafficControl
