import TrafficControl.Proofs.Transport.KeptPlan

namespace TrafficControl

/-- The steps lead from one point to another, each going on where the one before ends. -/
structure Leads (steps : List Step) (p d : PointId) : Prop where
  connected : steps.IsChain fun a b => a.destination = b.source
  starts : ∀ s, steps.head? = some s → s.source = p
  ends : ∀ s, steps.getLast? = some s → s.destination = d
  stays : steps = [] → p = d

def Numbered (steps : List Step) : Prop := steps.map (·.index) = List.range steps.length

section Leads

variable {s : Step} {l m steps : List Step} {p q d : PointId}

theorem leads_nil : Leads [] p d ↔ p = d := by
  refine ⟨fun h => h.stays rfl, fun same => ⟨.nil, ?_, ?_, fun _ => same⟩⟩ <;>
    · intro s none
      cases none

theorem leads_cons : Leads (s :: l) p d ↔ s.source = p ∧ Leads l s.destination d := by
  constructor
  · intro h
    refine ⟨h.starts s rfl, h.connected.tail, ?_, ?_, ?_⟩
    · intro t head
      obtain ⟨rest, rfl⟩ := List.head?_eq_some_iff.mp head
      exact ((List.isChain_cons_cons.mp h.connected).1).symm
    · intro t last
      refine h.ends t ?_
      rw [List.getLast?_cons, last, Option.getD_some]
    · intro none
      subst none
      exact h.ends s rfl
  · intro h
    obtain ⟨start, rest⟩ := h
    refine ⟨?_, ?_, ?_, ?_⟩
    · cases l with
      | nil => exact .singleton s
      | cons t l => exact List.isChain_cons_cons.mpr ⟨(rest.starts t rfl).symm, rest.connected⟩
    · intro t head
      cases head
      exact start
    · intro t last
      cases l with
      | nil =>
        cases last
        exact rest.stays rfl
      | cons t' l =>
        rw [List.getLast?_cons_cons] at last
        exact rest.ends t last
    · intro none
      cases none

theorem leads_of_head (connected : l.IsChain fun a b => a.destination = b.source)
    (ends : ∀ t, l.getLast? = some t → t.destination = d) (head : l.head? = some s) :
    Leads l s.source d := by
  refine ⟨connected, fun t head' => ?_, ends, fun none => ?_⟩
  · cases head.symm.trans head'
    rfl
  · rw [none] at head
    cases head

theorem Leads.append (first : Leads l p q) (second : Leads m q d) : Leads (l ++ m) p d := by
  induction l generalizing p with
  | nil => exact leads_nil.mp first ▸ second
  | cons s l ih =>
    obtain ⟨start, rest⟩ := leads_cons.mp first
    exact leads_cons.mpr ⟨start, ih rest⟩

theorem Leads.take (leads : Leads l p d) {k : Nat} (place : l[k]? = some s) :
    Leads (l.take k) p s.source := by
  induction l generalizing p k with
  | nil => cases place
  | cons t l ih =>
    obtain ⟨start, rest⟩ := leads_cons.mp leads
    cases k with
    | zero =>
      cases place
      exact leads_nil.mpr start.symm
    | succ k => exact leads_cons.mpr ⟨start, ih rest place⟩

theorem leads_congr (same : l.map Step.ends = m.map Step.ends) : Leads l p d ↔ Leads m p d := by
  induction l generalizing m p with
  | nil =>
    rw [List.map_nil, eq_comm, List.map_eq_nil_iff] at same
    rw [same]
  | cons s l ih =>
    rw [List.map_cons, eq_comm, List.map_eq_cons_iff] at same
    obtain ⟨t, m, rfl, alike, same⟩ := same
    have source : t.source = s.source := congrArg Prod.fst alike
    have destination : t.destination = s.destination := congrArg Prod.snd alike
    rw [leads_cons, leads_cons, source, destination, ih same.symm]

theorem numbered_mapIdx {α : Type} (l : List α) {step : Nat → α → Step}
    (numbers : ∀ i a, (step i a).index = i) : Numbered (l.mapIdx step) := by
  refine List.ext_getElem (by rw [List.length_map, List.length_range]) fun i _ _ => ?_
  rw [List.getElem_map, List.getElem_mapIdx, numbers, List.getElem_range]

theorem numbered_renumber (steps : List Step) : Numbered (renumber steps) :=
  numbered_mapIdx steps fun _ _ => rfl

theorem head_of_spliceSteps {old new : List Step} (h : spliceSteps old new = .ok steps) :
    ∃ s, old.head? = some s := by
  obtain ⟨first, branch, -, found, -⟩ := spliceSteps_ok h
  cases old with
  | nil => cases found
  | cons s rest => exact ⟨s, rfl⟩

/-- Steps that lead somewhere, with a way from a point that they pass spliced in there. -/
theorem leads_spliceSteps {old new : List Step} {p' d' : PointId} (before : Leads old p d')
    (after : Leads new p' d) (h : spliceSteps old new = .ok steps) :
    Numbered steps ∧ Leads steps p d := by
  obtain ⟨first, branch, head, found, rfl⟩ := spliceSteps_ok h
  rw [List.findIdx?_eq_some_iff_getElem] at found
  obtain ⟨inside, here, -⟩ := found
  have kept : Leads (old.take branch) p p' := by
    rw [← after.starts first head, ← of_decide_eq_true here]
    exact before.take (List.getElem?_eq_getElem inside)
  exact ⟨numbered_renumber _, (leads_congr (ends_renumber _)).mpr (kept.append after)⟩

end Leads

theorem Walk.leads {ok : Arc → Prop} {p d : PointId} {l : List Arc} (walk : Walk ok p l d)
    {step : Nat → Arc → Step} (ends : ∀ i a, (step i a).ends = (a.source, a.target)) :
    Leads (l.mapIdx step) p d := by
  induction walk generalizing step with
  | stay p => exact leads_nil.mpr rfl
  | @drive a l d _ _ ih =>
    have source : (step 0 a).source = a.source := congrArg Prod.fst (ends 0 a)
    have target : (step 0 a).destination = a.target := congrArg Prod.snd (ends 0 a)
    rw [List.mapIdx_cons, leads_cons, target]
    exact ⟨source, ih fun i a => ends (i + 1) a⟩

theorem Navigator.leads_of_route {n : Navigator} {p d : PointId} {route : Route}
    (sound : n.network.Sound) (known : p.index < n.network.pointCount)
    (h : n.route p d = some route) : Numbered route.steps ∧ Leads route.steps p d := by
  obtain ⟨l, walk, steps, -⟩ := walk_of_route sound known h
  rw [steps]
  exact ⟨numbered_mapIdx l fun _ _ => rfl, walk.leads fun _ _ => rfl⟩

structure DriveOrder.RoutedFrom (o : DriveOrder) (p : PointId) : Prop where
  routed : o.route.isSome = true
  numbered : Numbered o.steps
  leads : Leads o.steps p o.destination

/-- Drive orders with routes, each from the destination of the one before. -/
def Legs (p : PointId) : List DriveOrder → Prop
  | [] => True
  | o :: rest => o.RoutedFrom p ∧ Legs o.destination rest

theorem routedFrom_rerouteOrder {o : DriveOrder} {route : Route} {p : PointId}
    (numbered : Numbered route.steps) (leads : Leads route.steps p o.destination) :
    (Fleet.rerouteOrder o route).RoutedFrom p where
  routed := rfl
  numbered := by
    simp only [Numbered, Fleet.rerouteOrder, DriveOrder.steps, Option.map_some, Option.getD_some,
      List.map_map, List.length_map]
    exact numbered
  leads := by
    refine (leads_congr ?_).mpr leads
    simp only [Fleet.rerouteOrder, DriveOrder.steps, Option.map_some, Option.getD_some,
      List.map_map]
    rfl

theorem Navigator.legs_of_legs {n : Navigator} (sound : n.network.Sound) {p : PointId}
    {orders : List DriveOrder} {routes : List Route} (known : p.index < n.network.pointCount)
    (later : ∀ o ∈ orders, o.destination.index < n.network.pointCount)
    (h : n.legs p (orders.map (·.destination)) = some routes) :
    Legs p (List.zipWith Fleet.rerouteOrder orders routes) ∧
      (List.zipWith Fleet.rerouteOrder orders routes).map (·.destination) =
        orders.map (·.destination) := by
  induction orders generalizing p routes with
  | nil => exact ⟨trivial, rfl⟩
  | cons o orders ih =>
    rw [List.map_cons, Navigator.legs] at h
    simp only [Option.bind_eq_bind, Option.bind_eq_some_iff] at h
    obtain ⟨route, found, routes, rest, same⟩ := h
    cases same
    obtain ⟨numbered, leads⟩ := leads_of_route sound known found
    obtain ⟨legs, destinations⟩ := ih (later o List.mem_cons_self)
      (fun o' member => later o' (List.mem_cons_of_mem _ member)) rest
    refine ⟨⟨routedFrom_rerouteOrder numbered leads, legs⟩, ?_⟩
    rw [List.zipWith_cons_cons, List.map_cons, destinations, List.map_cons]
    rfl

theorem TransportOrder.unfinished_of_past {t : TransportOrder} {current : DriveOrder}
    {plan : List DriveOrder} (h : t.current? = some current) :
    { t with driveOrders := t.past ++ plan : TransportOrder }.unfinished = plan := by
  obtain ⟨inside, -⟩ := List.getElem?_eq_some_iff.mp h
  have passed : t.past.length = t.current := List.length_take_of_le (Nat.le_of_lt inside)
  exact List.drop_left' passed

theorem DriveOrder.routeEnd?_eq (o : DriveOrder) :
    o.routeEnd? = o.steps.getLast?.map (·.destination) := by
  cases h : o.route with
  | none => rw [routeEnd?, steps, h]; rfl
  | some route => rw [routeEnd?, steps, h]; rfl

theorem DriveOrder.head_of_routeEnd? {o : DriveOrder} {d : PointId} (h : o.routeEnd? = some d) :
    o.route.isSome = true ∧ ∃ s, o.steps.head? = some s := by
  obtain ⟨route, routed, -⟩ := Option.bind_eq_some_iff.mp h
  refine ⟨by rw [routed]; rfl, ?_⟩
  rw [routeEnd?_eq] at h
  cases way : o.steps with
  | nil =>
    rw [way] at h
    cases h
  | cons s rest => exact ⟨s, rfl⟩

theorem Router.splice_keeps {r : Router} {v : Vehicle} {old new spliced : DriveOrder}
    (h : (r.splice v old new).1 = .ok spliced) :
    spliced.destination = old.destination ∧ spliced.route.isSome = true := by
  simp only [Router.splice] at h
  split at h
  · cases h
  · split at h
    · split at h
      · cases h
      · cases h
        exact ⟨rfl, rfl⟩
    · cases h

namespace Fleet

variable {f f₁ : Fleet} {v : VehicleReport} {former : TransportOrder} {source : PointId}

theorem legs_replan (sound : f.router.Sound) {orders plan : List DriveOrder}
    (h : f.replan v source orders = (.ok (plan, .rerouted), f₁)) :
    Legs source plan ∧ plan.map (·.destination) = orders.map (·.destination) := by
  unfold replan at h
  split at h
  · cases h
  · rename_i routes router asked
    cases h
    have answer : Router.ask (f.router.navigator v.vehicle).1
        (source :: orders.map (·.destination)) (·.legs source (orders.map (·.destination))) =
          .ok (some routes) := congrArg Prod.fst asked
    obtain ⟨known, found⟩ := Router.ask_ok answer
    refine Navigator.legs_of_legs (sound.navigator v.vehicle).1
      (known source List.mem_cons_self) (fun o member => ?_) found
    exact known _ (List.mem_cons_of_mem _ (List.mem_map_of_mem member))
  · cases h

theorem legs_adjoin {current first : DriveOrder} {rest joined : List DriveOrder}
    (connected : current.steps.IsChain fun a b => a.destination = b.source)
    (numbered : Numbered current.steps)
    (ends : ∀ s, current.steps.getLast? = some s → s.destination = current.destination)
    (legs : Legs source (first :: rest)) (same : first.destination = current.destination)
    (h : f.adjoin v (some current) source (first :: rest) = (.ok joined, f₁)) :
    ∃ start, Legs start joined ∧
      joined.map (·.destination) = (first :: rest).map (·.destination) ∧
      (v.activity ≠ .processingOrder → start = source) ∧
      (v.activity = .processingOrder →
        ∃ s, current.steps.head? = some s ∧ start = s.source) := by
  obtain ⟨leg, later⟩ := legs
  rw [same] at later
  unfold adjoin at h
  split at h
  · rename_i still
    cases h
    exact ⟨source, ⟨leg, same ▸ later⟩, rfl, fun _ => rfl, fun processing => absurd processing still⟩
  · rename_i processing
    simp only at h
    split at h
    · rename_i sent
      cases h
      obtain ⟨routed, s, head⟩ := DriveOrder.head_of_routeEnd? sent
      have leads := leads_of_head connected ends head
      refine ⟨s.source, ⟨⟨routed, numbered, leads⟩, later⟩, ?_,
        fun still => absurd still processing, fun _ => ⟨s, head, rfl⟩⟩
      rw [List.map_cons, List.map_cons, same]
    · split at h
      · cases h
      · rename_i spliced router stage
        cases h
        obtain ⟨destination, routed⟩ := Router.splice_keeps (congrArg Prod.fst stage)
        have joins := Router.splice_ok (congrArg Prod.fst stage)
        obtain ⟨s, head⟩ := head_of_spliceSteps joins
        obtain ⟨numbered', leads⟩ :=
          leads_spliceSteps (leads_of_head connected ends head) leg.leads joins
        rw [same, ← destination] at leads
        rw [← destination] at later
        refine ⟨s.source, ⟨⟨routed, numbered', leads⟩, later⟩, ?_,
          fun still => absurd still processing, fun _ => ⟨s, head, rfl⟩⟩
        rw [List.map_cons, List.map_cons, same, destination]

/-- If the way that a vehicle is driving is connected and numbered and ends where it is to go, then
    after a reroute all that it has to do is so too, from one destination to the next. -/
theorem rerouted_connected (sound : f.Sound) {name : String} {current : DriveOrder}
    (carried : v.order = some name) (stored : f.book.order? name = some former)
    (driving : former.current? = some current)
    (connected : current.steps.IsChain fun a b => a.destination = b.source)
    (numbered : Numbered current.steps)
    (ends : ∀ s, current.steps.getLast? = some s → s.destination = current.destination)
    (rerouted : (f.reroute v).1 = .ok .rerouted) :
    ∃ c source start former', f.attached? v.vehicle.name = some c ∧ f.source v c = .ok source ∧
      (f.reroute v).2.book.orders.get? name = some former' ∧
      former'.unfinished.map (·.destination) = former.unfinished.map (·.destination) ∧
      Legs start former'.unfinished ∧
      (v.activity ≠ .processingOrder → start = source) ∧
      (v.activity = .processingOrder → ∃ s, current.steps.head? = some s ∧ start = s.source) := by
  obtain ⟨name', former', c, source, carried', stored', attached, located, answer⟩ :=
    reroute_ok (by decide) rerouted
  cases carried.symm.trans carried'
  cases stored.symm.trans stored'
  rw [answer] at rerouted ⊢
  obtain ⟨f₁, f₂, plan, joined, replanned, adjoined, adopted⟩ :=
    rerouteFrom_ok (Prod.ext rerouted rfl)
  obtain ⟨legs, destinations⟩ := legs_replan sound.router replanned
  have unfinished := TransportOrder.unfinished_of_current? driving
  rw [unfinished, List.map_cons] at destinations
  obtain ⟨first, rest, rfl, same, later⟩ := List.map_eq_cons_iff.mp destinations
  rw [driving] at adjoined
  obtain ⟨start, legs', destinations', stands, drives⟩ :=
    legs_adjoin connected numbered ends legs same adjoined
  have book : f₂.book = f.book := by
    rw [← congrArg (·.2.book) adjoined, adjoin_book, ← congrArg (·.2.book) replanned, replan_book]
  have entered := OrderBook.get?_of_order? stored
  cases sound.book name former entered
  rw [← book] at entered
  refine ⟨c, source, start, _, attached, located, adopt_stored entered adopted, ?_, ?_, stands,
    drives⟩
  · rw [TransportOrder.unfinished_of_past driving, destinations', destinations, unfinished,
      List.map_cons]
  · rw [TransportOrder.unfinished_of_past driving]
    exact legs'

theorem rerouted_connected_junction :
    (sentOut.reroute agv).1 = .ok .rerouted ∧
      ∃ former', (sentOut.reroute agv).2.book.orders.get? "t1" = some former' ∧
        Legs ⟨0⟩ former'.unfinished := by
  have rerouted : (sentOut.reroute agv).1 = .ok .rerouted := by cbv
  have stored : sentOut.book.order? "t1" =
      some { name := "t1", driveOrders := [driveTo (outward ++ onward) 3000] } := by decide_cbv
  obtain ⟨c, source, start, former', -, -, found, -, legs, -, drives⟩ :=
    rerouted_connected (sound_run (sound_ofSettings ..) _) rfl stored rfl (by decide) rfl
      (by decide) rerouted
  obtain ⟨s, head, rfl⟩ := drives rfl
  cases head
  exact ⟨rerouted, former', found, legs⟩

end Fleet

end TrafficControl
