import TrafficControl.Proofs.Transport.Apart

namespace TrafficControl

def RerouteFault.halts : RerouteFault → Bool
  | undecidedPosition _ => true
  | _ => false

theorem Router.halts_splice {r : Router} {v : Vehicle} {old new : DriveOrder} {fault : RerouteFault}
    (h : (r.splice v old new).1 = .error fault) : fault.halts = false := by
  simp only [Router.splice, spliceSteps] at h
  split at h
  · rename_i stopped
    split at stopped
    · cases stopped
      cases h
      rfl
    · split at stopped <;> cases stopped
      cases h
      rfl
  · split at h
    · split at h <;> cases h
      rfl
    · cases h
      rfl

namespace Fleet

variable {f g h : Fleet} {v w : VehicleReport} {former : TransportOrder} {source : PointId}
  {name : String} {vs ws : List VehicleReport} {fault : RerouteFault}

def halts (f : Fleet) (v : VehicleReport) : Bool :=
  match (f.reroute v).1 with
  | .error fault => fault.halts
  | .ok _ => false

theorem halts_replan {orders : List DriveOrder}
    (h : (f.replan v source orders).1 = .error fault) : fault.halts = false := by
  unfold replan at h
  split at h <;> cases h
  rfl

theorem halts_adjoin {current : Option DriveOrder} {plan : List DriveOrder}
    (h : (f.adjoin v current source plan).1 = .error fault) : fault.halts = false := by
  unfold adjoin at h
  split at h
  · cases h
  · split at h
    · split at h
      · cases h
      · split at h <;> cases h
        rename_i stage
        exact Router.halts_splice (congrArg Prod.fst stage)
    · cases h

theorem halts_adopt {plan : List DriveOrder} (h : (f.adopt v former plan).1 = .error fault) :
    fault.halts = false := by
  simp only [adopt] at h
  split at h
  · rename_i updated
    cases h
    unfold OrderBook.update at updated
    split at updated
    · cases updated
      rfl
    · split at updated <;> cases updated
      rfl
  · split at h
    · rename_i handed
      cases h
      unfold handOver at handed
      split at handed
      · cases handed
      · split at handed <;> cases handed
        rfl
    · cases h

theorem halts_rerouteFrom (h : (f.rerouteFrom v former source).1 = .error fault) :
    fault.halts = false := by
  unfold rerouteFrom at h
  split at h
  · cases h
    rfl
  · split at h
    · rename_i stage
      cases h
      exact halts_replan (congrArg Prod.fst stage)
    · split at h
      · rename_i stage
        cases h
        exact halts_adjoin (congrArg Prod.fst stage)
      · split at h
        · rename_i stage
          cases h
          exact halts_adopt (congrArg Prod.fst stage)
        · cases h

theorem source_of_undecided {c : Controller} {position : Position} (sent : c.sent = [])
    (nowhere : v.point = none) (here : v.position = some position)
    (undecided : f.plant.nearest position = .undecided) :
    f.source v c = .error (.undecidedPosition v.vehicle.name) := by
  simp only [source, sent, nowhere, here, undecided, List.getLast?_nil, Option.map_some]

theorem undecided_of_halts {c : Controller} (located : f.source v c = .error fault)
    (halting : fault.halts = true) : c.sent = [] ∧ v.point = none ∧
      ∃ position, v.position = some position ∧ f.plant.nearest position = .undecided := by
  unfold source at located
  split at located
  · cases located
  · rename_i sent
    split at located
    · cases located
    · rename_i nowhere
      split at located
      · cases located
      · rename_i undecided
        obtain ⟨position, here, undecided⟩ := Option.map_eq_some_iff.mp undecided
        exact ⟨List.getLast?_eq_none_iff.mp sent, nowhere, position, here, undecided⟩
      · cases located
        cases halting
      · cases located
        cases halting

/-- A vehicle halts a reroute if that depends on where it is and this cannot be told. -/
theorem halts_iff : f.halts v = true ↔ ∃ name former c position, v.order = some name ∧
    f.book.order? name = some former ∧ f.attached? v.vehicle.name = some c ∧ c.sent = [] ∧
      v.point = none ∧ v.position = some position ∧ f.plant.nearest position = .undecided := by
  constructor
  · intro halting
    unfold halts at halting
    split at halting
    · rename_i fault answered
      unfold reroute at answered
      split at answered
      · cases answered
      · rename_i name carried
        split at answered
        · cases answered
          cases halting
        · rename_i former stored
          split at answered
          · cases answered
            cases halting
          · rename_i c attached
            split at answered
            · rename_i located
              cases answered
              obtain ⟨sent, nowhere, position, here, undecided⟩ :=
                undecided_of_halts located halting
              exact ⟨name, former, c, position, carried, stored, attached, sent, nowhere, here,
                undecided⟩
            · rw [halts_rerouteFrom answered] at halting
              cases halting
    · cases halting
  · rintro ⟨name, former, c, position, carried, stored, attached, sent, nowhere, here, undecided⟩
    simp only [halts, reroute, carried, stored, attached,
      source_of_undecided sent nowhere here undecided, RerouteFault.halts]

theorem isNaN_of_halts (halting : f.halts v = true) : v.point = none ∧ ∃ position,
    v.position = some position ∧
      ∃ q ∈ f.plant.layout.places, (position.squaredDistance q).isNaN = true := by
  obtain ⟨-, -, -, position, -, -, -, -, nowhere, here, undecided⟩ := halts_iff.mp halting
  exact ⟨nowhere, position, here, f.plant.spatial.undecided undecided⟩

theorem reroute_of_halts (halting : f.halts v = true) :
    f.reroute v = (.error (.undecidedPosition v.vehicle.name), f) := by
  obtain ⟨name, former, c, position, carried, stored, attached, sent, nowhere, here, undecided⟩ :=
    halts_iff.mp halting
  simp only [reroute, carried, stored, attached, source_of_undecided sent nowhere here undecided]

theorem rerouteAll_of_halts (halting : f.halts v = true) (rest : List VehicleReport) :
    f.rerouteAll (v :: rest) = (.error (.undecidedPosition v.vehicle.name), f) := by
  simp only [rerouteAll, reroute_of_halts halting]

theorem rerouteAll_of_goesOn (goesOn : f.halts v = false) (rest : List VehicleReport) :
    f.rerouteAll (v :: rest) =
      (((f.reroute v).2.rerouteAll rest).1.map ((v.vehicle.id, (f.reroute v).1) :: ·),
        ((f.reroute v).2.rerouteAll rest).2) := by
  unfold halts at goesOn
  rcases stage : f.reroute v with ⟨fault | outcome, g⟩
  · rw [stage] at goesOn
    cases fault with
    | undecidedPosition => cases goesOn
    | _ => simp only [rerouteAll, stage]
  · simp only [rerouteAll, stage]

/-- The fleets have the same orders stored, the same controllers and the same routes selected. -/
structure SameRecords (f g : Fleet) : Prop where
  orders : g.book.orders = f.book.orders
  bookkeeping : ∀ name, g.book.bookkeeping.about name = f.book.bookkeeping.about name
  controllers : g.controllers = f.controllers
  selected : g.router.selected = f.router.selected

namespace SameRecords

theorem refl (f : Fleet) : f.SameRecords f := ⟨rfl, fun _ => rfl, rfl, rfl⟩

theorem symm (same : f.SameRecords g) : g.SameRecords f where
  orders := same.orders.symm
  bookkeeping name := (same.bookkeeping name).symm
  controllers := same.controllers.symm
  selected := same.selected.symm

theorem trans (first : f.SameRecords g) (second : g.SameRecords h) : f.SameRecords h where
  orders := second.orders.trans first.orders
  bookkeeping name := (second.bookkeeping name).trans (first.bookkeeping name)
  controllers := second.controllers.trans first.controllers
  selected := second.selected.trans first.selected

theorem samePlanFor (same : f.SameRecords g) (v : VehicleReport) : SamePlanFor v f g where
  book name _ := ⟨congrArg (·.get? name) same.orders, same.bookkeeping name⟩
  controller := congrArg (·.get? v.vehicle.name) same.controllers
  selected := congrArg (·.get? v.vehicle.id) same.selected

end SameRecords

/-- The second fleet is the first with each of the vehicles rerouted as if there were no others. -/
structure ReroutesEach (f : Fleet) (vs : List VehicleReport) (g : Fleet) : Prop where
  own : ∀ v ∈ vs, SamePlanFor v (f.reroute v).2 g
  book : ∀ name, (∀ v ∈ vs, v.order ≠ some name) → f.book.Agrees name g.book
  controllers : ∀ name, (∀ v ∈ vs, name ≠ v.vehicle.name) →
    g.controllers.get? name = f.controllers.get? name
  selected : ∀ id, (∀ v ∈ vs, id ≠ v.vehicle.id) →
    g.router.selected.get? id = f.router.selected.get? id

namespace ReroutesEach

theorem of_sameRecords (same : ∀ v ∈ vs, f.SameRecords (f.reroute v).2) : f.ReroutesEach vs f where
  own v member := (same v member).symm.samePlanFor v
  book name _ := .refl name f.book
  controllers _ _ := rfl
  selected _ _ := rfl

theorem nil (f : Fleet) : f.ReroutesEach [] f := of_sameRecords fun _ member => by cases member

theorem cons (named : f.book.Named) (apart : ∀ w ∈ vs, v.Apart w)
    (same : ∀ w ∈ vs, SameFor w f (f.reroute v).2)
    (later : (f.reroute v).2.ReroutesEach vs g) : f.ReroutesEach (v :: vs) g where
  own w member := by
    rcases List.mem_cons.mp member with rfl | member
    · exact {
        book := fun name carried =>
          later.book name fun u other => (apart u other).order name carried
        controller := later.controllers _ fun u other => (apart u other).name.symm
        selected := later.selected _ fun u other => (apart u other).id.symm }
    · have rerouted := ((same w member).reroute named).2
      exact rerouted.toSamePlanFor.trans (later.own w member)
  book name others := by
    have first := (confined_reroute named v).book name (others v List.mem_cons_self)
    exact first.trans (later.book name fun u other => others u (List.mem_cons_of_mem _ other))
  controllers name others := by
    have first := (confined_reroute named v).controllers name (others v List.mem_cons_self)
    exact (later.controllers name fun u other => others u (List.mem_cons_of_mem _ other)).trans first
  selected id others := by
    have first := (confined_reroute named v).selected id (others v List.mem_cons_self)
    exact (later.selected id fun u other => others u (List.mem_cons_of_mem _ other)).trans first

theorem perm (perm : ws.Perm vs) (each : f.ReroutesEach ws g) : f.ReroutesEach vs g where
  own v member := each.own v (perm.mem_iff.mpr member)
  book name others := each.book name fun v member => others v (perm.mem_iff.mp member)
  controllers name others := each.controllers name fun v member => others v (perm.mem_iff.mp member)
  selected id others := each.selected id fun v member => others v (perm.mem_iff.mp member)

theorem sameRecords (each : f.ReroutesEach vs g) (each' : f.ReroutesEach vs h) :
    g.SameRecords h := by
  have books (name : String) : g.book.Agrees name h.book := by
    by_cases carried : ∃ v ∈ vs, v.order = some name
    · obtain ⟨v, member, carried⟩ := carried
      have before := (each.own v member).book name carried
      exact before.symm.trans ((each'.own v member).book name carried)
    · have none : ∀ v ∈ vs, v.order ≠ some name :=
        fun v member own => carried ⟨v, member, own⟩
      exact (each.book name none).symm.trans (each'.book name none)
  refine ⟨Table.ext fun name => (books name).orders, fun name => (books name).bookkeeping,
    Table.ext fun name => ?_, Table.ext fun id => ?_⟩
  · by_cases driven : ∃ v ∈ vs, name = v.vehicle.name
    · obtain ⟨v, member, rfl⟩ := driven
      rw [(each.own v member).controller, (each'.own v member).controller]
    · have none : ∀ v ∈ vs, name ≠ v.vehicle.name :=
        fun v member own => driven ⟨v, member, own⟩
      rw [each.controllers name none, each'.controllers name none]
  · by_cases known : ∃ v ∈ vs, id = v.vehicle.id
    · obtain ⟨v, member, rfl⟩ := known
      rw [(each.own v member).selected, (each'.own v member).selected]
    · have none : ∀ v ∈ vs, id ≠ v.vehicle.id := fun v member own => known ⟨v, member, own⟩
      rw [each.selected id none, each'.selected id none]

end ReroutesEach

/-- The vehicles share nothing, and what they pay for driving is such that it does not matter which
    of a group is the first to ask for ways. -/
def Independent (f : Fleet) (vs : List VehicleReport) : Prop :=
  vs.Pairwise fun v w => v.Apart w ∧ f.router.Level v.vehicle w.vehicle

theorem Independent.perm (independent : f.Independent vs) (perm : ws.Perm vs) :
    f.Independent ws := by
  refine (perm.pairwise_iff fun {v w} both => ?_).mpr independent
  exact ⟨⟨both.1.id.symm, both.1.name.symm, fun name carried own => both.1.order name own carried⟩,
    both.2.symm⟩

def answer (f : Fleet) (v : VehicleReport) : VehicleId × Except RerouteFault RerouteOutcome :=
  (v.vehicle.id, (f.reroute v).1)

theorem rerouteAll_append (named : f.book.Named) (independent : f.Independent (vs ++ ws))
    (goesOn : ∀ v ∈ vs, f.halts v = false) :
    ∃ g, f.ReroutesEach vs g ∧ (∀ w ∈ ws, SameFor w f g) ∧
      f.rerouteAll (vs ++ ws) =
        ((g.rerouteAll ws).1.map (vs.map f.answer ++ ·), (g.rerouteAll ws).2) := by
  induction vs generalizing f with
  | nil =>
    refine ⟨f, .nil f, fun w _ => .refl w f, Prod.ext ?_ rfl⟩
    rw [List.nil_append]
    cases (f.rerouteAll ws).1 <;> rfl
  | cons v rest ih =>
    obtain ⟨others, later⟩ := List.pairwise_cons.mp independent
    have confined := confined_reroute named v
    have same (w : VehicleReport) (member : w ∈ rest ++ ws) : SameFor w f (f.reroute v).2 :=
      confined.sameFor (others w member).1 (others w member).2
    have answers (w : VehicleReport) (member : w ∈ rest ++ ws) :
        ((f.reroute v).2.reroute w).1 = (f.reroute w).1 := ((same w member).reroute named).1
    have inRest (w : VehicleReport) (member : w ∈ rest) : w ∈ rest ++ ws :=
      List.mem_append_left ws member
    obtain ⟨g, each, found, run⟩ := ih (named_reroute named v)
      (later.imp fun both => ⟨both.1, both.2.evolve confined.evolves⟩) fun w member => by
        rw [halts, answers w (inRest w member)]
        exact goesOn w (List.mem_cons_of_mem v member)
    refine ⟨g, .cons named (fun w member => (others w (inRest w member)).1)
      (fun w member => same w (inRest w member)) each, fun w member => ?_, ?_⟩
    · exact (same w (List.mem_append_right rest member)).trans (found w member)
    · have agree : rest.map (f.reroute v).2.answer = rest.map f.answer :=
        List.map_congr_left fun w member => Prod.ext rfl (answers w (inRest w member))
      rw [List.cons_append, rerouteAll_of_goesOn (goesOn v List.mem_cons_self), run, agree]
      refine Prod.ext ?_ rfl
      cases (g.rerouteAll ws).1 <;> rfl

theorem rerouteAll_goesOn (named : f.book.Named) (independent : f.Independent vs)
    (goesOn : ∀ v ∈ vs, f.halts v = false) :
    (f.rerouteAll vs).1 = .ok (vs.map f.answer) ∧ f.ReroutesEach vs (f.rerouteAll vs).2 := by
  rw [← vs.append_nil] at independent
  obtain ⟨g, each, -, run⟩ := rerouteAll_append named independent goesOn
  rw [vs.append_nil] at run
  rw [run]
  refine ⟨?_, each⟩
  rw [rerouteAll, Except.map, List.append_nil]

theorem rerouteAll_halts (named : f.book.Named) (independent : f.Independent (vs ++ v :: ws))
    (goesOn : ∀ u ∈ vs, f.halts u = false) (halting : f.halts v = true) :
    (f.rerouteAll (vs ++ v :: ws)).1 = .error (.undecidedPosition v.vehicle.name) ∧
      f.ReroutesEach vs (f.rerouteAll (vs ++ v :: ws)).2 := by
  obtain ⟨g, each, found, run⟩ := rerouteAll_append named independent goesOn
  have still : g.halts v = true := by
    rw [halts, ((found v List.mem_cons_self).reroute named).1]
    exact halting
  rw [run, rerouteAll_of_halts still]
  exact ⟨rfl, each⟩

theorem rerouteAll_each (named : f.book.Named) (independent : f.Independent vs) :
    ∃ before, before ⊆ vs ∧ f.ReroutesEach before (f.rerouteAll vs).2 := by
  cases found : vs.find? f.halts with
  | none =>
    have goesOn : ∀ v ∈ vs, f.halts v = false := by simpa using found
    exact ⟨vs, fun _ => id, (rerouteAll_goesOn named independent goesOn).2⟩
  | some v =>
    obtain ⟨halting, before, after, rfl, goesOn⟩ := List.find?_eq_some_iff_append.mp found
    refine ⟨before, List.subset_append_left .., (rerouteAll_halts named independent ?_ halting).2⟩
    simpa using goesOn

theorem sameRecords_of_halts (named : f.book.Named) (independent : f.Independent vs)
    (any : ∀ ws, ws.Perm vs → (f.rerouteAll vs).2.SameRecords (f.rerouteAll ws).2)
    (member : v ∈ vs) (halting : f.halts v = true) (other : w ∈ vs) :
    f.SameRecords (f.reroute w).2 := by
  cases goesOn : f.halts w with
  | true =>
    rw [reroute_of_halts goesOn]
    exact .refl f
  | false =>
    have apart : v ≠ w := fun same => by rw [← same, halting] at goesOn; cases goesOn
    obtain ⟨s, t, rfl⟩ := List.append_of_mem other
    have elsewhere : v ∈ s ++ t := by simpa [apart] using member
    obtain ⟨s', t', split⟩ := List.append_of_mem elsewhere
    have late : ([w] ++ v :: (s' ++ t')).Perm (s ++ w :: t) := by
      refine List.Perm.trans ?_ List.perm_middle.symm
      rw [split]
      exact List.perm_middle.symm.cons w
    have early : (v :: w :: (s' ++ t')).Perm (s ++ w :: t) := (List.Perm.swap ..).trans late
    have alone : f.ReroutesEach [w] (f.reroute w).2 :=
      .cons named (fun u none => by cases none) (fun u none => by cases none) (.nil _)
    have first := (rerouteAll_halts named (independent.perm late) (by simpa using goesOn) halting).2
    have nobody := any _ early
    rw [rerouteAll_of_halts halting] at nobody
    exact nobody.symm.trans ((any _ late).trans (first.sameRecords alone))

/-- Vehicles that share nothing are rerouted as if each were the only one, in whatever order they
    come. Only an undecided position gets in the way: it leaves all without an answer and those that
    come later without a new plan, so that the order counts if anybody was to get one. No position
    is undecided that is at distances from the points that are numbers. -/
theorem rerouteAll_independent (named : f.book.Named) (independent : f.Independent vs) :
    ((∀ v ∈ vs, f.halts v = false) → ∀ ws, ws.Perm vs →
      (f.rerouteAll ws).1 = .ok (ws.map f.answer) ∧ f.ReroutesEach vs (f.rerouteAll ws).2) ∧
    (∀ before v after, (before ++ v :: after).Perm vs → (∀ u ∈ before, f.halts u = false) →
      f.halts v = true →
        (f.rerouteAll (before ++ v :: after)).1 = .error (.undecidedPosition v.vehicle.name) ∧
          f.ReroutesEach before (f.rerouteAll (before ++ v :: after)).2) ∧
    ((∀ ws, ws.Perm vs → (f.rerouteAll vs).2.SameRecords (f.rerouteAll ws).2) ↔
      (∀ v ∈ vs, f.halts v = false) ∨ ∀ v ∈ vs, f.SameRecords (f.reroute v).2) ∧
    ∀ v, f.halts v = true → v.point = none ∧ ∃ position, v.position = some position ∧
      ∃ q ∈ f.plant.layout.places, (position.squaredDistance q).isNaN = true := by
  have goesOn (none : ∀ v ∈ vs, f.halts v = false) (ws : List VehicleReport) (perm : ws.Perm vs) :
      (f.rerouteAll ws).1 = .ok (ws.map f.answer) ∧ f.ReroutesEach vs (f.rerouteAll ws).2 := by
    obtain ⟨answers, each⟩ := rerouteAll_goesOn named (independent.perm perm) fun v member =>
      none v (perm.mem_iff.mp member)
    exact ⟨answers, each.perm perm⟩
  refine ⟨goesOn, fun before v after perm none halting => ?_, ⟨fun any => ?_, ?_⟩,
    fun v => isNaN_of_halts⟩
  · exact rerouteAll_halts named (independent.perm perm) none halting
  · by_cases some : ∃ v ∈ vs, f.halts v = true
    · obtain ⟨v, member, halting⟩ := some
      exact .inr fun w other => sameRecords_of_halts named independent any member halting other
    · exact .inl fun v member =>
        Bool.eq_false_of_not_eq_true fun halting => some ⟨v, member, halting⟩
  · rintro (none | unchanged) ws perm
    · exact (goesOn none vs (.refl vs)).2.sameRecords (goesOn none ws perm).2
    · have untouched (us : List VehicleReport) (perm : us.Perm vs) :
          f.SameRecords (f.rerouteAll us).2 := by
        obtain ⟨before, within, each⟩ := rerouteAll_each named (independent.perm perm)
        have nothing : f.ReroutesEach before f :=
          .of_sameRecords fun v member => unchanged v (perm.mem_iff.mp (within member))
        exact nothing.sameRecords each
      exact (untouched vs (.refl vs)).symm.trans (untouched ws perm)

def pair : Fleet := (ofSettings junction {} .pauseAtPathLock .keeps).run [.attach "AGV-01",
  .attach "AGV-02", .enter "t1" agv.vehicle ⟨0⟩ [⟨3⟩],
  .enter "t2" { id := ⟨1⟩, name := "AGV-02" } ⟨0⟩ [⟨3⟩], .lock ⟨2⟩ true]

def second : VehicleReport where
  vehicle := { id := ⟨1⟩, name := "AGV-02" }
  point := some ⟨0⟩
  order := some "t2"

def stray : VehicleReport where
  vehicle := { id := ⟨2⟩, name := "AGV-03" }
  order := some "t3"

theorem level_pair (u v : Vehicle) : pair.router.Level u v := by
  have weighs : pair.router.weighing = .ofMeasures pair.router.settings.measures := rfl
  have uniform : pair.router.settings.Uniform [u, v] := .inl (by decide_cbv)
  exact Router.level_of_uniform weighs uniform (by simp) (by simp)

theorem rerouteAll_independent_junction :
    pair.Independent [parked, second, stray] ∧
      (pair.rerouteAll [stray, second, parked]).1 =
        .ok [(⟨2⟩, .error (.unknownTransportOrder "t3")), (⟨1⟩, .ok .rerouted),
          (⟨0⟩, .ok .rerouted)] ∧
      (pair.rerouteAll [parked, second, stray]).2.SameRecords
        (pair.rerouteAll [stray, second, parked]).2 := by
  have named : pair.book.Named := (sound_run (sound_ofSettings ..) _).book
  have independent : pair.Independent [parked, second, stray] := by
    simp only [Independent, level_pair, and_true]
    decide
  have goesOn : ∀ v ∈ [parked, second, stray], pair.halts v = false := by
    simp only [List.forall_mem_cons]
    exact ⟨by cbv, by cbv, by cbv, by simp⟩
  obtain ⟨answers, -, any, -⟩ := rerouteAll_independent named independent
  have reversed : [stray, second, parked].Perm [parked, second, stray] :=
    List.reverse_perm [parked, second, stray]
  refine ⟨independent, ?_, any.mpr (.inl goesOn) _ reversed⟩
  rw [(answers goesOn _ reversed).1]
  cbv

def lost : VehicleReport := { second with point := none, position := some ⟨0 / 0, 0⟩ }

/-- If it comes first, the other one gets no new plan, and it gets one if it comes last. -/
theorem not_independent_of_lost :
    pair.Independent [lost, parked] ∧ (pair.reroute parked).1 = .ok .rerouted ∧
      (pair.rerouteAll [lost, parked]).2 = pair ∧
      ¬ pair.SameRecords (pair.rerouteAll [parked, lost]).2 := by
  have named : pair.book.Named := (sound_run (sound_ofSettings ..) _).book
  have independent : pair.Independent [lost, parked] := by
    simp only [Independent, level_pair, and_true]
    decide
  have undecided : pair.plant.nearest ⟨0 / 0, 0⟩ = .undecided := by
    have points : pair.plant.layout.points = junction.current.layout.points := rfl
    have spatial : pair.plant.spatial = .usual := rfl
    have nowhere : SpatialIndex.scan junction.current.layout.places ⟨0 / 0, 0⟩ = .undecided := by
      decide
    rwa [Plant.nearest, spatial, Layout.places, points]
  obtain ⟨former, stored⟩ : ∃ former, pair.book.order? "t2" = some former :=
    Option.isSome_iff_exists.mp (by cbv)
  have attached : pair.attached? "AGV-02" = some { attached := true } := by decide_cbv
  have halting : pair.halts lost = true :=
    halts_iff.mpr ⟨"t2", former, _, _, rfl, stored, attached, rfl, rfl, rfl, undecided⟩
  have goesOn : ∀ v ∈ [parked], pair.halts v = false := by
    rw [List.forall_mem_singleton]
    cbv
  refine ⟨independent, by cbv, by rw [rerouteAll_of_halts halting], fun same => ?_⟩
  have each : pair.ReroutesEach [parked] (pair.rerouteAll [parked, lost]).2 :=
    (rerouteAll_halts named (independent.perm (.swap ..)) goesOn halting).2
  have selected := (each.own parked List.mem_cons_self).selected
  have before : (pair.router.selected.get? parked.vehicle.id).isSome = false := by cbv
  have after : ((pair.reroute parked).2.router.selected.get? parked.vehicle.id).isSome = true := by
    cbv
  rw [← selected, same.selected, before] at after
  cases after

end Fleet

end TrafficControl
