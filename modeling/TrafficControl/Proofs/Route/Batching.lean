import TrafficControl.Proofs.Route.Transparent

namespace TrafficControl

namespace Labels

variable {n : Network} {source x p : PointId} {s t : Labels} {cost bound : Cost}
  {order : List PointId}

theorem label_improveAll {todo : List (Arc × Nat)}
    (inside : ∀ e ∈ todo, e.1.target.index < s.labels.length) (low : s.costTo p ≤ cost) :
    (todo.foldl (fun s (arc, place) => s.improve cost arc place) s).costTo p = s.costTo p ∧
      (todo.foldl (fun s (arc, place) => s.improve cost arc place) s).via? p = s.via? p := by
  induction todo generalizing s with
  | nil => exact ⟨rfl, rfl⟩
  | cons e rest ih =>
    obtain ⟨a, place⟩ := e
    have first := inside (a, place) List.mem_cons_self
    have costs : (s.improve cost a place).costTo p = s.costTo p := by
      rw [costTo_improve first, if_neg (not_better low)]
    have via : (s.improve cost a place).via? p = s.via? p := by
      rw [via?_improve first, if_neg (not_better low)]
    have later : ∀ e ∈ rest, e.1.target.index < (s.improve cost a place).labels.length := by
      intro e member
      rw [length_improve]
      exact inside e (List.mem_cons_of_mem _ member)
    rw [List.foldl_cons, ← costs, ← via]
    exact ih later (costs ▸ low)

theorem Settling.label_settle (inv : Settling n source order (Leaving n order) s) (sound : n.Sound)
    (low : s.costTo p ≤ cost) : (s.settle n x cost).costTo p = s.costTo p ∧
      (s.settle n x cost).via? p = s.via? p := by
  have inside : ∀ e ∈ n.outArcs x, e.1.target.index < (s.mark x).labels.length := by
    intro e leaving
    have arc := List.mem_of_getElem? ((Network.mem_outArcs sound).mp leaving).1
    rw [show (s.mark x).labels.length = s.labels.length from List.length_modify .., inv.growing.size]
    exact sound.ends e.1 arc
  have marked : (s.mark x).costTo p ≤ cost := by rwa [costTo_mark]
  have kept := label_improveAll inside marked
  rwa [costTo_mark, via?_mark] at kept

/-- Going on does not change what is known of a point that costs no more than all that are open. -/
theorem Settling.label_settleAll (inv : Settling n source order (Leaving n order) s)
    (sound : n.Sound) (low : ∀ q, q ∉ order → s.costTo p ≤ s.costTo q) (fuel : Nat) :
    (Labels.settleAll n none fuel s).costTo p = s.costTo p ∧
      (Labels.settleAll n none fuel s).via? p = s.via? p := by
  induction fuel generalizing s order with
  | zero => exact ⟨rfl, rfl⟩
  | succ fuel ih =>
    simp only [Labels.settleAll]
    split
    · exact ⟨rfl, rfl⟩
    · rename_i x cost next
      obtain ⟨-, unsettled, exact', -, -⟩ := nearest?_some next
      have fresh : x ∉ order := by
        rw [← inv.flags, unsettled]
        exact Bool.false_ne_true
      have low' : s.costTo p ≤ cost := exact' ▸ low x fresh
      have later := inv.settle sound next
      have kept := inv.label_settle sound (x := x) low'
      have own := inv.label_settle sound (x := x) (Nat.le_of_eq (congrArg Cost.amount exact'))
      have still : ∀ q, q ∉ order ++ [x] →
          (s.settle n x cost).costTo p ≤ (s.settle n x cost).costTo q := by
        intro q open'
        have behind := later.below x (List.mem_append_right _ List.mem_cons_self) q open'
        rw [own.1, exact'] at behind
        rw [kept.1]
        exact Nat.le_trans low' behind
      rw [if_neg (by simp), ← kept.1, ← kept.2]
      exact ih later still

theorem settleAll_resume (target : Option PointId) (fuel : Nat) :
    ∃ more, settleAll n none fuel s = settleAll n none more (settleAll n target fuel s) := by
  induction fuel generalizing s with
  | zero => exact ⟨0, rfl⟩
  | succ fuel ih =>
    cases next : s.nearest? with
    | none => exact ⟨0, by simp only [settleAll, next]⟩
    | some found =>
      obtain ⟨x, cost⟩ := found
      by_cases here : target = some x
      · exact ⟨fuel + 1, by simp only [settleAll, next, here, if_true]⟩
      · obtain ⟨more, same⟩ := ih (s := s.settle n x cost)
        refine ⟨more, ?_⟩
        simp only [settleAll, next, here, if_false, reduceCtorEq]
        exact same

theorem Growing.walkBack_congr (growing : Growing n source s)
    (same : ∀ p, s.costTo p ≤ bound → t.via? p = s.via? p) (low : s.costTo p ≤ bound)
    (fuel : Nat) (places : List Nat) :
    t.walkBack n.arcs fuel p places = s.walkBack n.arcs fuel p places := by
  induction fuel generalizing p places with
  | zero => rfl
  | succ fuel ih =>
    simp only [walkBack, same p low]
    cases via : s.via? p with
    | none => rfl
    | some place =>
      obtain ⟨a, arc, -, before⟩ := growing.back p place via
      simp only [arc]
      apply ih
      rw [Cost.le_def] at low ⊢
      omega

end Labels

namespace Network

open Labels

variable {n : Network} {source d p : PointId}

theorem label_dijkstra (sound : n.Sound) (known : source.index < n.pointCount)
    (low : (n.dijkstra source (some d)).costTo p ≤ (n.dijkstra source (some d)).costTo d) :
    (n.dijkstra source none).costTo p = (n.dijkstra source (some d)).costTo p ∧
      (n.dijkstra source none).via? p = (n.dijkstra source (some d)).via? p := by
  obtain ⟨order, inv, final⟩ := dijkstra_settling sound known (some d)
  obtain ⟨bound, -, above, reached⟩ := final d (.inr rfl)
  obtain ⟨more, resumed⟩ := settleAll_resume (s := initial n source) (some d) n.pointCount
  rw [show n.dijkstra source none = settleAll n none more (n.dijkstra source (some d)) from resumed]
  apply inv.label_settleAll sound
  intro q open'
  exact Nat.le_trans low (Nat.le_trans reached (above q open'))

theorem arcsTo?_search_target (sound : n.Sound) (known : source.index < n.pointCount)
    (method : SearchMethod) (d : PointId) :
    (n.search method source none).costTo d = (n.search method source (some d)).costTo d ∧
      (n.search method source none).arcsTo? n d = (n.search method source (some d)).arcsTo? n d := by
  cases method with
  | bellmanFord => exact ⟨rfl, rfl⟩
  | dijkstra =>
    have same := fun p => label_dijkstra (p := p) (d := d) sound known
    have costs := (same d (Nat.le_refl _)).1
    have growing := growing_search sound known .dijkstra (some d)
    have walk := growing.walkBack_congr (fun p low => (same p low).2) (Nat.le_refl _) n.pointCount []
    have reached : (n.search .dijkstra source none).reaches d =
        (n.search .dijkstra source (some d)).reaches d := by
      rw [Bool.eq_iff_iff, reaches_iff, reaches_iff]
      simp only [search, costs]
    refine ⟨costs, ?_⟩
    rw [arcsTo?, arcsTo?, reached]
    split
    · exact congrArg some walk
    · rfl

end Network

namespace Navigator

variable {n : Navigator} {source d : PointId} {destinations : List PointId}

theorem route_eq (sound : n.network.Sound) (known : source.index < n.network.pointCount)
    (d : PointId) : n.route source d = if d = source then some .empty
      else n.routeIn (n.network.search n.method source none) d := by
  obtain ⟨costs, arcs⟩ := Network.arcsTo?_search_target sound known n.method d
  simp only [route, routeIn, costs, arcs, eq_comm (a := d)]

theorem get?_foldl_insert {answer : PointId → Option Route} (destinations : List PointId)
    (table : Table PointId Route) : (destinations.foldl (fun routes d =>
      match answer d with
      | some route => routes.insert d route
      | none => routes) table).get? d =
        (if d ∈ destinations then answer d else none).or (table.get? d) := by
  induction destinations generalizing table with
  | nil => rfl
  | cons d' rest ih =>
    rw [List.foldl_cons, ih]
    by_cases here : d = d'
    · subst here
      cases found : answer d with
      | none => simp
      | some route => by_cases again : d ∈ rest <;> simp [again]
    · have others : d ∈ d' :: rest ↔ d ∈ rest := by simp [here]
      simp only [others]
      cases answer d' with
      | none => rfl
      | some route => rw [Table.get?_insert_of_ne here]

theorem get?_routesFrom (sound : n.network.Sound) (known : source.index < n.network.pointCount)
    (d : PointId) : (n.routesFrom source destinations).get? d =
      if d ∈ destinations then n.route source d else none := by
  simp only [routesFrom, ← route_eq sound known]
  exact (get?_foldl_insert destinations ∅).trans Option.or_none

theorem legs_eq_none_iff : n.legs source destinations = none ↔
    ∃ leg ∈ (source :: destinations).zip destinations, n.route leg.1 leg.2 = none := by
  induction destinations generalizing source with
  | nil => simp [legs]
  | cons d rest ih =>
    simp only [List.zip_cons_cons, List.mem_cons, exists_eq_or_imp, ← ih, legs]
    cases n.route source d <;> cases n.legs d rest <;> simp

theorem map_route_of_legs {routes : List Route} (h : n.legs source destinations = some routes) :
    ((source :: destinations).zip destinations).map (fun leg => n.route leg.1 leg.2) =
      routes.map some := by
  induction destinations generalizing source routes with
  | nil =>
    cases h
    rfl
  | cons d rest ih =>
    simp only [legs, Option.bind_eq_bind, Option.bind_eq_some_iff] at h
    obtain ⟨route, first, routes, later, same⟩ := h
    cases same
    rw [List.zip_cons_cons, List.map_cons, List.map_cons, ih later, first]

end Navigator

namespace Router

variable {r : Router} {v : Vehicle} {source : PointId} {destinations : List PointId}

theorem evolves_costsOf (d : PointId) (candidates : List (Vehicle × PointId)) :
    r.Evolves (r.costsOf d candidates).2 :=
  costsOf_keeps (P := r.Evolves) (fun _ candidate _ before => .asked candidate.1 before) d .refl

theorem Sound.evolve {r' : Router} (sound : r.Sound) (evolves : r.Evolves r') : r'.Sound := by
  induction evolves with
  | refl => exact sound
  | asked v _ ih => exact (ih.navigator v).2
  | selected _ _ _ ih => exact ih

theorem Sound.next (sound : r.Sound) (a : RouterAction) : (r.next a).Sound := by
  cases a with
  | lock path locked =>
    simp only [Router.next]
    split <;> exact sound
  | invalidate =>
    intro group kept h
    cases h
  | route v | routes v | cost v | legs v => exact (sound.navigator v).2
  | rank candidates d => exact sound.evolve (evolves_costsOf d candidates)
  | replace | avoiding | select | deselect => exact sound

theorem Fresh.next (fresh : r.Fresh) (a : RouterAction) : (r.next a).Fresh := by
  cases a with
  | lock path locked =>
    simp only [Router.next]
    split
    · rename_i changed
      exact fresh.follow (PlantVersions.follows_setLocked changed)
    · exact fresh
  | replace plant => exact fresh.follow (PlantVersions.follows_replace r.plant plant)
  | invalidate => exact fresh_invalidate
  | route v | routes v | cost v | legs v => exact (fresh.navigator v).2
  | rank candidates d => exact fresh.evolve (evolves_costsOf d candidates)
  | avoiding | select | deselect => exact fresh

theorem Fresh.run (fresh : r.Fresh) (actions : List RouterAction) : (r.run actions).Fresh := by
  induction actions generalizing r with
  | nil => exact fresh
  | cons a rest ih => exact ih (fresh.next a)

/-- Whatever happened before, the routes found to many points at once are those found to each of them,
    and legs are the routes from each destination to the next, missing together if one is missing. -/
theorem batches_agree (plant : PlantVersions) (settings : RouterSettings) (weighing : Weighing)
    (actions : List RouterAction) {r : Router} {v : Vehicle} {source : PointId}
    {destinations : List PointId}
    (history : r = run { plant, settings, weighing } actions)
    (known : ∀ p ∈ source :: destinations, r.plant.current.defines (.point p) = true) :
    (∃ table, (r.routes v source destinations).1 = .ok table ∧
        (∀ d ∈ destinations, (r.route v source d).1 = .ok (table.get? d)) ∧
        ∀ d, d ∉ destinations → table.get? d = none) ∧
      (∃ legs, (r.legs v source destinations).1 = .ok legs ∧
        (legs = none ↔
          ∃ leg ∈ (source :: destinations).zip destinations, (r.route v leg.1 leg.2).1 = .ok none) ∧
        ∀ routes, legs = some routes →
          ((source :: destinations).zip destinations).map (fun leg => (r.route v leg.1 leg.2).1) =
            routes.map fun route => .ok (some route)) ∧
      ∀ p d, ((r.routes v source destinations).2.route v p d).1 = (r.route v p d).1 ∧
        ((r.legs v source destinations).2.route v p d).1 = (r.route v p d).1 := by
  have fresh : r.Fresh := by
    rw [history]
    refine Fresh.run (fun group kept h => ?_) actions
    cases h
  obtain ⟨sound, count, -⟩ := (fresh.navigator v).1.drives
  have known : ∀ p ∈ source :: destinations, p.index < (r.navigator v).1.network.pointCount := by
    intro p member
    rw [count]
    exact of_decide_eq_true (known p member)
  have asked : ∀ p d, p ∈ source :: destinations → d ∈ source :: destinations →
      (r.route v p d).1 = .ok ((r.navigator v).1.route p d) := by
    intro p d from' to'
    refine query_ok (fun q member => known q ?_) (·.route p d)
    rcases List.mem_cons.mp member with rfl | member
    · exact from'
    · exact List.mem_singleton.mp member ▸ to'
  have here := known source List.mem_cons_self
  refine ⟨⟨(r.navigator v).1.routesFrom source destinations, query_ok known _, fun d member => ?_,
    fun d other => ?_⟩, ⟨(r.navigator v).1.legs source destinations, query_ok known _, ?_,
    fun routes found => ?_⟩, fun p d => ⟨query_again, query_again⟩⟩
  · rw [asked source d List.mem_cons_self (List.mem_cons_of_mem _ member),
      Navigator.get?_routesFrom sound here, if_pos member]
  · rw [Navigator.get?_routesFrom sound here, if_neg other]
  · rw [Navigator.legs_eq_none_iff]
    refine exists_congr fun leg => and_congr_right fun member => ?_
    obtain ⟨from', to'⟩ := List.of_mem_zip member
    rw [asked _ _ from' (List.mem_cons_of_mem _ to'), Except.ok.injEq]
  · have routed := congrArg (List.map (Except.ok (ε := RoutingFault)))
      (Navigator.map_route_of_legs found)
    rw [List.map_map, List.map_map] at routed
    refine Eq.trans (List.map_congr_left fun leg member => ?_) routed
    obtain ⟨from', to'⟩ := List.of_mem_zip member
    exact asked _ _ from' (List.mem_cons_of_mem _ to')

theorem batches_agree_shortcut :
    let v : Vehicle := { id := ⟨0⟩, name := "AGV" }
    let r := run (ofSettings shortcut {}) [.route v ⟨0⟩ ⟨2⟩, .lock ⟨0⟩ true]
    (∀ p ∈ [⟨0⟩, ⟨2⟩, ⟨0⟩, ⟨2⟩], r.plant.current.defines (.point p) = true) ∧
      (∃ table, (r.routes v ⟨0⟩ [⟨2⟩, ⟨0⟩, ⟨2⟩]).1 = .ok table ∧
        (r.route v ⟨0⟩ ⟨2⟩).1 = .ok (table.get? ⟨2⟩) ∧ table.get? ⟨1⟩ = none) ∧
      (r.legs v ⟨0⟩ [⟨2⟩, ⟨0⟩, ⟨2⟩]).1 = .ok none := by
  intro v r
  have known : ∀ p ∈ [⟨0⟩, ⟨2⟩, ⟨0⟩, ⟨2⟩], r.plant.current.defines (.point p) = true := by
    decide_cbv
  obtain ⟨⟨table, found, each, others⟩, ⟨legs, answered, missing, -⟩, -⟩ :=
    batches_agree shortcut {} (.ofMeasures [.distance]) _ (r := r) (v := v) rfl known
  have back : (r.route v ⟨2⟩ ⟨0⟩).1 = .ok none := by cbv
  refine ⟨known, ⟨table, found, each ⟨2⟩ (by decide), others ⟨1⟩ (by decide)⟩, ?_⟩
  cases missing.mpr ⟨(⟨2⟩, ⟨0⟩), by decide, back⟩
  exact answered

end Router

end TrafficControl
