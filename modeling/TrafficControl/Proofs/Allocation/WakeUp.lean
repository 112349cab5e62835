import Mathlib
import TrafficControl.Proofs.Allocation.Holding
import TrafficControl.Proofs.Allocation.Run

namespace TrafficControl

namespace Occupancy

/-- Another client holds something that the request includes, or something in a block around it. -/
def Blocked (o : Occupancy) (p : Plant) (client : ClientId) (request : ResourceSet) : Prop :=
  ∃ expanded, p.expand request = .ok expanded ∧ ∃ r, r ∈ expanded ∧
    (o.heldByOther client r = true ∨
      ∃ b, p.Includes (.block b) r ∧
        ∃ m, m.isBlock = false ∧ p.Includes (.block b) m ∧ o.heldByOther client m = true)

variable {o o' : Occupancy} {p q : Plant} {c : ClientId} {request : ResourceSet}

theorem Blocked.mono (more : ∀ r, o.heldByOther c r = true → o'.heldByOther c r = true)
    (blocked : o.Blocked p c request) : o'.Blocked p c request := by
  obtain ⟨expanded, expansion, r, member, held⟩ := blocked
  refine ⟨expanded, expansion, r, member, ?_⟩
  rcases held with held | ⟨b, around, m, elementary, inside, held⟩
  · exact .inl (more r held)
  · exact .inr ⟨b, around, m, elementary, inside, more m held⟩

theorem Blocked.congr (alike : p.Alike q) (blocked : o.Blocked p c request) :
    o.Blocked q c request := by
  obtain ⟨expanded, expansion, r, member, held⟩ := blocked
  refine ⟨expanded, (alike.expand request).trans expansion, r, member, held.imp_right ?_⟩
  intro h
  obtain ⟨b, around, m, elementary, inside, held⟩ := h
  exact ⟨b, alike.includes around, m, elementary, alike.includes inside, held⟩

theorem blocked_iff {expanded : ResourceSet} (expansion : p.expand request = .ok expanded) :
    o.Blocked p c request ↔ ∃ r, r ∈ expanded ∧ (o.obstacle? p c r).isSome = true := by
  have each : ∀ r, r ∈ expanded → ((o.obstacle? p c r).isSome = true ↔ _) := fun r member =>
    obstacle?_isSome_iff ((Plant.mem_expand expansion).mp member).1
  constructor
  · intro blocked
    obtain ⟨expanded', expansion', r, member, held⟩ := blocked
    cases expansion.symm.trans expansion'
    exact ⟨r, member, (each r member).mpr held⟩
  · intro h
    obtain ⟨r, member, obstacle⟩ := h
    exact ⟨expanded, expansion, r, member, (each r member).mp obstacle⟩

theorem blocked_of_busy {expanded : ResourceSet} {r : Resource}
    (expansion : p.expand request = .ok expanded)
    (busy : o.availability p c expanded = .busy r) : o.Blocked p c request :=
  (blocked_iff expansion).mpr (availability_busy busy)

theorem heldByOther_congr (h : o'.holders = o.holders) {r : Resource} :
    o'.heldByOther c r = o.heldByOther c r := by
  simp only [heldByOther, holder?, h]

theorem heldByOther_reserve {d : ClientId} {reservation : Reservation} (apart : d ≠ c) {r : Resource}
    (held : o.heldByOther d r = true) : (o.reserve c reservation).heldByOther d r = true := by
  rw [heldByOther_iff] at held ⊢
  rw [holder?_reserve]
  split
  · exact ⟨c, rfl, apart.symm⟩
  · exact held

theorem heldByOther_unregister {freed : ResourceSet} (h : o.unregister? c = some (freed, o'))
    (nothing : freed.isEmpty = true) {d : ClientId} {r : Resource} :
    o'.heldByOther d r = o.heldByOther d r := by
  obtain ⟨-, rfl, rfl⟩ := unregister?_some h
  have free : ¬ r ∈ o.holdings c := OrderedSet.isEmpty_iff.mp nothing r
  simp only [heldByOther, holder?, get?_vacate, if_neg free]

theorem unregister?_of_registered (known : o.registered c = true) :
    ∃ o', o.unregister? c = some (o.holdings c, o') := by
  cases h : o.unregister? c with
  | none => simp [unregister?, known] at h
  | some result =>
    obtain ⟨freed, o'⟩ := result
    obtain ⟨-, rfl, -⟩ := unregister?_some h
    exact ⟨o', rfl⟩

end Occupancy

namespace Agenda

/-- The client's waiting request will be tried again: somebody gave resources up, or the client's
    turn has come. -/
def Rouses (a : Agenda) (client : ClientId) : Prop :=
  (∃ freed d, a.Has (.released freed) d) ∨ a.Has .retry client

variable {a a' : Agenda} {c : ClientId}

theorem Rouses.mono (more : ∀ task client, a.Has task client → a'.Has task client)
    (rouses : a.Rouses c) : a'.Rouses c := by
  rcases rouses with ⟨freed, d, has⟩ | has
  · exact .inl ⟨freed, d, more _ _ has⟩
  · exact .inr (more _ _ has)

theorem Rouses.push (rouses : a.Rouses c) (task : Task) (client : ClientId) :
    (a.push task client).Rouses c := rouses.mono fun _ _ has => has.push task client

theorem rouses_released {freed : ResourceSet} {client : ClientId} :
    (a.push (.released freed) client).Rouses c := .inl ⟨freed, client, has_push_self⟩

theorem Rouses.pop {first : Command} {rest : Agenda} (rouses : a.Rouses c)
    (pop : a.pop? = some (first, rest)) (released : ∀ freed, first.task ≠ .released freed)
    (retry : first.task = .retry → first.client ≠ c) : rest.Rouses c := by
  rcases rouses with ⟨freed, d, has⟩ | has
  · rcases (has_pop pop).mp has with ⟨here, -⟩ | later
    · exact absurd here (released freed)
    · exact .inl ⟨freed, d, later⟩
  · rcases (has_pop pop).mp has with ⟨here, mine⟩ | later
    · exact absurd mine (retry here)
    · exact .inr later

theorem not_rouses_of_isEmpty (h : a.isEmpty = true) : ¬ a.Rouses c := by
  intro h
  rcases h with ⟨freed, d, has⟩ | has
  · exact not_has_of_isEmpty h has
  · exact not_has_of_isEmpty h has

end Agenda

namespace Scheduler

open Occupancy

/-- The client does not wait, or it is blocked, or it will be roused. -/
def Waking (p : Plant) (o : Occupancy) (agenda : Agenda) (client : ClientId) : Prop :=
  ∀ request, o.deferred.get? client = some request →
    o.Blocked p client request ∨ agenda.Rouses client

/-- The leaving client holds nothing, but only a command of its own would rouse the other one, which
    waits for nothing that is held. -/
structure Strands (s : Scheduler) (leaving d : ClientId) : Prop where
  registered : s.occupancy.registered leaving = true
  nothing : (s.occupancy.holdings leaving).isEmpty = true
  other : d ≠ leaving
  free : ∃ request, s.occupancy.deferred.get? d = some request ∧
    ¬ s.occupancy.Blocked s.plant.current d request
  unroused : ¬ (s.agenda.purge leaving).Rouses d

/-- During the run somebody left who took the client's wake-up along. -/
def Stranded (s : Scheduler) (actions : List Action) (d : ClientId) : Prop :=
  ∃ done leaving, done ++ [.unregister leaving] <+: actions ∧ (s.run done).Strands leaving d

def Idles (s : Scheduler) (client : ClientId) : Prop :=
  s.agenda.isEmpty = true ∧ ∃ request, s.occupancy.deferred.get? client = some request ∧
    ¬ s.occupancy.Blocked s.plant.current client request

variable {s : Scheduler} {p : Plant} {o o' : Occupancy} {agenda agenda' : Agenda} {d : ClientId}

theorem Waking.mono (waking : Waking p o agenda d) (deferred : o'.deferred = o.deferred)
    (holders : o'.holders = o.holders)
    (more : ∀ task client, agenda.Has task client → agenda'.Has task client) :
    Waking p o' agenda' d := by
  intro request waits
  rw [deferred] at waits
  refine (waking request waits).imp ?_ (·.mono more)
  exact Blocked.mono fun r held => (heldByOther_congr holders).trans held

theorem waking_released {freed : ResourceSet} {client : ClientId} :
    Waking p o (agenda.push (.released freed) client) d :=
  fun _ _ => .inr Agenda.rouses_released

theorem waking_unregister {client : ClientId} {freed : ResourceSet}
    (h : s.occupancy.unregister? client = some (freed, o)) (kind : ¬ s.Strands client d) :
    Waking s.plant.current o (if freed.isEmpty then s.agenda.purge client
      else (s.agenda.purge client).push (.released freed) client) d := by
  split
  · rename_i nothing
    intro request waits
    have blocked : s.occupancy.Blocked s.plant.current d request →
        o.Blocked s.plant.current d request :=
      Blocked.mono fun r held => (heldByOther_unregister h nothing).trans held
    obtain ⟨known, rfl, rfl⟩ := unregister?_some h
    have other : d ≠ client := by
      intro same
      subst same
      rw [Table.get?_erase_self] at waits
      cases waits
    rw [Table.get?_erase_of_ne other] at waits
    apply Classical.byContradiction
    intro lost
    rw [not_or] at lost
    obtain ⟨free, unroused⟩ := lost
    have free : ¬ s.occupancy.Blocked s.plant.current d request :=
      fun before => free (blocked before)
    exact kind ⟨known, nothing, other, ⟨request, waits, free⟩, unroused⟩
  · exact waking_released

theorem Waking.decide {first : Command} {rest : Agenda} {request : ResourceSet}
    (waking : Waking p s.occupancy s.agenda d) (deciding : Deciding s first rest request)
    (deferred : ∀ d, d ≠ first.client → o.deferred.get? d = s.occupancy.deferred.get? d)
    (own : ∀ request, o.deferred.get? first.client = some request → o.Blocked p first.client request)
    (held : ∀ d, d ≠ first.client → ∀ r,
      s.occupancy.heldByOther d r = true → o.heldByOther d r = true) : Waking p o rest d := by
  intro other waits
  by_cases same : d = first.client
  · subst same
    exact .inl (own other waits)
  · rw [deferred d same] at waits
    refine (waking other waits).imp (Blocked.mono (held d same)) fun rouses => ?_
    apply rouses.pop deciding.pop
    · intro freed task
      rcases deciding.asked with ⟨asked, -⟩ | ⟨asked, -⟩
      · rw [asked] at task
        cases task
      · rw [asked] at task
        cases task
    · exact fun _ => Ne.symm same

theorem Waking.pass {first : Command} {rest : Agenda} (waking : Waking p s.occupancy s.agenda d)
    (pop : s.agenda.pop? = some (first, rest))
    (task : (∃ request, first.task = .check request) ∨
      (first.task = .retry ∧ s.occupancy.deferred.get? first.client = none) ∨
      ∃ request reservation, first.task = .allocate request ∧
        s.occupancy.reservations.get? first.client = some reservation) :
    Waking p s.occupancy rest d := by
  intro request waits
  refine (waking request waits).imp_right fun rouses => ?_
  apply rouses.pop pop
  · intro freed released
    rw [released] at task
    rcases task with ⟨_, other⟩ | ⟨other, -⟩ | ⟨_, _, other, -⟩ <;> cases other
  · intro retry same
    subst same
    rw [retry] at task
    rcases task with ⟨_, other⟩ | ⟨-, absent⟩ | ⟨_, _, other, -⟩
    · cases other
    · rw [absent] at waits
      cases waits
    · cases other

theorem waking_turn {a : Action} (waking : Waking s.plant.current s.occupancy s.agenda d)
    (kind : ∀ leaving, a = .unregister leaving → ¬ s.Strands leaving d)
    (turn : Turn s a o agenda) : Waking s.plant.current o agenda d := by
  cases turn with
  | unchanged => exact waking
  | registered h =>
    obtain ⟨-, rfl⟩ := register?_some h
    exact waking.mono rfl rfl fun _ _ has => has
  | unregistered h => exact waking_unregister h (kind _ rfl)
  | claimed _ _ h =>
    obtain ⟨rfl, -⟩ := cancelStale_none h
    exact waking.mono rfl rfl fun _ _ has => has
  | reclaimed => exact waking_released
  | requested => exact waking.mono rfl rfl fun _ _ has => has.push _ _
  | released => exact waking_released
  | rechecked => exact waking.mono rfl rfl fun _ _ has => Agenda.has_pushAll.mpr (.inr has)
  | closed => exact waking
  | woken pop task =>
    intro request waits
    have turn : (Task.retry, d) ∈ s.occupancy.deferred.keys.map fun client => (Task.retry, client) :=
      List.mem_map.mpr ⟨d, Table.mem_keys.mpr ⟨request, waits⟩, rfl⟩
    exact .inr (.inr (Agenda.has_pushAll.mpr (.inl turn)))
  | passed pop task => exact waking.pass pop task
  | denied deciding =>
    refine waking.decide deciding (fun d other => Table.get?_erase_of_ne other) ?_
      fun d _ r held => held
    intro request waits
    rw [withoutDeferred, Table.get?_erase_self] at waits
    cases waits
  | deferred deciding _ expansion busy =>
    refine waking.decide deciding ?_ ?_ fun d _ r held => held
    · intro d other
      exact (Table.get?_insert_of_ne other).trans (Table.get?_erase_of_ne other)
    · intro request waits
      rw [defer, Table.get?_insert_self] at waits
      cases waits
      exact blocked_of_busy expansion busy
  | reserved deciding _ _ free =>
    refine (waking.decide deciding ?_ ?_ ?_).mono rfl rfl fun _ _ has => has.push _ _
    · intro d other
      exact (Table.get?_erase_of_ne other).trans (Table.get?_erase_of_ne other)
    · intro request waits
      rw [reserve, Table.get?_erase_self] at waits
      cases waits
    · intro d other r held
      exact heldByOther_reserve other held
  | committed _ h =>
    obtain ⟨reservation, -, -, -, rfl⟩ := commit_allocated h
    exact waking.mono rfl rfl fun _ _ has => has
  | dropped => exact waking_released

theorem Waking.congr {q : Plant} (alike : p.Alike q) (waking : Waking p o agenda d) :
    Waking q o agenda d :=
  fun request waits => (waking request waits).imp_left (.congr alike)

theorem waking_next {a : Action} (waking : Waking s.plant.current s.occupancy s.agenda d)
    (lasting : ∀ plant, a ≠ .replace plant)
    (kind : ∀ leaving, a = .unregister leaving → ¬ s.Strands leaving d) :
    Waking (s.next a).plant.current (s.next a).occupancy (s.next a).agenda d :=
  (waking_turn waking kind (s.turn a)).congr (alike_next s lasting)

theorem not_waking_of_strands {leaving : ClientId} (strands : s.Strands leaving d) :
    ¬ Waking (s.next (.unregister leaving)).plant.current
      (s.next (.unregister leaving)).occupancy (s.next (.unregister leaving)).agenda d := by
  obtain ⟨request, waits, free⟩ := strands.free
  obtain ⟨o, h⟩ := unregister?_of_registered strands.registered
  obtain ⟨-, -, same⟩ := unregister?_some h
  have gone : s.next (.unregister leaving) = { s with
      occupancy := o
      clients := s.clients.erase leaving
      agenda := s.agenda.purge leaving } := by
    simp only [next, unregister, h, strands.nothing, if_true, after]
  rw [gone]
  intro waking
  have still : o.deferred.get? d = some request := by
    rw [same, Table.get?_erase_of_ne strands.other, waits]
  rcases waking request still with blocked | rouses
  · apply free
    exact blocked.mono fun r held => (heldByOther_unregister h strands.nothing).symm.trans held
  · exact strands.unroused rouses

theorem waking_ofPlant (plant : PlantVersions) (clock : Clock) :
    Waking (ofPlant plant clock).plant.current (ofPlant plant clock).occupancy
      (ofPlant plant clock).agenda d := by
  intro request waits
  cases waits

theorem waking_run {actions : List Action} (waking : Waking s.plant.current s.occupancy s.agenda d)
    (lasting : ∀ plant, Action.replace plant ∉ actions) (kind : ¬ s.Stranded actions d) :
    Waking (s.run actions).plant.current (s.run actions).occupancy (s.run actions).agenda d := by
  induction actions generalizing s with
  | nil => exact waking
  | cons a rest ih =>
    have first : ∀ plant, a ≠ .replace plant := by
      intro plant same
      subst same
      exact lasting plant List.mem_cons_self
    have now : ∀ leaving, a = .unregister leaving → ¬ s.Strands leaving d := by
      intro leaving same strands
      subst same
      exact kind ⟨[], leaving, ⟨rest, rfl⟩, strands⟩
    apply ih (waking_next waking first now)
    · exact fun plant member => lasting plant (List.mem_cons_of_mem _ member)
    · intro h
      obtain ⟨done, leaving, start, strands⟩ := h
      exact kind ⟨a :: done, leaving, List.cons_prefix_cons.mpr ⟨rfl, start⟩, strands⟩

theorem Stranded.later {done actions : List Action} (stranded : s.Stranded done d)
    (start : done <+: actions) : s.Stranded actions d := by
  obtain ⟨before, leaving, earlier, strands⟩ := stranded
  exact ⟨before, leaving, earlier.trans start, strands⟩

theorem stranded_of_idles {done : List Action}
    (waking : Waking s.plant.current s.occupancy s.agenda d)
    (lasting : ∀ plant, Action.replace plant ∉ done) (idles : (s.run done).Idles d) :
    s.Stranded done d := by
  obtain ⟨empty, request, waits, free⟩ := idles
  by_contra kind
  rcases waking_run waking lasting kind request waits with blocked | rouses
  · exact free blocked
  · exact Agenda.not_rouses_of_isEmpty empty rouses

/-- On one plant a client is left waiting for nothing only after somebody left who took its wake-up
    along. Everybody who waits is blocked or will be roused exactly as long as nobody does that, and
    then everybody who waits is blocked when all is done. -/
theorem waking_iff_not_stranded (plant : PlantVersions) (clock : Clock) {actions : List Action}
    (lasting : ∀ plant, Action.replace plant ∉ actions) :
    (∀ done, done <+: actions → ∀ d, ((ofPlant plant clock).run done).Idles d →
        (ofPlant plant clock).Stranded done d) ∧
      ((∀ done, done <+: actions → ∀ d, Waking ((ofPlant plant clock).run done).plant.current
          ((ofPlant plant clock).run done).occupancy ((ofPlant plant clock).run done).agenda d) ↔
        ∀ d, ¬ (ofPlant plant clock).Stranded actions d) ∧
      ((∀ d, ¬ (ofPlant plant clock).Stranded actions d) → ∀ done, done <+: actions →
        ((ofPlant plant clock).run done).agenda.isEmpty = true → ∀ client request,
          ((ofPlant plant clock).run done).occupancy.deferred.get? client = some request →
            ((ofPlant plant clock).run done).occupancy.Blocked
              ((ofPlant plant clock).run done).plant.current client request) := by
  have earlier : ∀ done, done <+: actions → ∀ plant, Action.replace plant ∉ done :=
    fun done start plant member => lasting plant (start.subset member)
  have cause : ∀ done, done <+: actions → ∀ d, ((ofPlant plant clock).run done).Idles d →
      (ofPlant plant clock).Stranded done d :=
    fun done start d => stranded_of_idles (waking_ofPlant plant clock) (earlier done start)
  refine ⟨cause, ⟨fun waking d stranded => ?_, fun kind done start d => ?_⟩, ?_⟩
  · obtain ⟨done, leaving, start, strands⟩ := stranded
    have last := waking (done ++ [.unregister leaving]) start d
    rw [run_snoc] at last
    exact not_waking_of_strands strands last
  · apply waking_run (waking_ofPlant plant clock) (earlier done start)
    exact fun stranded => kind d (stranded.later start)
  · intro kind done start empty client request waits
    by_contra free
    exact kind client ((cause done start client ⟨empty, request, waits, free⟩).later start)

theorem waiting_blocked_corridor :
    let actions : List Action := [.register ⟨"v1"⟩ 0, .register ⟨"v2"⟩ 1,
      .claim ⟨"v1"⟩ [.ofList [.point ⟨0⟩]], .claim ⟨"v2"⟩ [.ofList [.point ⟨0⟩]],
      .allocate ⟨"v1"⟩ (.ofList [.point ⟨0⟩]), .work, .work, .answer true, .answer true,
      .allocate ⟨"v2"⟩ (.ofList [.point ⟨0⟩]), .work]
    ((ofPlant corridor).run actions).agenda.isEmpty = true ∧
      ((ofPlant corridor).run actions).occupancy.Blocked
        ((ofPlant corridor).run actions).plant.current ⟨"v2"⟩ (.ofList [.point ⟨0⟩]) := by
  intro actions
  have lasting : ∀ plant, Action.replace plant ∉ actions := by
    intro plant member
    simp [actions] at member
  have kind : ∀ d, ¬ (ofPlant corridor).Stranded actions d := by
    intro d stranded
    obtain ⟨done, leaving, start, -⟩ := stranded
    have left : Action.unregister leaving ∈ actions := start.subset (by simp)
    simp [actions] at left
  have empty : ((ofPlant corridor).run actions).agenda.isEmpty = true := by decide_cbv
  have blocked := (waking_iff_not_stranded corridor .counting lasting).2.2 kind actions
    List.prefix_rfl empty
  refine ⟨empty, blocked ⟨"v2"⟩ _ ?_⟩
  cbv

/-- The client that held the point releases it and leaves at once: the other one goes on waiting,
    for a point that nobody holds. -/
theorem not_blocked_of_departure :
    let actions : List Action := [.register ⟨"v1"⟩ 0, .register ⟨"v2"⟩ 1,
      .claim ⟨"v1"⟩ [.ofList [.point ⟨0⟩]], .claim ⟨"v2"⟩ [.ofList [.point ⟨0⟩]],
      .allocate ⟨"v1"⟩ (.ofList [.point ⟨0⟩]), .work, .work, .answer true, .answer true,
      .allocate ⟨"v2"⟩ (.ofList [.point ⟨0⟩]), .work,
      .release ⟨"v1"⟩ (.ofList [.point ⟨0⟩]), .unregister ⟨"v1"⟩]
    ((ofPlant corridor).run actions).agenda.isEmpty = true ∧
      ((ofPlant corridor).run actions).occupancy.deferred.get? ⟨"v2"⟩ =
        some (.ofList [.point ⟨0⟩]) ∧
      ¬ ((ofPlant corridor).run actions).occupancy.Blocked
        ((ofPlant corridor).run actions).plant.current ⟨"v2"⟩ (.ofList [.point ⟨0⟩]) := by
  intro actions
  have free : ((ofPlant corridor).run actions).occupancy.holders = ∅ := by cbv
  refine ⟨by decide_cbv, by cbv, ?_⟩
  intro h
  obtain ⟨expanded, -, r, -, held | ⟨b, -, m, -, -, held⟩⟩ := h
  · rw [heldByOther, holder?, free] at held
    cases held
  · rw [heldByOther, holder?, free] at held
    cases held

end Scheduler

end TrafficControl
