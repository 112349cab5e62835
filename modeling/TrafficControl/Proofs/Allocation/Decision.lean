import TrafficControl.Proofs.Allocation.Returning
import TrafficControl.Proofs.Allocation.WakeUp

namespace TrafficControl

def Plant.Refuses (p : Plant) (request : ResourceSet) : Prop :=
  (∃ r, r ∈ request ∧ p.defines r = false) ∨
    ∃ expanded, p.expand request = .ok expanded ∧ ∃ id, .path id ∈ expanded ∧ p.pathLocked id = true

namespace Plant

variable {p : Plant} {request expanded : ResourceSet}

theorem refuses_iff (expansion : p.expand request = .ok expanded) :
    p.Refuses request ↔ ∃ r, r ∈ expanded ∧ p.isLocked r = true := by
  constructor
  · intro refuses
    rcases refuses with ⟨r, asked, undefined⟩ | ⟨expanded', expansion', id, member, locked⟩
    · have defined := expand_ok_iff.mp ⟨expanded, expansion⟩ r asked
      rw [undefined] at defined
      cases defined
    · cases expansion.symm.trans expansion'
      exact ⟨.path id, member, locked⟩
  · intro h
    obtain ⟨r, member, locked⟩ := h
    cases r with
    | path id => exact .inr ⟨expanded, expansion, id, member, locked⟩
    | point => cases locked
    | block => cases locked

theorem refuses_of_no_expansion (none : ∀ expanded, p.expand request ≠ .ok expanded) :
    p.Refuses request := by
  by_contra fine
  have defined : ∀ r, r ∈ request → p.defines r = true := by
    intro r asked
    by_contra undefined
    exact fine (.inl ⟨r, asked, Bool.eq_false_of_not_eq_true undefined⟩)
  obtain ⟨expanded, expansion⟩ := expand_ok_iff.mpr defined
  exact none expanded expansion

end Plant

namespace Occupancy

variable {o o' : Occupancy} {p : Plant} {c : ClientId} {request expanded : ResourceSet}

theorem availability_spec {found : Availability} (expansion : p.expand request = .ok expanded) :
    o.availability p c expanded = found →
      match found with
      | .locked _ => p.Refuses request
      | .busy _ => ¬ p.Refuses request ∧ o.Blocked p c request
      | .available => ¬ p.Refuses request ∧ ¬ o.Blocked p c request := by
  have refuses := Plant.refuses_iff expansion
  have blocked := blocked_iff (o := o) (c := c) expansion
  rintro rfl
  unfold availability
  cases locks : expanded.toList.find? p.isLocked with
  | some r => exact refuses.mpr ⟨r, List.mem_of_find?_eq_some locks, List.find?_some locks⟩
  | none =>
    have fine : ¬ p.Refuses request := by
      rw [refuses]
      intro h
      obtain ⟨r, member, locked⟩ := h
      exact List.find?_eq_none.mp locks r member locked
    cases obstacles : expanded.toList.findSome? (o.obstacle? p c) with
    | some m =>
      obtain ⟨r, member, obstacle⟩ := List.exists_of_findSome?_eq_some obstacles
      exact ⟨fine, blocked.mpr ⟨r, member, by rw [obstacle]; rfl⟩⟩
    | none =>
      refine ⟨fine, fun h => ?_⟩
      obtain ⟨r, member, obstacle⟩ := blocked.mp h
      rw [List.findSome?_eq_none_iff.mp obstacles r member] at obstacle
      cases obstacle

/-- Only points and paths have holders. -/
def Elementary (o : Occupancy) : Prop := ∀ r d, o.holder? r = some d → r.isBlock = false

theorem HoldsElements.elementary (elements : o.HoldsElements) (consistent : o.Consistent) :
    o.Elementary :=
  fun r d held => elements d r (consistent.entered r d held)

end Occupancy

namespace Scheduler

open Occupancy

variable {s t : Scheduler} {c : ClientId} {first : Command} {rest : Agenda} {request : ResourceSet}

def superseded (s : Scheduler) (client : ClientId) (request : ResourceSet) : List ResourceSet :=
  ((s.occupancy.deferred.get? client).filter (· ≠ request)).toList

/-- The second scheduler is the first one with another occupancy and agenda, and has so many more
    answers for the client. All others are told what they would have been told anyway. -/
structure Brings (s t : Scheduler) (client : ClientId) (answers : List Answer) (o : Occupancy)
    (agenda : Agenda) : Prop where
  occupancy : t.occupancy = o
  agenda : t.agenda = agenda
  plant : t.plant = s.plant
  answered : t.verdicts client = s.verdicts client ++ answers
  others : ∀ d, d ≠ client → s.occupancy.registered d = true → t.verdicts d = s.verdicts d

def Denies (s : Scheduler) (first : Command) (rest : Agenda) (request : ResourceSet) : Prop :=
  s.Brings (s.next .work) first.client
    ((s.superseded first.client request).map .denied ++ [.denied request])
    (s.occupancy.withoutDeferred first.client) rest

def Defers (s : Scheduler) (first : Command) (rest : Agenda) (request : ResourceSet) : Prop :=
  s.Brings (s.next .work) first.client ((s.superseded first.client request).map .denied)
    ((s.occupancy.withoutDeferred first.client).defer first.client request) rest

def Reserves (s : Scheduler) (first : Command) (rest : Agenda) (request : ResourceSet) : Prop :=
  ∃ expanded, s.plant.current.expand request = .ok expanded ∧
    s.Brings (s.next .work) first.client ((s.superseded first.client request).map .denied)
      ((s.occupancy.withoutDeferred first.client).reserve first.client { request, expanded })
      (rest.push (.check request) first.client) ∧
    ∀ r, (s.next .work).occupancy.holder? r =
      if r ∈ expanded then some first.client else s.occupancy.holder? r

def taken (s : Scheduler) (first : Command) (rest : Agenda) : Scheduler :=
  { s with agenda := rest, occupancy := s.occupancy.withoutDeferred first.client }

theorem next_deciding (idle : s.phase = .idle) (deciding : Deciding s first rest request) :
    s.next .work = ((s.taken first rest).attempt first.client request).2.deliver
      ((s.superseded first.client request).map (.failed first.client) ++
        ((s.taken first rest).attempt first.client request).1) := by
  obtain ⟨pop, ⟨task, unreserved⟩ | ⟨task, waits⟩⟩ := deciding
  · simp only [next_work idle pop, process, task, consider, unreserved]
    rfl
  · have alone : s.superseded first.client request = [] := by
      simp [superseded, waits]
    simp only [next_work idle pop, process, task, retry, waits, alone]
    rfl

theorem brings_deliver (orderly : s.Orderly) (idle : s.phase = .idle)
    (known : s.occupancy.registered c = true) (clients : t.clients = s.clients)
    (journal : t.journal = s.journal) (plant : t.plant = s.plant) (notices : List Notice)
    (mine : ∀ d, d ≠ c → notices.filterMap (Notice.answer? d) = []) :
    s.Brings (t.deliver notices) c (notices.filterMap (Notice.answer? c)) t.occupancy t.agenda := by
  obtain ⟨occupancy, agenda, same⟩ := deliver_agrees t notices
  have told : ∀ d, s.occupancy.registered d = true → (t.deliver notices).verdicts d =
      s.verdicts d ++ notices.filterMap (Notice.answer? d) := by
    intro d registered
    have handle : ∃ handle, t.clients.get? d = some handle := by
      rw [clients]
      exact Table.contains_iff.mp ((orderly.handles d).trans registered)
    rw [verdicts_deliver handle, verdicts_of_idle idle, answers, answers, journal]
  refine ⟨occupancy, agenda, same.trans plant, told c known, fun d other registered => ?_⟩
  rw [told d registered, mine d other, List.append_nil]

theorem brings_attempted (orderly : s.Orderly) (idle : s.phase = .idle)
    (deciding : Deciding s first rest request)
    (known : s.occupancy.registered first.client = true) {notices : List Notice}
    (made : (s.taken first rest).attempt first.client request = (notices, t)) :
    s.Brings (s.next .work) first.client
      ((s.superseded first.client request).map .denied ++
        notices.filterMap (Notice.answer? first.client)) t.occupancy t.agenda := by
  have h := attempted (s.taken first rest) first.client request
  have clients := (attempt_continues (s := s.taken first rest) first.client request).clients
  have plant := attempt_plant (s.taken first rest) first.client request
  have next := next_deciding idle deciding
  rw [made] at h clients plant next
  have brings := brings_deliver orderly idle known clients h.journal_eq plant
    ((s.superseded first.client request).map (.failed first.client) ++ notices) fun d other => by
      rw [List.filterMap_append, answers_failed, if_neg other.symm, (h.docket_of_ne other.symm).1]
      rfl
  rwa [List.filterMap_append, answers_failed, if_pos rfl, ← next] at brings

/-- Every decision is one of the three, and each is taken for its reason. -/
theorem decided (orderly : s.Orderly) (idle : s.phase = .idle)
    (deciding : Deciding s first rest request)
    (head : s.occupancy.claimHead? first.client = some request) :
    (s.plant.current.Refuses request ∧ s.Denies first rest request) ∨
      (¬ s.plant.current.Refuses request ∧
        s.occupancy.Blocked s.plant.current first.client request ∧ s.Defers first rest request) ∨
      (¬ s.plant.current.Refuses request ∧
        ¬ s.occupancy.Blocked s.plant.current first.client request ∧
          s.Reserves first rest request) := by
  have known := registered_of_claimHead head
  have h := attempted (s.taken first rest) first.client request
  rcases made : (s.taken first rest).attempt first.client request with ⟨notices, t⟩
  have brings := brings_attempted orderly idle deciding known made
  rw [made] at h
  cases h with
  | unknown stranger => exact absurd (known.symm.trans stranger) (by decide)
  | denied _ why =>
    have told : [Notice.failed first.client request].filterMap (Notice.answer? first.client) =
      [.denied request] := by simp [Notice.answer?]
    rw [told] at brings
    refine .inl ⟨?_, brings⟩
    by_contra fine
    refine fine (Plant.refuses_of_no_expansion fun expanded expansion => ?_)
    obtain ⟨r, locked⟩ := why.resolve_left (fun other => other head) expanded expansion
    exact fine (availability_spec (o := s.occupancy) expansion locked)
  | @deferred expanded r _ expansion busy =>
    obtain ⟨fine, blocked⟩ := availability_spec (o := s.occupancy) expansion busy
    have silent : [Notice.deferred first.client request].filterMap (Notice.answer? first.client) =
      [] := rfl
    rw [silent, List.append_nil] at brings
    exact .inr (.inl ⟨fine, blocked, brings⟩)
  | @reserved expanded _ expansion free =>
    obtain ⟨fine, unblocked⟩ := availability_spec (o := s.occupancy) expansion free
    have silent : [Notice.prepare first.client request].filterMap (Notice.answer? first.client) =
      [] := rfl
    rw [silent, List.append_nil] at brings
    refine .inr (.inr ⟨fine, unblocked, expanded, expansion, brings, fun r => ?_⟩)
    rw [brings.occupancy]
    exact holder?_reserve

theorem Denies.leaves (denies : s.Denies first rest request) :
    (s.next .work).occupancy.deferred.get? first.client = none ∧
      (s.next .work).occupancy.reservations = s.occupancy.reservations := by
  rw [denies.occupancy]
  exact ⟨Table.get?_erase_self, rfl⟩

theorem Defers.waits (defers : s.Defers first rest request) :
    (s.next .work).occupancy.deferred.get? first.client = some request := by
  rw [defers.occupancy]
  exact Table.get?_insert_self

theorem Reserves.sets_aside (reserves : s.Reserves first rest request) :
    (s.next .work).occupancy.deferred.get? first.client = none ∧
      ∃ reservation, (s.next .work).occupancy.reservations.get? first.client =
        some reservation := by
  obtain ⟨expanded, -, brings, -⟩ := reserves
  rw [brings.occupancy]
  exact ⟨Table.get?_erase_self, { request, expanded }, Table.get?_insert_self⟩

/-- What becomes of a request that is the next claim of a client that has nothing reserved, be it a
    new one or one that waits. It fails exactly if the plant does not define all of it or a path that
    it comes to is locked. Otherwise it waits exactly if another client is entered for something that
    it comes to, or for something in a block around that. Otherwise everything that it comes to, and
    nothing else, is reserved. Only points and paths are entered, for clients that do hold them; and as
    long as clients are careful everything that they hold is entered. -/
theorem decides_exactly (plant : PlantVersions) (clock : Clock) (actions : List Action)
    {s : Scheduler} (history : s = (ofPlant plant clock).run actions) (idle : s.phase = .idle)
    {first : Command} {rest : Agenda} {request : ResourceSet}
    (deciding : Deciding s first rest request)
    (head : s.occupancy.claimHead? first.client = some request) :
    let p := s.plant.current
    let o := s.occupancy
    (s.Denies first rest request ↔ p.Refuses request) ∧
      (s.Defers first rest request ↔ ¬ p.Refuses request ∧ o.Blocked p first.client request) ∧
      (s.Reserves first rest request ↔
        ¬ p.Refuses request ∧ ¬ o.Blocked p first.client request) ∧
      (∀ r d, o.holder? r = some d → r.isBlock = false ∧ r ∈ o.holdings d) ∧
      (Along Careful (ofPlant plant clock) actions →
        ∀ r d, r ∈ o.holdings d → o.holder? r = some d) := by
  subst history
  intro p o
  have consistent : o.Consistent := consistent_run plant clock actions
  have elementary : o.Elementary := (holdsElements_run plant clock actions).elementary consistent
  have unreserved := deciding.unreserved consistent
  have apart : ((ofPlant plant clock).run actions).Denies first rest request →
      ¬ ((ofPlant plant clock).run actions).Reserves first rest request := by
    intro denies reserves
    obtain ⟨reservation, present⟩ := reserves.sets_aside.2
    rw [denies.leaves.2, unreserved] at present
    cases present
  have waiting : ((ofPlant plant clock).run actions).Defers first rest request →
      ¬ ((ofPlant plant clock).run actions).Denies first rest request ∧
        ¬ ((ofPlant plant clock).run actions).Reserves first rest request := by
    intro defers
    have waits := defers.waits
    refine ⟨fun denies => ?_, fun reserves => ?_⟩
    · cases denies.leaves.1.symm.trans waits
    · cases reserves.sets_aside.1.symm.trans waits
  have entries : (∀ r d, o.holder? r = some d → r.isBlock = false ∧ r ∈ o.holdings d) ∧
      (Along Careful (ofPlant plant clock) actions →
        ∀ r d, r ∈ o.holdings d → o.holder? r = some d) := by
    refine ⟨fun r d held => ?_, fun careful r d held => ?_⟩
    · exact ⟨elementary r d held, consistent.entered r d held⟩
    · exact tracked_run (tracked_ofPlant plant clock) (reservesHeads_ofPlant plant clock) careful
        d r held
  rcases decided ((orderly_ofPlant plant clock).run actions) idle deciding head with
    ⟨refuses, denies⟩ | ⟨fine, blocked, defers⟩ | ⟨fine, unblocked, reserves⟩
  · refine ⟨iff_of_true denies refuses, iff_of_false (fun defers => (waiting defers).1 denies) ?_,
      iff_of_false (apart denies) ?_, entries⟩
    · exact fun h => h.1 refuses
    · exact fun h => h.1 refuses
  · exact ⟨iff_of_false (waiting defers).1 fine, iff_of_true defers ⟨fine, blocked⟩,
      iff_of_false (waiting defers).2 fun h => h.2 blocked, entries⟩
  · refine ⟨iff_of_false (fun denies => apart denies reserves) fine,
      iff_of_false (fun defers => (waiting defers).2 reserves) fun h => unblocked h.2,
      iff_of_true reserves ⟨fine, unblocked⟩, entries⟩

theorem decides_exactly_ring :
    let actions : List Action := [.register ⟨"v1"⟩ 0, .register ⟨"v2"⟩ 1,
      .claim ⟨"v1"⟩ [.ofList [.point ⟨0⟩]], .claim ⟨"v2"⟩ [.ofList [.block ⟨2⟩]],
      .allocate ⟨"v1"⟩ (.ofList [.point ⟨0⟩]), .work, .work, .answer false,
      .allocate ⟨"v2"⟩ (.ofList [.block ⟨2⟩])]
    let first : Command :=
      { task := .allocate (.ofList [.block ⟨2⟩]), client := ⟨"v2"⟩, created := 2, serial := 2 }
    ((ofPlant ring).run actions).phase = .idle ∧
      Deciding ((ofPlant ring).run actions) first { nextSerial := 3 } (.ofList [.block ⟨2⟩]) ∧
      ((ofPlant ring).run actions).occupancy.claimHead? first.client =
        some (.ofList [.block ⟨2⟩]) ∧
      ((ofPlant ring).run actions).Defers first { nextSerial := 3 } (.ofList [.block ⟨2⟩]) := by
  intro actions first
  have idle : ((ofPlant ring).run actions).phase = .idle := by cbv
  have deciding : Deciding ((ofPlant ring).run actions) first { nextSerial := 3 }
      (.ofList [.block ⟨2⟩]) := ⟨by cbv, .inl ⟨rfl, by cbv⟩⟩
  have head : ((ofPlant ring).run actions).occupancy.claimHead? first.client =
      some (.ofList [.block ⟨2⟩]) := by cbv
  have same : ((ofPlant ring).run actions).plant.current = ring.current := by cbv
  have held : ((ofPlant ring).run actions).occupancy.heldByOther first.client (.point ⟨0⟩) = true := by
    cbv
  have expansion : ring.current.expand (.ofList [.block ⟨2⟩]) =
      .ok (.ofList [.point ⟨1⟩, .path ⟨1⟩]) := by cbv
  obtain ⟨-, defers, -⟩ := decides_exactly ring .counting actions rfl idle deciding head
  rw [same, Plant.refuses_iff expansion] at defers
  refine ⟨idle, deciding, head, defers.mpr ⟨?_, _, expansion, .point ⟨1⟩, by decide,
    .inr ⟨⟨1⟩, ?_, .point ⟨0⟩, rfl, ?_, held⟩⟩⟩
  · intro h
    obtain ⟨r, member, locked⟩ := h
    have unlocked : (OrderedSet.ofList [.point ⟨1⟩, .path ⟨1⟩]).toList.find?
        ring.current.isLocked = none := by cbv
    exact List.find?_eq_none.mp unlocked r member locked
  · exact (Plant.mem_zone.mp (by decide_cbv)).2
  · exact (Plant.mem_zone.mp (by decide_cbv)).2

end Scheduler

end TrafficControl
