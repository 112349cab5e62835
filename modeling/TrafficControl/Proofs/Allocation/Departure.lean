import TrafficControl.Proofs.Allocation.Entries
import TrafficControl.Proofs.Allocation.Matching

namespace TrafficControl

def Call.callee? : Call → Option ClientId
  | .prepare .. => none
  | .hookReady .. => none
  | .clientReady _ client _ => some client
  | .granted _ client _ => some client
  | .denied _ client _ => some client

namespace Scheduler

/-- Nothing is on record for the client any more, and nothing is to be done for it, but that others
    may have to be woken for what it held. -/
structure Forgets (s : Scheduler) (client : ClientId) : Prop where
  holders : ∀ r, s.occupancy.holder? r ≠ some client
  claims : s.occupancy.claims.get? client = none
  allocated : s.occupancy.allocated.get? client = none
  deferred : s.occupancy.deferred.get? client = none
  reservations : s.occupancy.reservations.get? client = none
  commands : (s.agenda.pending.filter (·.client = client)).map (·.task) = [] ∨
    ∃ freed, (s.agenda.pending.filter (·.client = client)).map (·.task) = [.released freed]

/-- In a run the client is called for what it asks for in it: of the requests for a set, no more are
    answered than are accepted, and questions are about accepted ones. -/
structure CallsFor (s : Scheduler) (client : ClientId) (actions : List Action) : Prop where
  answers : ∀ request, Answer.count request ((s.run actions).answersSince s client) ≤
    (s.filings client actions).count (.request request)
  questions : ∀ handle request,
    .called (.clientReady handle client request) ∈ (s.run actions).journal.drop s.journal.length →
      .request request ∈ s.filings client actions

structure Unconcerned (s : Scheduler) (client : ClientId) : Prop where
  docket : s.docket client = {}
  owed : ∀ request, Answer.count request (s.owed client) = 0
  inquiry : ∀ request, s.phase.inquiry? ≠ some (client, request)

variable {s t u : Scheduler} {c : ClientId} {actions : List Action} {handle : Handle}

theorem Unconcerned.callsFor (away : s.Unconcerned c) (orderly : s.Orderly) (actions : List Action) :
    s.CallsFor c actions := by
  refine ⟨fun request => ?_, fun handle request called => ?_⟩
  · have bound := orderly.count_answersSince_le (c := c) actions request
    rw [away.owed, openFor_empty away.docket] at bound
    omega
  · obtain ⟨⟨said, journal, asked⟩, -⟩ := orderly.inquires_run (c := c) actions
      (fun request => .request request ∈ s.filings c actions)
      (fun request more => by rw [openFor_empty away.docket] at more; cases more)
      (fun request same => absurd same (away.inquiry request)) (fun _ filed => filed)
    rw [journal, List.drop_left] at called
    exact asked _ called handle c request rfl rfl

theorem Unconcerned.run (away : s.Unconcerned c) (orderly : s.Orderly)
    (none : ∀ request, .request request ∉ s.filings c actions)
    (empty : (s.run actions).docket c = {}) : (s.run actions).Unconcerned c := by
  refine ⟨empty, fun request => ?_, fun request same => ?_⟩
  · have bound := orderly.count_answersSince_le (c := c) actions request
    rw [away.owed, openFor_empty away.docket, List.count_eq_zero.mpr (none request)] at bound
    omega
  · obtain ⟨-, asked⟩ := orderly.inquires_run (c := c) actions (fun _ => False)
      (fun request more => by rw [openFor_empty away.docket] at more; cases more)
      (fun request same => absurd same (away.inquiry request)) none
    exact asked c request same rfl

theorem Unconcerned.register (away : s.Unconcerned c) (h : s.register c handle = .ok t) :
    t.Unconcerned c := by
  have empty := docket_register h away.docket
  obtain ⟨-, rfl⟩ := register_ok h
  exact ⟨empty, away.owed, away.inquiry⟩

theorem CallsFor.uncalled (calls : s.CallsFor c actions)
    (none : ∀ request, .request request ∉ s.filings c actions) (call : Call)
    (called : .called call ∈ (s.run actions).journal.drop s.journal.length) :
    call.callee? ≠ some c := by
  intro mine
  have answered : ∀ answer, call.answer? c ≠ some answer := by
    intro answer same
    have given : answer ∈ (s.run actions).answersSince s c :=
      List.mem_filterMap.mpr ⟨.called call, called, same⟩
    have counted : 0 < Answer.count answer.request ((s.run actions).answersSince s c) :=
      List.countP_pos_iff.mpr ⟨answer, given, decide_eq_true rfl⟩
    have bound := calls.answers answer.request
    rw [List.count_eq_zero.mpr (none answer.request)] at bound
    omega
  cases call with
  | prepare | hookReady => cases mine
  | clientReady handle client request =>
    cases mine
    exact none request (calls.questions handle request called)
  | granted handle client request =>
    cases mine
    exact answered _ (if_pos rfl)
  | denied handle client request =>
    cases mine
    exact answered _ (if_pos rfl)

theorem unregistered_next {a : Action} (unknown : s.occupancy.registered c = false)
    (stays : ∀ handle, a ≠ .register c handle) : (s.next a).occupancy.registered c = false := by
  by_cases entry : ∃ d handle, a = .register d handle
  · obtain ⟨d, handle, rfl⟩ := entry
    have apart : c ≠ d := fun same => stays handle (same ▸ rfl)
    simp only [next]
    cases h : s.register d handle with
    | error => exact unknown
    | ok t =>
      obtain ⟨-, rfl⟩ := register_ok h
      simp only [after, Occupancy.registered, Table.contains_insert, decide_eq_false apart,
        Bool.false_or]
      exact unknown
  · by_cases exit : ∃ d, a = .unregister d
    · obtain ⟨d, rfl⟩ := exit
      simp only [next]
      cases h : s.unregister d with
      | error => exact unknown
      | ok t =>
        obtain ⟨-, -, claims, -⟩ := unregister_ok h
        have unknown : s.occupancy.claims.contains c = false := unknown
        simp only [after, Occupancy.registered, claims, Table.contains_erase, unknown,
          Bool.and_false]
    · refine (registered_turn (s.turn a) ?_ ?_).trans unknown
      · exact fun d handle h => entry ⟨d, handle, h⟩
      · exact fun d h => exit ⟨d, h⟩

theorem filing_unregistered (unknown : s.occupancy.registered c = false) (a : Action)
    (request : ResourceSet) : s.filing c a ≠ .request request := by
  intro filed
  cases a with
  | claim d claims =>
    simp only [filing] at filed
    split at filed
    · split at filed <;> cases filed
    · cases filed
  | allocate d asked =>
    simp only [filing] at filed
    split at filed
    · rename_i mine
      subst mine
      split at filed
      · rename_i h
        rw [Occupancy.registered_of_claimHead (allocate_ok h).1] at unknown
        cases unknown
      · cases filed
    · cases filed
  | work =>
    simp only [filing] at filed
    split at filed
    · split at filed
      · rw [Docket.taking] at filed
        split at filed <;> cases filed
      · cases filed
    · cases filed
  | _ => cases filed

theorem filings_unregistered (unknown : s.occupancy.registered c = false)
    (stays : ∀ handle, Action.register c handle ∉ actions) :
    (s.run actions).occupancy.registered c = false ∧
      ∀ request, .request request ∉ s.filings c actions := by
  induction actions generalizing s with
  | nil => exact ⟨unknown, fun _ => List.not_mem_nil⟩
  | cons a rest ih =>
    have first : ∀ handle, a ≠ .register c handle :=
      fun handle same => stays handle (same ▸ List.mem_cons_self)
    obtain ⟨still, later⟩ := ih (unregistered_next unknown first)
      fun handle member => stays handle (List.mem_cons_of_mem _ member)
    refine ⟨still, fun request filed => ?_⟩
    rcases List.mem_cons.mp filed with now | filed
    · exact filing_unregistered unknown a request now.symm
    · exact later request filed

theorem mine_purge (agenda : Agenda) (client : ClientId) :
    (agenda.purge client).pending.filter (·.client = client) = [] := by
  rw [Agenda.purge, List.filter_filter, List.filter_eq_nil_iff]
  intro command _
  simp

theorem mine_push_purge (agenda : Agenda) (client : ClientId) (task : Task) :
    (((agenda.purge client).push task client).pending.filter (·.client = client)).map (·.task) =
      [task] := by
  let command : Command := {
    task, client, created := agenda.clock.instant agenda.nextSerial, serial := agenda.nextSerial }
  have perm := (Agenda.place_perm command (agenda.purge client).pending).filter (·.client = client)
  rw [List.filter_cons, if_pos (decide_eq_true rfl), mine_purge, List.perm_singleton] at perm
  exact congrArg (List.map (·.task)) perm

theorem forgets_unregister (consistent : s.occupancy.Consistent)
    (known : s.occupancy.registered c = true) :
    ∃ t, s.unregister c = .ok t ∧ t.phase = s.phase ∧ t.occupancy.registered c = false ∧
      t.Forgets c := by
  have accepted : ∃ t, s.unregister c = .ok t ∧ t.phase = s.phase ∧
      (∃ freed, s.occupancy.unregister? c = some (freed, t.occupancy)) ∧
      (t.agenda = s.agenda.purge c ∨
        ∃ freed, t.agenda = (s.agenda.purge c).push (.released freed) c) := by
    cases h : s.occupancy.unregister? c with
    | none => simp [Occupancy.unregister?, known] at h
    | some left =>
      obtain ⟨freed, o⟩ := left
      simp only [unregister, h]
      split
      · exact ⟨_, rfl, rfl, ⟨freed, rfl⟩, .inl rfl⟩
      · exact ⟨_, rfl, rfl, ⟨freed, rfl⟩, .inr ⟨freed, rfl⟩⟩
  obtain ⟨t, left, phase, ⟨freed, made⟩, agenda⟩ := accepted
  have after := consistent.unregister made
  have none := Occupancy.not_mem_holdings_unregister made
  obtain ⟨-, -, occupancy⟩ := Occupancy.unregister?_some made
  have unknown : t.occupancy.registered c = false := by
    rw [occupancy, Occupancy.registered, Table.contains_erase, decide_eq_true rfl]
    rfl
  refine ⟨t, left, phase, unknown, fun r held => none r (after.entered r c held), ?_, ?_, ?_, ?_, ?_⟩
  · exact occupancy ▸ Table.get?_erase_self
  · exact occupancy ▸ Table.get?_erase_self
  · exact occupancy ▸ Table.get?_erase_self
  · exact occupancy ▸ Table.get?_erase_self
  · rcases agenda with same | ⟨freed, same⟩
    · rw [same, mine_purge]
      exact .inl rfl
    · rw [same]
      exact .inr ⟨freed, mine_push_purge ..⟩

/-- A client that leaves between commands leaves nothing behind. Until it registers again it is not
    called, and from then on it is called only for what it has asked for since, whatever anyone
    does. -/
theorem unregister_leaves_nothing (plant : PlantVersions) (clock : Clock) (done : List Action)
    (c : ClientId) (idle : ((ofPlant plant clock).run done).phase = .idle)
    (known : ((ofPlant plant clock).run done).occupancy.registered c = true) :
    ∃ t, ((ofPlant plant clock).run done).unregister c = .ok t ∧ t.Forgets c ∧
      ∀ before, (∀ handle, Action.register c handle ∉ before) →
        (∀ call, .called call ∈ (t.run before).journal.drop t.journal.length →
          call.callee? ≠ some c) ∧
        ∀ handle u, (t.run before).register c handle = .ok u → ∀ after, u.CallsFor c after := by
  obtain ⟨t, left, phase, unknown, forgets⟩ :=
    forgets_unregister (consistent_run plant clock done) known
  have orderly : t.Orderly := by
    have next := ((orderly_ofPlant plant clock).run done).next (.unregister c)
    rwa [Scheduler.next, left] at next
  have away : t.Unconcerned c := by
    refine ⟨(unregister_ok left).2.2.2, fun request => ?_, fun request same => ?_⟩
    · rw [owed, phase, idle]
      rfl
    · rw [phase, idle] at same
      cases same
  refine ⟨t, left, forgets, fun before stays => ?_⟩
  obtain ⟨still, none⟩ := filings_unregistered unknown stays
  refine ⟨(away.callsFor orderly before).uncalled none, fun handle u registered after => ?_⟩
  have later := (away.run orderly none ((orderly.run before).strangers c still)).register registered
  exact later.callsFor ((orderly.run before).register registered).1 after

theorem unregister_leaves_nothing_corridor :
    let done : List Action := [.register ⟨"v1"⟩ 0, .register ⟨"v2"⟩ 1,
      .claim ⟨"v1"⟩ [.ofList [.point ⟨0⟩], .ofList [.point ⟨1⟩]],
      .claim ⟨"v2"⟩ [.ofList [.point ⟨0⟩]],
      .allocate ⟨"v1"⟩ (.ofList [.point ⟨0⟩]), .work, .work, .answer true, .answer true,
      .allocate ⟨"v2"⟩ (.ofList [.point ⟨0⟩]), .work,
      .allocate ⟨"v1"⟩ (.ofList [.point ⟨1⟩]), .allocate ⟨"v1"⟩ (.ofList [.point ⟨1⟩]), .work]
    let before : List Action := [.work, .work, .work, .answer true, .answer true, .preparationChanged]
    let after : List Action := [.claim ⟨"v1"⟩ [.ofList [.point ⟨1⟩]],
      .allocate ⟨"v1"⟩ (.ofList [.point ⟨1⟩]), .work, .work, .answer true, .answer true]
    ∃ t u, ((ofPlant corridor).run done).unregister ⟨"v1"⟩ = .ok t ∧ t.Forgets ⟨"v1"⟩ ∧
      (t.run before).occupancy.holder? (.point ⟨0⟩) = some ⟨"v2"⟩ ∧
      (t.run before).register ⟨"v1"⟩ 2 = .ok u ∧ u.CallsFor ⟨"v1"⟩ after ∧
      (u.run after).answersSince u ⟨"v1"⟩ = [.granted (.ofList [.point ⟨1⟩])] := by
  intro done before after
  obtain ⟨t, left, forgets, later⟩ := unregister_leaves_nothing corridor .counting done ⟨"v1"⟩
    (by decide_cbv) (by decide_cbv)
  have made : ((ofPlant corridor).run done).next (.unregister ⟨"v1"⟩) = t := by
    rw [next, left, Scheduler.after]
  subst made
  have registered : ((((ofPlant corridor).run done).next (.unregister ⟨"v1"⟩)).run before).register
      ⟨"v1"⟩ 2 = .ok (((((ofPlant corridor).run done).next (.unregister ⟨"v1"⟩)).run before).next
        (.register ⟨"v1"⟩ 2)) := by
    cbv
  have calls := (later before (by simp [before])).2 2 _ registered after
  exact ⟨_, _, left, forgets, by decide_cbv, registered, calls, by decide_cbv⟩

end Scheduler

end TrafficControl
