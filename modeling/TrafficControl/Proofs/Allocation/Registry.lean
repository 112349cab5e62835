import TrafficControl.Proofs.Allocation.Dealings

namespace TrafficControl

namespace Table

variable {κ : Type} [Ord κ] [Std.LawfulEqOrd κ] [Std.TransOrd κ] [DecidableEq κ] {α : Type}
variable {t : Table κ α} {k k' : κ} {v : α}

theorem contains_insert : (t.insert k v).contains k' = (decide (k' = k) || t.contains k') := by
  rw [contains, contains, get?_insert]
  split <;> simp [*]

theorem contains_erase : (t.erase k).contains k' = (!decide (k' = k) && t.contains k') := by
  rw [contains, contains, get?_erase]
  split <;> simp [*]

end Table

namespace Scheduler

variable {s t : Scheduler} {c d : ClientId}

theorem registered_insert {o : Occupancy} {claims : List ResourceSet}
    (known : o.registered d = true) :
    (o.claims.insert d claims).contains c = o.registered c := by
  rw [Table.contains_insert]
  by_cases same : c = d
  · rw [same, decide_eq_true rfl, Bool.true_or, known]
  · rw [decide_eq_false same, Bool.false_or, Occupancy.registered]

theorem registered_turn {a : Action} {o : Occupancy} {agenda : Agenda} (turn : Turn s a o agenda)
    (entry : ∀ client handle, a ≠ .register client handle)
    (exit : ∀ client, a ≠ .unregister client) :
    o.registered c = s.occupancy.registered c := by
  cases turn with
  | unchanged | requested | rechecked | closed | woken | passed | denied | deferred | reserved => rfl
  | registered => exact absurd rfl (entry _ _)
  | unregistered => exact absurd rfl (exit _)
  | claimed _ known h =>
    obtain ⟨rfl, -⟩ := Occupancy.cancelStale_none h
    exact registered_insert known
  | reclaimed _ known h =>
    obtain ⟨-, -, rfl⟩ := Occupancy.cancelStale_some h
    exact registered_insert known
  | released _ h =>
    obtain ⟨-, -, -, rfl⟩ := Occupancy.release_ok h
    rfl
  | committed _ h =>
    obtain ⟨_, -, head, -, rfl⟩ := Occupancy.commit_allocated h
    exact registered_insert (Occupancy.registered_of_claimHead head)
  | dropped _ h =>
    obtain ⟨-, -, rfl⟩ := Occupancy.cancelStale_some (Occupancy.commit_stale h)
    rfl

/-- Clients come and go by their own calls alone, and so does the worker. -/
theorem stable_next {a : Action} (entry : ∀ client handle, a ≠ .register client handle)
    (exit : ∀ client, a ≠ .unregister client) : (s.next a).clients = s.clients ∧
      (a ≠ .start → a ≠ .shutdown → (s.next a).worker = s.worker) := by
  have same {t : Scheduler} (clients : t.clients = s.clients) (worker : t.worker = s.worker) :
      t.clients = s.clients ∧ (a ≠ .start → a ≠ .shutdown → t.worker = s.worker) :=
    ⟨clients, fun _ _ => worker⟩
  cases a with
  | register client handle => exact absurd rfl (entry client handle)
  | unregister client => exact absurd rfl (exit client)
  | claim client claims =>
    simp only [next]
    cases h : s.claim client claims with
    | error => exact same rfl rfl
    | ok t => obtain ⟨-, ⟨_, -, rfl⟩ | ⟨_, _, -, rfl⟩⟩ := claim_ok h <;> exact same rfl rfl
  | allocate client request =>
    simp only [next]
    cases h : s.allocate client request with
    | error => exact same rfl rfl
    | ok t =>
      obtain ⟨-, rfl⟩ := allocate_ok h
      exact same rfl rfl
  | release client resources =>
    simp only [next, release]
    split
    · exact same rfl rfl
    · split <;> exact same rfl rfl
  | preparationChanged =>
    obtain ⟨agenda, changed⟩ := preparationChanged_push s
    rw [next, changed]
    exact same rfl rfl
  | addHook | replace => exact same rfl rfl
  | lock path locked =>
    simp only [next, setLocked]
    split <;> exact same rfl rfl
  | start =>
    refine ⟨?_, fun other => absurd rfl other⟩
    simp only [next, start]
    split <;> rfl
  | shutdown => exact ⟨rfl, fun _ other => absurd rfl other⟩
  | work => exact same work_continues.clients work_continues.worker
  | answer ready => exact same (resume_continues ready).clients (resume_continues ready).worker

theorem clients_next {a : Action} (entry : ∀ client handle, a ≠ .register client handle)
    (exit : ∀ client, a ≠ .unregister client) : (s.next a).clients = s.clients :=
  (stable_next entry exit).1

/-- What a scheduler keeps from the start on, so that each of its actions is a step of every
    docket. -/
structure Orderly (s : Scheduler) : Prop where
  heads : s.occupancy.ReservesHeads
  handles : ∀ client, s.clients.contains client = s.occupancy.registered client
  strangers : ∀ client, s.occupancy.registered client = false → s.docket client = {}

theorem orderly_ofPlant (plant : PlantVersions) (clock : Clock) :
    (ofPlant plant clock).Orderly where
  heads := reservesHeads_ofPlant plant clock
  handles := fun _ => rfl
  strangers := fun _ _ => rfl

theorem Orderly.handles_next (orderly : s.Orderly) (a : Action) (client : ClientId) :
    (s.next a).clients.contains client = (s.next a).occupancy.registered client := by
  by_cases entry : ∃ d handle, a = .register d handle
  · obtain ⟨d, handle, rfl⟩ := entry
    simp only [next]
    cases h : s.register d handle with
    | error => exact orderly.handles client
    | ok t =>
      obtain ⟨-, rfl⟩ := register_ok h
      simp only [after, Occupancy.registered, Table.contains_insert]
      rw [orderly.handles, Occupancy.registered]
  · by_cases exit : ∃ d, a = .unregister d
    · obtain ⟨d, rfl⟩ := exit
      simp only [next]
      cases h : s.unregister d with
      | error => exact orderly.handles client
      | ok t =>
        obtain ⟨-, clients, claims, -⟩ := unregister_ok h
        simp only [after, Occupancy.registered, clients, claims, Table.contains_erase]
        rw [orderly.handles, Occupancy.registered]
    · have entry : ∀ d handle, a ≠ .register d handle := fun d handle h => entry ⟨d, handle, h⟩
      have exit : ∀ d, a ≠ .unregister d := fun d h => exit ⟨d, h⟩
      rw [clients_next entry exit, registered_turn (s.turn a) entry exit]
      exact orderly.handles client

theorem registered_next {a : Action} (known : s.occupancy.registered c = true)
    (stays : a ≠ .unregister c) : (s.next a).occupancy.registered c = true := by
  by_cases entry : ∃ d handle, a = .register d handle
  · obtain ⟨d, handle, rfl⟩ := entry
    simp only [next]
    cases h : s.register d handle with
    | error => exact known
    | ok t =>
      obtain ⟨-, rfl⟩ := register_ok h
      simp only [after, Occupancy.registered, Table.contains_insert, Bool.or_eq_true]
      exact .inr known
  · by_cases exit : ∃ d, a = .unregister d
    · obtain ⟨d, rfl⟩ := exit
      have apart : c ≠ d := fun same => stays (same ▸ rfl)
      simp only [next]
      cases h : s.unregister d with
      | error => exact known
      | ok t =>
        obtain ⟨-, -, claims, -⟩ := unregister_ok h
        simp only [after, Occupancy.registered, claims, Table.contains_erase, decide_eq_false apart,
          Bool.not_false, Bool.true_and]
        exact known
    · refine (registered_turn (s.turn a) ?_ ?_).trans known
      · exact fun d handle h => entry ⟨d, handle, h⟩
      · exact fun d h => exit ⟨d, h⟩

theorem registered_run {actions : List Action} (known : s.occupancy.registered c = true)
    (stays : Action.unregister c ∉ actions) : (s.run actions).occupancy.registered c = true := by
  induction actions generalizing s with
  | nil => exact known
  | cons a rest ih =>
    have first : a ≠ .unregister c := fun same => stays (same ▸ List.mem_cons_self)
    exact ih (registered_next known first) fun member => stays (List.mem_cons_of_mem _ member)

theorem docket_empty_iff : s.docket c = {} ↔ (s.occupancy.claims.get? c).getD [] = [] ∧
    s.agenda.requests c = 0 ∧ s.occupancy.deferred.get? c = none ∧
      s.occupancy.reservations.get? c = none := by
  simp only [docket, Docket.mk.injEq, Option.map_eq_none_iff]

theorem requests_pop_zero {first : Command} {rest : Agenda}
    (pop : s.agenda.pop? = some (first, rest)) (none : s.agenda.requests c = 0) :
    rest.requests c = 0 := by
  rw [Agenda.requests_pop pop] at none
  exact Multiset.eq_zero_of_forall_notMem fun request member =>
    Multiset.notMem_zero request (none ▸ Multiset.mem_add.mpr (.inr member))

theorem stranger_turn {a : Action} {o : Occupancy} {agenda : Agenda} (turn : Turn s a o agenda)
    (heads : s.occupancy.ReservesHeads) (unknown : s.occupancy.registered c = false)
    (empty : s.docket c = {}) (busy : a.quiet = false) :
    { s with occupancy := o, agenda }.docket c = {} := by
  have other : ∀ {d}, s.occupancy.registered d = true → c ≠ d := by
    intro d known same
    rw [← same, unknown] at known
    cases known
  obtain ⟨claims, asked, deferred, reserved⟩ := docket_empty_iff.mp empty
  have erased : ∀ d, (s.occupancy.deferred.erase d).get? c = none := by
    intro d
    rw [Table.get?_erase, deferred, ite_self]
  cases turn with
  | unchanged => exact empty
  | woken pop =>
    refine docket_empty_iff.mpr ⟨claims, ?_, deferred, reserved⟩
    exact (Agenda.requests_pushAll (fun _ => rfl) _).trans (requests_pop_zero pop asked)
  | passed pop =>
    exact docket_empty_iff.mpr ⟨claims, requests_pop_zero pop asked, deferred, reserved⟩
  | denied deciding =>
    exact docket_empty_iff.mpr
      ⟨claims, requests_pop_zero deciding.pop asked, erased _, reserved⟩
  | deferred deciding head =>
    have apart := other (Occupancy.registered_of_claimHead head)
    exact docket_empty_iff.mpr ⟨claims, requests_pop_zero deciding.pop asked,
      (Table.get?_insert_of_ne apart).trans (erased _), reserved⟩
  | reserved deciding head =>
    have apart := other (Occupancy.registered_of_claimHead head)
    refine docket_empty_iff.mpr ⟨claims, ?_, (Table.get?_erase_of_ne apart).trans (erased _),
      (Table.get?_insert_of_ne apart).trans reserved⟩
    exact (Agenda.requests_push_of_none rfl).trans (requests_pop_zero deciding.pop asked)
  | committed _ h =>
    obtain ⟨_, -, head, -, rfl⟩ := Occupancy.commit_allocated h
    have apart := other (Occupancy.registered_of_claimHead head)
    exact docket_empty_iff.mpr ⟨(congrArg (Option.getD · []) (Table.get?_insert_of_ne apart)).trans
      claims, asked, deferred, (Table.get?_erase_of_ne apart).trans reserved⟩
  | dropped _ h => exact absurd h heads.commit_ne_stale
  | _ => cases busy

theorem docket_register {handle : Handle} (h : s.register c handle = .ok t)
    (empty : s.docket c = {}) : t.docket c = {} := by
  obtain ⟨-, rfl⟩ := register_ok h
  obtain ⟨-, asked, deferred, reserved⟩ := docket_empty_iff.mp empty
  refine docket_empty_iff.mpr ⟨?_, asked, deferred, reserved⟩
  rw [Table.get?_insert_self, Option.getD_some]

theorem Orderly.stranger_next (orderly : s.Orderly) (unknown : s.occupancy.registered c = false)
    (a : Action) : (s.next a).docket c = {} := by
  have empty := orderly.strangers c unknown
  have refused : ∀ {P : Prop}, s.occupancy.registered c = true → P := by
    intro P known
    rw [unknown] at known
    cases known
  cases quiet : a.quiet with
  | false =>
    have still := stranger_turn (s.turn a) orderly.heads unknown empty quiet
    exact still
  | true =>
    by_cases mine : a.filer? = some c
    · cases a with
      | register client handle =>
        cases mine
        simp only [next]
        cases h : s.register c handle with
        | error => exact empty
        | ok t => exact docket_register h empty
      | unregister client =>
        cases mine
        simp only [next]
        cases h : s.unregister c with
        | error => exact empty
        | ok t => exact (unregister_ok h).2.2.2
      | claim client claims =>
        cases mine
        simp only [next]
        cases h : s.claim c claims with
        | error => exact empty
        | ok t => exact refused (claim_ok h).1
      | allocate client request =>
        cases mine
        simp only [next]
        cases h : s.allocate c request with
        | error => exact empty
        | ok t => exact refused (Occupancy.registered_of_claimHead (allocate_ok h).1)
      | _ => cases mine
    · exact (docket_turn (s.turn a) quiet mine).trans empty

theorem Orderly.strangers_next (orderly : s.Orderly) (a : Action)
    (unknown : (s.next a).occupancy.registered c = false) : (s.next a).docket c = {} := by
  have absurd_known : ∀ {P : Prop}, (s.next a).occupancy.registered c = true → P := by
    intro P known
    rw [unknown] at known
    cases known
  cases known : s.occupancy.registered c with
  | true =>
    by_cases leaves : a = .unregister c
    · subst leaves
      simp only [next] at absurd_known ⊢
      cases h : s.unregister c with
      | error =>
        rw [h] at absurd_known
        exact absurd_known known
      | ok t => exact (unregister_ok h).2.2.2
    · exact absurd_known (registered_next known leaves)
  | false => exact orderly.stranger_next known a

theorem Orderly.next (orderly : s.Orderly) (a : Action) : (s.next a).Orderly where
  heads := reservesHeads_next orderly.heads a
  handles := orderly.handles_next a
  strangers := fun _ => orderly.strangers_next a

theorem Orderly.run (orderly : s.Orderly) (actions : List Action) : (s.run actions).Orderly :=
  run_invariant (P := Orderly) (fun _ a now => now.next a) orderly actions

theorem Orderly.register (orderly : s.Orderly) {handle : Handle}
    (h : s.register c handle = .ok t) : t.Orderly ∧ t.occupancy.registered c = true ∧
      t.docket c = {} := by
  have orderly' := orderly.next (.register c handle)
  simp only [Scheduler.next, h, after] at orderly'
  obtain ⟨unknown, made⟩ := register_ok h
  refine ⟨orderly', ?_, docket_register h (orderly.strangers c unknown)⟩
  subst made
  exact Table.contains_iff.mpr ⟨[], Table.get?_insert_self⟩

theorem Orderly.deals (orderly : s.Orderly) {a : Action}
    (known : s.occupancy.registered c = true) (stays : a ≠ .unregister c) :
    s.Deals c (s.filing c a) (s.next a) := by
  have handle : ∃ handle, s.clients.get? c = some handle :=
    Table.contains_iff.mp ((orderly.handles c).trans known)
  cases quiet : a.quiet with
  | true => exact ⟨[], (verdicts_quiet quiet).trans (List.append_nil _).symm,
      docket_quiet known quiet stays⟩
  | false =>
    cases a with
    | work => exact deals_work known handle
    | answer ready => exact deals_resume orderly.heads known handle ready
    | _ => cases quiet

def filings (s : Scheduler) (client : ClientId) : List Action → List Filing
  | [] => []
  | a :: rest => s.filing client a :: (s.next a).filings client rest

/-- The answers that the client was given since an earlier state. -/
def answersSince (t s : Scheduler) (client : ClientId) : List Answer :=
  (t.journal.drop s.journal.length).filterMap (Signal.answer? client)

theorem answers_append (since : s.journal <+: t.journal) :
    t.answers c = s.answers c ++ t.answersSince s c := by
  obtain ⟨said, journal⟩ := since
  rw [answers, answers, answersSince, ← journal, List.drop_left, List.filterMap_append]

theorem Orderly.deals_run (orderly : s.Orderly) (known : s.occupancy.registered c = true)
    {actions : List Action} (stays : Action.unregister c ∉ actions) :
    ∃ answers, (s.run actions).verdicts c = s.verdicts c ++ answers ∧
      Docket.Steps (s.docket c) (s.filings c actions) answers ((s.run actions).docket c) := by
  induction actions generalizing s with
  | nil => exact ⟨[], (List.append_nil _).symm, .rest _⟩
  | cons a rest ih =>
    have first : a ≠ .unregister c := fun same => stays (same ▸ List.mem_cons_self)
    obtain ⟨now, verdicts, step⟩ := orderly.deals known first
    obtain ⟨more, verdicts', later⟩ := ih (orderly.next a) (registered_next known first)
      fun member => stays (List.mem_cons_of_mem _ member)
    refine ⟨now ++ more, ?_, .step step later⟩
    rw [run_cons, verdicts', verdicts, List.append_assoc]

end Scheduler

end TrafficControl
