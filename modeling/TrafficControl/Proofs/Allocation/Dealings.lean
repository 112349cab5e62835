import TrafficControl.Proofs.Allocation.ClaimHead
import TrafficControl.Proofs.Allocation.Docket

namespace TrafficControl

def Task.request? : Task → Option ResourceSet
  | .allocate request => some request
  | _ => none

def Command.request? (client : ClientId) (command : Command) : Option ResourceSet :=
  if command.client = client then command.task.request? else none

def Action.filer? : Action → Option ClientId
  | .register client _ => some client
  | .unregister client => some client
  | .claim client _ => some client
  | .allocate client _ => some client
  | _ => none

namespace Agenda

def requests (a : Agenda) (client : ClientId) : Multiset ResourceSet :=
  a.pending.filterMap (Command.request? client)

variable {a : Agenda} {task : Task} {c d : ClientId}

theorem place_perm (command : Command) (l : List Command) :
    (place command l).Perm (command :: l) := by
  induction l with
  | nil => exact .refl _
  | cons first rest ih =>
    unfold place
    split
    · exact .refl _
    · exact (ih.cons first).trans (.swap command first rest)

theorem requests_push : (a.push task d).requests c =
    ↑(if d = c then task.request? else none).toList + a.requests c := by
  rw [requests, push, pushAt]
  generalize a.clock.instant a.nextSerial = now
  have perm := (place_perm { task, client := d, created := now, serial := a.nextSerial }
    a.pending).filterMap (Command.request? c)
  rw [Multiset.coe_eq_coe.mpr perm, List.filterMap_cons]
  cases h : Command.request? c { task, client := d, created := now, serial := a.nextSerial }
  all_goals
    simp only [Command.request?] at h
    rw [h]
    rfl

theorem requests_push_of_none (silent : task.request? = none) :
    (a.push task d).requests c = a.requests c := by
  rw [requests_push, silent, ite_self]
  exact Multiset.zero_add _

theorem requests_push_of_ne (other : d ≠ c) : (a.push task d).requests c = a.requests c := by
  rw [requests_push, if_neg other]
  exact Multiset.zero_add _

theorem requests_push_self {request : ResourceSet} :
    (a.push (.allocate request) c).requests c = request ::ₘ a.requests c := by
  rw [requests_push, if_pos rfl]
  rfl

theorem requests_pushAll {α : Type} {command : α → Task × ClientId}
    (silent : ∀ x, (command x).1.request? = none) (l : List α) :
    (a.pushAll (l.map command)).requests c = a.requests c := by
  induction l generalizing a with
  | nil => rfl
  | cons x rest ih =>
    have step : a.pushAll ((x :: rest).map command) =
        (a.push (command x).1 (command x).2).pushAll (rest.map command) := rfl
    rw [step, ih]
    exact requests_push_of_none (silent x)

theorem requests_pop {first : Command} {rest : Agenda} (pop : a.pop? = some (first, rest)) :
    a.requests c = ↑(first.request? c).toList + rest.requests c := by
  simp only [pop?] at pop
  split at pop
  · cases pop
  · rename_i pending
    cases pop
    rw [requests, pending, List.filterMap_cons]
    cases first.request? c <;> rfl

theorem requests_purge_of_ne (other : d ≠ c) : (a.purge d).requests c = a.requests c := by
  rw [requests, requests, purge, List.filterMap_filter]
  congr 1
  refine List.filterMap_congr fun command _ => ?_
  by_cases mine : command.client = c
  · have apart : command.client ≠ d := fun h => other (h.symm.trans mine)
    simp [apart]
  · simp [Command.request?, mine]

theorem requests_purge_self : (a.purge c).requests c = 0 := by
  rw [requests, purge, List.filterMap_filter]
  refine congrArg _ (List.filterMap_eq_nil_iff.mpr fun command _ => ?_)
  by_cases mine : command.client = c <;> simp [Command.request?, mine]

end Agenda

theorem Occupancy.commit_none {o o' : Occupancy} {c : ClientId} (h : o.commit c = (none, o')) :
    o' = o := by
  simp only [commit] at h
  split at h
  · cases h
  · rename_i same cancelled
    split at h
    · cases h
      exact (cancelStale_none cancelled).1
    · cases h

def Docket.taking (d : Docket) (request : ResourceSet) : Filing :=
  if d.reserved.or d.deferred = some request then .repeated request else .nothing

namespace Scheduler

def docket (s : Scheduler) (client : ClientId) : Docket where
  claims := (s.occupancy.claims.get? client).getD []
  asked := s.agenda.requests client
  deferred := s.occupancy.deferred.get? client
  reserved := (s.occupancy.reservations.get? client).map (·.request)

def filing (s : Scheduler) (client : ClientId) : Action → Filing
  | .claim c claims =>
    if c = client then
      match s.claim c claims with
      | .ok _ => .claims claims
      | .error _ => .nothing
    else .nothing
  | .allocate c request =>
    if c = client then
      match s.allocate c request with
      | .ok _ => .request request
      | .error _ => .nothing
    else .nothing
  | .work =>
    match s.phase, s.agenda.pop? with
    | .idle, some (first, _) =>
      match first.request? client with
      | some request => (s.docket client).taking request
      | none => .nothing
    | _, _ => .nothing
  | _ => .nothing

variable {s t : Scheduler} {c d : ClientId}

theorem docket_congr (claims : t.occupancy.claims.get? c = s.occupancy.claims.get? c)
    (asked : t.agenda.requests c = s.agenda.requests c)
    (deferred : t.occupancy.deferred.get? c = s.occupancy.deferred.get? c)
    (reserved : t.occupancy.reservations.get? c = s.occupancy.reservations.get? c) :
    t.docket c = s.docket c := by
  simp only [docket, claims, asked, deferred, reserved]

theorem docket_of_agrees (agrees : t.Agrees s) : t.docket c = s.docket c := by
  obtain ⟨occupancy, agenda, -⟩ := agrees
  simp only [docket, occupancy, agenda]

theorem claimHead?_eq (known : s.occupancy.registered c = true) :
    s.occupancy.claimHead? c = (s.docket c).claims.head? := by
  obtain ⟨claims, present⟩ := Table.contains_iff.mp known
  simp only [Occupancy.claimHead?, docket, present]
  rfl

theorem register_ok {handle : Handle} (h : s.register c handle = .ok t) :
    s.occupancy.registered c = false ∧ t = { s with
      occupancy := { s.occupancy with
        claims := s.occupancy.claims.insert c []
        allocated := s.occupancy.allocated.insert c ∅ }
      clients := s.clients.insert c handle } := by
  simp only [register] at h
  split at h
  · cases h
  · rename_i o entered
    cases h
    obtain ⟨fresh, rfl⟩ := Occupancy.register?_some entered
    exact ⟨fresh, rfl⟩

theorem unregister_ok (h : s.unregister c = .ok t) : s.occupancy.registered c = true ∧
    t.clients = s.clients.erase c ∧ t.occupancy.claims = s.occupancy.claims.erase c ∧
      t.docket c = {} := by
  simp only [unregister] at h
  split at h
  · cases h
  · rename_i freed o left
    obtain ⟨known, -, rfl⟩ := Occupancy.unregister?_some left
    have purged : (s.agenda.purge c).requests c = 0 := Agenda.requests_purge_self
    have pushed : ((s.agenda.purge c).push (.released freed) c).requests c = 0 :=
      (Agenda.requests_push_of_none rfl).trans purged
    cases h
    split
    · refine ⟨known, rfl, rfl, ?_⟩
      simp only [docket, Table.get?_erase_self, purged, Option.getD_none, Option.map_none]
    · refine ⟨known, rfl, rfl, ?_⟩
      simp only [docket, push, tell, emit, Table.get?_erase_self, pushed, Option.getD_none,
        Option.map_none]

theorem claim_ok {claims : List ResourceSet} (h : s.claim c claims = .ok t) :
    s.occupancy.registered c = true ∧
      ((∃ o, (s.occupancy.setClaims c claims).cancelStale c = (none, o) ∧
          t = { s with occupancy := o }.tell (.claimed c claims)) ∨
        ∃ cancelled o, (s.occupancy.setClaims c claims).cancelStale c = (some cancelled, o) ∧
          t = ({ s with occupancy := o.defer c cancelled.request }.tell (.claimed c claims)).push
            (.released cancelled.expanded) c) := by
  simp only [claim] at h
  split at h
  · cases h
  · split at h
    · rename_i known
      split at h
      · rename_i o cancelled
        cases h
        exact ⟨known, .inl ⟨o, cancelled, rfl⟩⟩
      · rename_i reservation o cancelled
        cases h
        exact ⟨known, .inr ⟨reservation, o, cancelled, rfl⟩⟩
    · cases h

theorem allocate_ok {request : ResourceSet} (h : s.allocate c request = .ok t) :
    s.occupancy.claimHead? c = some request ∧ t = s.push (.allocate request) c := by
  simp only [allocate] at h
  split at h
  · cases h
  · split at h
    · cases h
    · split at h
      · cases h
      · rename_i head
        cases h
        exact ⟨by simpa using head, rfl⟩

theorem docket_claim {claims : List ResourceSet} (h : s.claim c claims = .ok t) :
    Docket.Step (s.docket c) (.claims claims) [] (t.docket c) := by
  have head : (s.occupancy.setClaims c claims).claimHead? c = claims.head? := by
    rw [Occupancy.claimHead?, Occupancy.setClaims, Table.get?_insert_self]
    rfl
  obtain ⟨-, ⟨o, kept, claimed⟩ | ⟨cancelled, o, dropped, reclaimed⟩⟩ := claim_ok h
  · obtain ⟨rfl, own⟩ := Occupancy.cancelStale_none kept
    have same : t.docket c = { s.docket c with claims } := by
      rw [claimed]
      simp only [docket, tell, emit, Occupancy.setClaims, Table.get?_insert_self, Option.getD_some]
    rw [same]
    refine .claim fun request reserved => ?_
    obtain ⟨reservation, present, rfl⟩ := Option.map_eq_some_iff.mp reserved
    exact head.symm.trans (own reservation present)
  · obtain ⟨present, other, rfl⟩ := Occupancy.cancelStale_some dropped
    have same : t.docket c = { s.docket c with
        claims, deferred := some cancelled.request, reserved := none } := by
      have asked : (s.agenda.push (.released cancelled.expanded) c).requests c =
          s.agenda.requests c := Agenda.requests_push_of_none rfl
      rw [reclaimed]
      simp only [docket, push, tell, emit, Occupancy.defer, Occupancy.setClaims, asked,
        Table.get?_insert_self, Table.get?_erase_self, Option.getD_some, Option.map_none]
    have present : s.occupancy.reservations.get? c = some cancelled := present
    have reserved : (s.docket c).reserved = some cancelled.request := by
      rw [docket, present, Option.map_some]
    rw [same]
    exact .reclaim reserved (head ▸ other)

theorem docket_allocate {request : ResourceSet} (h : s.allocate c request = .ok t) :
    Docket.Step (s.docket c) (.request request) [] (t.docket c) := by
  obtain ⟨head, rfl⟩ := allocate_ok h
  have known := Occupancy.registered_of_claimHead head
  have same : (s.push (.allocate request) c).docket c =
      { s.docket c with asked := request ::ₘ (s.docket c).asked } := by
    simp only [docket, push, Agenda.requests_push_self]
  rw [same]
  exact .ask ((claimHead?_eq known).symm.trans head)

theorem docket_turn {a : Action} {o : Occupancy} {agenda : Agenda} (turn : Turn s a o agenda)
    (quiet : a.quiet = true) (foreign : a.filer? ≠ some c) :
    { s with occupancy := o, agenda }.docket c = s.docket c := by
  have apart : ∀ {d}, a.filer? = some d → c ≠ d := fun filer same => foreign (same ▸ filer)
  cases turn with
  | unchanged | closed => rfl
  | registered h =>
    obtain ⟨-, rfl⟩ := Occupancy.register?_some h
    exact docket_congr (Table.get?_insert_of_ne (apart rfl)) rfl rfl rfl
  | unregistered h =>
    obtain ⟨-, -, rfl⟩ := Occupancy.unregister?_some h
    have purged := Agenda.requests_purge_of_ne (a := s.agenda) (apart rfl).symm
    refine docket_congr (Table.get?_erase_of_ne (apart rfl)) ?_ (Table.get?_erase_of_ne (apart rfl))
      (Table.get?_erase_of_ne (apart rfl))
    dsimp only
    split
    · exact purged
    · exact (Agenda.requests_push_of_none rfl).trans purged
  | claimed _ _ h =>
    obtain ⟨rfl, -⟩ := Occupancy.cancelStale_none h
    exact docket_congr (Table.get?_insert_of_ne (apart rfl)) rfl rfl rfl
  | reclaimed _ _ h =>
    obtain ⟨-, -, rfl⟩ := Occupancy.cancelStale_some h
    exact docket_congr (Table.get?_insert_of_ne (apart rfl)) (Agenda.requests_push_of_none rfl)
      (Table.get?_insert_of_ne (apart rfl)) (Table.get?_erase_of_ne (apart rfl))
  | requested => exact docket_congr rfl (Agenda.requests_push_of_ne (apart rfl).symm) rfl rfl
  | released _ h =>
    obtain ⟨-, -, -, rfl⟩ := Occupancy.release_ok h
    exact docket_congr rfl (Agenda.requests_push_of_none rfl) rfl rfl
  | rechecked =>
    exact docket_congr rfl (Agenda.requests_pushAll (fun _ => rfl) _) rfl rfl
  | woken | passed | denied | deferred | reserved | committed | dropped => cases quiet

theorem docket_quiet {a : Action} (known : s.occupancy.registered c = true)
    (quiet : a.quiet = true) (stays : a ≠ .unregister c) :
    Docket.Step (s.docket c) (s.filing c a) [] ((s.next a).docket c) := by
  by_cases mine : a.filer? = some c
  · cases a with
    | register client handle =>
      cases mine
      simp only [next]
      cases h : s.register c handle with
      | error => exact .rest
      | ok =>
        have unknown := (register_ok h).1
        rw [known] at unknown
        cases unknown
    | unregister client =>
      cases mine
      exact absurd rfl stays
    | claim client claims =>
      cases mine
      cases h : s.claim c claims with
      | error =>
        simp only [filing, next, after, h, if_pos]
        exact .rest
      | ok t =>
        simp only [filing, next, after, h, if_pos]
        exact docket_claim h
    | allocate client request =>
      cases mine
      cases h : s.allocate c request with
      | error =>
        simp only [filing, next, after, h, if_pos]
        exact .rest
      | ok t =>
        simp only [filing, next, after, h, if_pos]
        exact docket_allocate h
    | _ => cases mine
  · have same : (s.next a).docket c = s.docket c := docket_turn (s.turn a) quiet mine
    have filing : s.filing c a = .nothing := by
      cases a with
      | claim => exact if_neg fun h => mine (congrArg some h)
      | allocate => exact if_neg fun h => mine (congrArg some h)
      | work => cases quiet
      | _ => rfl
    rw [filing, same]
    exact .rest

variable {request : ResourceSet} {notices : List Notice}

theorem Attempted.journal_eq (h : Attempted s d request notices t) : t.journal = s.journal := by
  cases h <;> rfl

theorem Attempted.docket (h : Attempted s c request notices t)
    (known : s.occupancy.registered c = true) :
    Docket.Decided request (s.docket c) (notices.filterMap (Notice.answer? c)) (t.docket c) := by
  cases h with
  | unknown unknown =>
    rw [known] at unknown
    cases unknown
  | denied =>
    simp only [List.filterMap_cons, Notice.answer?, if_pos, List.filterMap_nil]
    exact .denied
  | deferred head =>
    have same : { s with occupancy := s.occupancy.defer c request }.docket c =
        { s.docket c with deferred := some request } := by
      simp only [Scheduler.docket, Occupancy.defer, Table.get?_insert_self]
    rw [same]
    exact .deferred ((claimHead?_eq known).symm.trans head)
  | @reserved expanded head =>
    have asked : (s.agenda.push (.check request) c).requests c = s.agenda.requests c :=
      Agenda.requests_push_of_none rfl
    have same : ({ s with occupancy := s.occupancy.reserve c { request, expanded } }.push
        (.check request) c).docket c =
          { s.docket c with deferred := none, reserved := some request } := by
      simp only [Scheduler.docket, push, asked, Occupancy.reserve, Table.get?_insert_self,
        Table.get?_erase_self, Option.map_some]
    rw [same]
    exact .reserved ((claimHead?_eq known).symm.trans head)

theorem Attempted.docket_of_ne (h : Attempted s d request notices t) (other : d ≠ c) :
    notices.filterMap (Notice.answer? c) = [] ∧ t.docket c = s.docket c := by
  have apart : c ≠ d := Ne.symm other
  cases h with
  | unknown => exact ⟨rfl, rfl⟩
  | denied => exact ⟨by simp [Notice.answer?, other], rfl⟩
  | deferred => exact ⟨rfl, docket_congr rfl rfl (Table.get?_insert_of_ne apart) rfl⟩
  | reserved =>
    exact ⟨rfl, docket_congr rfl (Agenda.requests_push_of_none rfl) (Table.get?_erase_of_ne apart)
      (Table.get?_insert_of_ne apart)⟩

theorem docket_withoutDeferred :
    { s with occupancy := s.occupancy.withoutDeferred c }.docket c =
      { s.docket c with deferred := none } := by
  simp only [docket, Occupancy.withoutDeferred, Table.get?_erase_self]

theorem docket_withoutDeferred_of_ne (other : d ≠ c) :
    { s with occupancy := s.occupancy.withoutDeferred d }.docket c = s.docket c :=
  docket_congr rfl rfl (Table.get?_erase_of_ne (Ne.symm other)) rfl

theorem retry_journal : (s.retry d).2.journal = s.journal := by
  unfold retry
  split
  · rfl
  · exact (attempted _ _ _).journal_eq

theorem docket_retry (known : s.occupancy.registered c = true) (d : ClientId) :
    Docket.Step (s.docket c) .nothing ((s.retry d).1.filterMap (Notice.answer? c))
      ((s.retry d).2.docket c) := by
  unfold retry
  split
  · exact .rest
  · rename_i request waits
    have h := attempted { s with occupancy := s.occupancy.withoutDeferred d } d request
    by_cases mine : d = c
    · subst mine
      have decided := h.docket known
      rw [docket_withoutDeferred] at decided
      exact .retry waits decided
    · obtain ⟨silent, same⟩ := h.docket_of_ne mine
      rw [silent, same, docket_withoutDeferred_of_ne mine]
      exact .rest

theorem consider_journal (request : ResourceSet) :
    (s.consider d request).2.journal = s.journal := by
  unfold consider
  split
  · split <;> rfl
  · exact (attempted _ _ _).journal_eq

theorem answers_failed (requests : List ResourceSet) :
    (requests.map (Notice.failed d)).filterMap (Notice.answer? c) =
      if d = c then requests.map .denied else [] := by
  rw [List.filterMap_map]
  split
  · rename_i mine
    subst mine
    rw [← List.filterMap_eq_map]
    exact List.filterMap_congr fun _ _ => if_pos rfl
  · rename_i other
    exact List.filterMap_eq_nil_iff.mpr fun _ _ => if_neg other

theorem docket_consider_of_ne (other : d ≠ c) (request : ResourceSet) :
    (s.consider d request).1.filterMap (Notice.answer? c) = [] ∧
      (s.consider d request).2.docket c = s.docket c := by
  unfold consider
  split
  · split
    · exact ⟨rfl, rfl⟩
    · exact ⟨(answers_failed [request]).trans (if_neg other), rfl⟩
  · obtain ⟨silent, same⟩ := (attempted { s with occupancy := s.occupancy.withoutDeferred d }
      d request).docket_of_ne other
    refine ⟨?_, same.trans (docket_withoutDeferred_of_ne other)⟩
    rw [List.filterMap_append, answers_failed, if_neg other, silent]
    rfl

theorem docket_consider {d : Docket} {rest : Multiset ResourceSet}
    (known : s.occupancy.registered c = true) (asked : d.asked = request ::ₘ rest)
    (taken : s.docket c = { d with asked := rest }) :
    Docket.Step d (d.taking request) ((s.consider c request).1.filterMap (Notice.answer? c))
      ((s.consider c request).2.docket c) := by
  have waits : s.occupancy.deferred.get? c = d.deferred := congrArg Docket.deferred taken
  have held : (s.occupancy.reservations.get? c).map (·.request) = d.reserved :=
    congrArg Docket.reserved taken
  unfold consider
  cases present : s.occupancy.reservations.get? c with
  | some reservation =>
    rw [present, Option.map_some] at held
    have first : d.reserved.or d.deferred = some reservation.request := by
      rw [← held, Option.some_or]
    by_cases same : reservation.request = request
    · rw [Docket.taking, if_pos (first.trans (congrArg some same))]
      simp only [if_pos same, taken]
      exact .merge asked (held.symm.trans (congrArg some same))
    · have denied := answers_failed (d := c) (c := c) [request]
      rw [if_pos rfl] at denied
      rw [Docket.taking, if_neg fun h => same (Option.some.inj (first.symm.trans h))]
      simp only [if_neg same, taken]
      exact denied ▸ .refuse asked held.symm same
  | none =>
    rw [present, Option.map_none] at held
    have free : d.reserved = none := held.symm
    have decided := (attempted { s with occupancy := s.occupancy.withoutDeferred c } c
      request).docket known
    rw [docket_withoutDeferred, taken] at decided
    simp only [waits, List.filterMap_append, answers_failed, if_pos]
    rw [Docket.taking, free, Option.none_or]
    by_cases same : d.deferred = some request
    · have none : (some request).filter (· ≠ request) = none := by simp
      rw [if_pos same, same, none]
      exact .retake asked free same decided
    · have alone : d.deferred.filter (· ≠ request) = d.deferred := by
        cases h : d.deferred with
        | none => rfl
        | some other =>
          have apart : other ≠ request := fun e => same (e ▸ h)
          simp [apart]
      rw [if_neg same, alone]
      exact .take asked free same decided

/-- The client's docket makes a step, and the answers of this step are given or decided on. -/
def Deals (s : Scheduler) (client : ClientId) (filing : Filing) (t : Scheduler) : Prop :=
  ∃ answers, t.verdicts client = s.verdicts client ++ answers ∧
    Docket.Step (s.docket client) filing answers (t.docket client)

theorem deals_of_same (verdicts : t.verdicts c = s.verdicts c) (docket : t.docket c = s.docket c) :
    s.Deals c .nothing t := by
  refine ⟨[], verdicts.trans (List.append_nil _).symm, ?_⟩
  rw [docket]
  exact .rest

theorem deals_deliver {u : Scheduler} {filing : Filing} (idle : s.phase = .idle)
    (handle : ∃ handle, s.clients.get? c = some handle) (continues : Continues s u)
    (journal : u.journal = s.journal)
    (step : Docket.Step (s.docket c) filing (notices.filterMap (Notice.answer? c)) (u.docket c)) :
    s.Deals c filing (u.deliver notices) := by
  refine ⟨_, ?_, (docket_of_agrees (deliver_agrees u notices)).symm ▸ step⟩
  rw [verdicts_deliver (continues.clients.symm ▸ handle), verdicts_of_idle idle, answers, answers,
    journal]

theorem docket_pop {first : Command} {rest : Agenda} (pop : s.agenda.pop? = some (first, rest))
    (silent : first.request? c = none) : { s with agenda := rest }.docket c = s.docket c := by
  have whole : s.agenda.requests c = _ := Agenda.requests_pop pop
  rw [silent] at whole
  exact docket_congr rfl (whole.trans (Multiset.zero_add _)).symm rfl rfl

theorem docket_retryDeferred : s.retryDeferred.docket c = s.docket c := by
  obtain ⟨occupancy, agenda, -⟩ := retryDeferred_eq s s.occupancy.deferred.keys
  have occupancy : s.retryDeferred.occupancy = s.occupancy := occupancy
  have asked : s.retryDeferred.agenda.requests c = s.agenda.requests c := by
    rw [retryDeferred, agenda]
    exact Agenda.requests_pushAll (fun _ => rfl) _
  exact docket_congr (by rw [occupancy]) asked (by rw [occupancy]) (by rw [occupancy])

theorem filing_work {first : Command} {rest : Agenda} (idle : s.phase = .idle)
    (pop : s.agenda.pop? = some (first, rest)) :
    s.filing c .work = match first.request? c with
      | some request => (s.docket c).taking request
      | none => .nothing := by
  simp only [filing, idle, pop]

theorem deals_process {first : Command} {rest : Agenda} (idle : s.phase = .idle)
    (pop : s.agenda.pop? = some (first, rest)) (known : s.occupancy.registered c = true)
    (handle : ∃ handle, s.clients.get? c = some handle) :
    s.Deals c (s.filing c .work) ({ s with agenda := rest }.process first) := by
  have filing := filing_work (c := c) idle pop
  have foreign : first.request? c = none → s.filing c .work = .nothing ∧
      { s with agenda := rest }.docket c = s.docket c := by
    intro silent
    rw [silent] at filing
    exact ⟨filing, docket_pop pop silent⟩
  have silent : first.task.request? = none → first.request? c = none := by
    intro none
    rw [Command.request?, none, ite_self]
  have continues := Continues.rearrange (s := s) s.occupancy rest
  unfold process
  split
  · rename_i freed task
    obtain ⟨filing, same⟩ := foreign (silent (task ▸ rfl))
    obtain ⟨woken, pushed⟩ := retryDeferred_push { s with agenda := rest }
    rw [filing]
    exact deals_of_same (pushed ▸ rfl) (docket_retryDeferred.trans same)
  · rename_i task
    obtain ⟨filing, same⟩ := foreign (silent (task ▸ rfl))
    have step := docket_retry (s := { s with agenda := rest }) known first.client
    rw [same] at step
    rw [filing]
    exact deals_deliver idle handle (continues.trans (retry_continues _)) retry_journal step
  · rename_i request task
    obtain ⟨filing, same⟩ := foreign (silent (task ▸ rfl))
    have verdicts := verdicts_check (s := { s with agenda := rest }) (c := c) idle first.client request
    rw [filing]
    refine deals_of_same (verdicts.trans ?_) ((docket_of_agrees (check_agrees _ _ _)).trans same)
    exact (verdicts_of_idle idle).symm
  · rename_i request task
    have step : Docket.Step (s.docket c) (s.filing c .work)
        (({ s with agenda := rest }.consider first.client request).1.filterMap (Notice.answer? c))
        (({ s with agenda := rest }.consider first.client request).2.docket c) := by
      by_cases mine : first.client = c
      · have asks : first.request? c = some request := by
          rw [Command.request?, if_pos mine, task]
          rfl
        have whole : s.agenda.requests c = request ::ₘ rest.requests c := by
          rw [Agenda.requests_pop pop, asks]
          rfl
        rw [asks] at filing
        rw [filing, mine]
        exact docket_consider (s := { s with agenda := rest }) known whole rfl
      · obtain ⟨filing, same⟩ := foreign (if_neg mine)
        obtain ⟨none, still⟩ :=
          docket_consider_of_ne (s := { s with agenda := rest }) mine request
        rw [filing, none, still, same]
        exact .rest
    exact deals_deliver idle handle (continues.trans (consider_continues _ request))
      (consider_journal request) step

theorem deals_work (known : s.occupancy.registered c = true)
    (handle : ∃ handle, s.clients.get? c = some handle) :
    s.Deals c (s.filing c .work) (s.next .work) := by
  have nothing : s.filing c .work = .nothing → s.Deals c (s.filing c .work) s :=
    fun filing => filing ▸ deals_of_same rfl rfl
  simp only [next, processNext?]
  split
  · rename_i busy
    refine nothing ?_
    simp only [Scheduler.filing]
    split
    · rename_i idle _
      exact absurd idle busy
    · rfl
  · rename_i idle
    split
    · rename_i pop
      refine nothing ?_
      simp only [Scheduler.filing]
      split
      · rename_i taken
        rw [pop] at taken
        cases taken
      · rfl
    · rename_i first rest pop
      exact deals_process (not_not.mp idle) pop known handle

theorem docket_commit {o : Occupancy} (known : s.occupancy.registered c = true)
    (h : s.occupancy.commit d = (some (.allocated request), o)) :
    Docket.Step (s.docket c) .nothing ([Notice.allocated d request].filterMap (Notice.answer? c))
      ({ s with occupancy := o }.docket c) := by
  obtain ⟨reservation, present, head, same, made⟩ := Occupancy.commit_allocated h
  by_cases mine : d = c
  · subst mine
    subst same
    subst made
    rw [claimHead?_eq known] at head
    obtain ⟨claims, listed⟩ := List.head?_eq_some_iff.mp head
    have tail : ((s.occupancy.claims.get? d).getD []).tail = claims := congrArg List.tail listed
    simp only [List.filterMap_cons, Notice.answer?, if_pos, List.filterMap_nil]
    simp only [docket, Table.get?_insert_self, Table.get?_erase_self, Option.getD_some, tail,
      Option.map_none]
    exact .grant (congrArg (Option.map (·.request)) present) listed
  · have apart : c ≠ d := Ne.symm mine
    simp only [List.filterMap_cons, Notice.answer?, if_neg mine, List.filterMap_nil]
    have still : { s with occupancy := o }.docket c = s.docket c := by
      subst made
      exact docket_congr (Table.get?_insert_of_ne apart) rfl rfl (Table.get?_erase_of_ne apart)
    rw [still]
    exact .rest

theorem deals_settle (heads : s.occupancy.ReservesHeads) (none : s.phase.notices = [])
    (known : s.occupancy.registered c = true) (handle : ∃ handle, s.clients.get? c = some handle)
    (check : Check) : s.Deals c .nothing (s.settle check) := by
  have verdicts := verdicts_of_notices (c := c) none
  have idle : ∀ o, o = s.occupancy →
      s.Deals c .nothing ({ s with occupancy := o }.await .idle) := by
    intro o same
    subst same
    refine deals_of_same ?_ (docket_of_agrees (await_agrees s _))
    rw [verdicts_await, verdicts]
    exact List.append_nil _
  unfold settle
  split
  · exact idle _ rfl
  · split
    · rename_i o h
      exact idle o (Occupancy.commit_none h)
    · rename_i request o h
      have same := docket_of_agrees (c := c)
        (deliver_agrees { s with occupancy := o } [.allocated check.client request])
      refine ⟨_, ?_, same.symm ▸ docket_commit known h⟩
      rw [verdicts_deliver (s := { s with occupancy := o }) handle, verdicts]
      rfl
    · rename_i reservation o h
      exact absurd h heads.commit_ne_stale

theorem deals_resume (heads : s.occupancy.ReservesHeads) (known : s.occupancy.registered c = true)
    (handle : ∃ handle, s.clients.get? c = some handle) (ready : Bool) :
    s.Deals c .nothing (s.resume ready) := by
  have deliver : ∀ notices, s.phase.notices = notices → s.Deals c .nothing (s.deliver notices) := by
    intro notices same
    subst same
    exact deals_of_same (verdicts_deliver handle _) (docket_of_agrees (deliver_agrees s _))
  unfold resume
  split
  · exact deals_of_same rfl rfl
  · rename_i phase
    have verdicts := verdicts_of_notices (c := c) (s := s) (phase ▸ rfl)
    split
    · exact deals_of_same ((verdicts_inquire _ _).trans verdicts.symm)
        (docket_of_agrees (inquire_agrees s _ _))
    · exact deals_of_same ((verdicts_confirm _ _).trans verdicts.symm)
        (docket_of_agrees (confirm_agrees s _ _))
  · rename_i phase
    split
    · exact deals_settle heads (phase ▸ rfl) known handle _
    · exact deliver [] (phase ▸ rfl)
  · rename_i phase
    split
    · refine deals_of_same ?_ (docket_of_agrees (await_agrees s _))
      rw [verdicts_await, verdicts, owed, phase]
      rfl
    · exact deliver _ (phase ▸ rfl)
  · rename_i phase
    exact deliver _ (phase ▸ rfl)
  · rename_i phase
    exact deliver _ (phase ▸ rfl)

end Scheduler

end TrafficControl
