import TrafficControl.Allocation.Processing
import TrafficControl.Proofs.Allocation.Pending
import TrafficControl.Proofs.Plant.Closure

namespace TrafficControl

inductive Action where
  | register (client : ClientId) (handle : Handle)
  | unregister (client : ClientId)
  | claim (client : ClientId) (claims : List ResourceSet)
  | allocate (client : ClientId) (request : ResourceSet)
  | release (client : ClientId) (resources : ResourceSet)
  | preparationChanged
  | addHook (hook : HookId)
  | lock (path : PathId) (locked : Bool)
  | replace (plant : Plant)
  | start
  | shutdown
  /-- The first command is worked on, up to the first call that has to be answered. -/
  | work
  | answer (ready : Bool)

namespace Scheduler

def after {ε : Type} (s : Scheduler) : Except ε Scheduler → Scheduler
  | .ok next => next
  | .error _ => s

def next (s : Scheduler) : Action → Scheduler
  | .register client handle => s.after (s.register client handle)
  | .unregister client => s.after (s.unregister client)
  | .claim client claims => s.after (s.claim client claims)
  | .allocate client request => s.after (s.allocate client request)
  | .release client resources => s.after (s.release client resources)
  | .preparationChanged => s.preparationChanged
  | .addHook hook => s.addHook hook
  | .lock path locked => s.after (s.setLocked path locked)
  | .replace plant => s.replacePlant plant
  | .start => s.after s.start
  | .shutdown => s.shutdown
  | .work => s.processNext?.getD s
  | .answer ready => s.resume ready

def run (s : Scheduler) (actions : List Action) : Scheduler := actions.foldl next s

/-- Every action of a run is of the kind that `ok` allows in the state it meets. -/
def Along (ok : Scheduler → Action → Prop) (s : Scheduler) : List Action → Prop
  | [] => True
  | a :: rest => ok s a ∧ Along ok (s.next a) rest

theorem run_cons (s : Scheduler) (a : Action) (rest : List Action) :
    s.run (a :: rest) = (s.next a).run rest := rfl

theorem run_snoc (s : Scheduler) (done : List Action) (a : Action) :
    s.run (done ++ [a]) = (s.run done).next a := by
  rw [run, List.foldl_append]
  rfl

def corridor : PlantVersions where
  current := {
    layout := {
      points := [{ name := "A", position := ⟨0, 0⟩ }, { name := "B", position := ⟨1000, 0⟩ }]
      paths := [{ name := "A-->B", source := ⟨0⟩, destination := ⟨1⟩, length := 1000 }] }
    sound := by decide
    incidence := [[⟨0⟩], [⟨0⟩]]
    incidence_eq := by decide
    memberships := ∅
    memberships_eq := by decide }

theorem run_induction {ok : Scheduler → Action → Prop} {P : Scheduler → Prop}
    (step : ∀ s a, P s → ok s a → P (s.next a)) {s : Scheduler} (start : P s)
    {actions : List Action} (along : Along ok s actions) : P (s.run actions) := by
  induction actions generalizing s with
  | nil => exact start
  | cons a rest ih =>
    rw [run_cons]
    exact ih (step s a start along.1) along.2

theorem run_invariant {P : Scheduler → Prop} (step : ∀ s a, P s → P (s.next a)) {s : Scheduler}
    (start : P s) (actions : List Action) : P (s.run actions) := by
  induction actions generalizing s with
  | nil => exact start
  | cons a rest ih => exact ih (step s a start)

theorem along_of_prefixes {ok : Scheduler → Action → Prop} {s : Scheduler} {actions : List Action}
    (h : ∀ done a, done ++ [a] <+: actions → ok (s.run done) a) : Along ok s actions := by
  induction actions generalizing s with
  | nil => exact True.intro
  | cons a rest ih =>
    refine ⟨h [] a ⟨rest, rfl⟩, ih fun done b start => ?_⟩
    obtain ⟨later, rfl⟩ := start
    exact h (a :: done) b ⟨later, rfl⟩

theorem Along.earlier {ok : Scheduler → Action → Prop} {s : Scheduler} {done actions : List Action}
    (along : Along ok s actions) (start : done <+: actions) : Along ok s done := by
  obtain ⟨rest, rfl⟩ := start
  induction done generalizing s with
  | nil => exact True.intro
  | cons a done ih => exact ⟨along.1, ih along.2⟩

section Frame

variable (s : Scheduler)

/-- The two schedulers agree on occupancy, agenda and plant. -/
def Agrees (s t : Scheduler) : Prop :=
  s.occupancy = t.occupancy ∧ s.agenda = t.agenda ∧ s.plant = t.plant

theorem await_agrees (phase : Phase) : (s.await phase).Agrees s := by
  unfold await
  split <;> exact ⟨rfl, rfl, rfl⟩

theorem deliver_agrees (notices : List Notice) : (s.deliver notices).Agrees s := by
  induction notices generalizing s with
  | nil => exact await_agrees s _
  | cons n rest ih =>
    cases n with
    | deferred client request => exact ih (s.tell _)
    | prepare client request =>
      simp only [deliver]
      split
      · exact await_agrees s _
      · exact ih s
    | allocated client request =>
      simp only [deliver]
      split
      · exact await_agrees (s.tell _) _
      · exact ih (s.tell _)
    | failed client request =>
      simp only [deliver]
      split
      · exact await_agrees (s.tell _) _
      · exact ih (s.tell _)

theorem confirm_agrees (check : Check) (ready : Bool) : (s.confirm check ready).Agrees s := by
  unfold confirm
  split <;> exact await_agrees s _

theorem inquire_agrees (check : Check) (hooks : List HookId) : (s.inquire check hooks).Agrees s := by
  cases hooks with
  | nil => exact confirm_agrees s check true
  | cons => exact await_agrees s _

theorem check_agrees (client : ClientId) (request : ResourceSet) :
    (s.check client request).Agrees s := by
  unfold Scheduler.check
  split
  · exact ⟨rfl, rfl, rfl⟩
  · split
    · exact inquire_agrees s _ _
    · exact ⟨rfl, rfl, rfl⟩

end Frame

/-- The first command is a request that is decided on now: a new one while nothing is reserved for
    the client, or one that waits and is tried again. -/
structure Deciding (s : Scheduler) (first : Command) (rest : Agenda) (request : ResourceSet) :
    Prop where
  pop : s.agenda.pop? = some (first, rest)
  asked : (first.task = .allocate request ∧ s.occupancy.reservations.get? first.client = none) ∨
    (first.task = .retry ∧ s.occupancy.deferred.get? first.client = some request)

/-- What an action can make of occupancy and agenda, with all that has to hold for it. -/
inductive Turn (s : Scheduler) : Action → Occupancy → Agenda → Prop
  | unchanged (a : Action) : Turn s a s.occupancy s.agenda
  | registered {client handle o} (h : s.occupancy.register? client = some o) :
      Turn s (.register client handle) o s.agenda
  | unregistered {client freed o} (h : s.occupancy.unregister? client = some (freed, o)) :
      Turn s (.unregister client) o
        (if freed.isEmpty then s.agenda.purge client
          else (s.agenda.purge client).push (.released freed) client)
  | claimed {client claims o}
      (valid : claims.findSome? (claimFault? s.plant.current client) = none)
      (known : s.occupancy.registered client = true)
      (h : (s.occupancy.setClaims client claims).cancelStale client = (none, o)) :
      Turn s (.claim client claims) o s.agenda
  | reclaimed {client claims cancelled o}
      (valid : claims.findSome? (claimFault? s.plant.current client) = none)
      (known : s.occupancy.registered client = true)
      (h : (s.occupancy.setClaims client claims).cancelStale client = (some cancelled, o)) :
      Turn s (.claim client claims) (o.defer client cancelled.request)
        (s.agenda.push (.released cancelled.expanded) client)
  | requested {client request} (nonempty : request.isEmpty = false)
      (known : s.occupancy.registered client = true)
      (head : s.occupancy.claimHead? client = some request) :
      Turn s (.allocate client request) s.occupancy (s.agenda.push (.allocate request) client)
  | released {client resources freed o} (nonempty : resources.isEmpty = false)
      (h : s.occupancy.release s.plant.current client resources = .ok (freed, o)) :
      Turn s (.release client resources) o (s.agenda.push (.released freed) client)
  | rechecked :
      Turn s .preparationChanged s.occupancy (s.agenda.pushAll
        (s.occupancy.reservations.entries.map fun e => (.check e.2.request, e.1)))
  | closed : Turn s .shutdown s.occupancy s.agenda.close
  | woken {first rest freed} (pop : s.agenda.pop? = some (first, rest))
      (task : first.task = .released freed) :
      Turn s .work s.occupancy
        (rest.pushAll (s.occupancy.deferred.keys.map fun client => (.retry, client)))
  | passed {first rest} (pop : s.agenda.pop? = some (first, rest))
      (task : (∃ request, first.task = .check request) ∨
        (first.task = .retry ∧ s.occupancy.deferred.get? first.client = none) ∨
        ∃ request reservation, first.task = .allocate request ∧
          s.occupancy.reservations.get? first.client = some reservation) :
      Turn s .work s.occupancy rest
  | denied {first rest request} (deciding : Deciding s first rest request) :
      Turn s .work (s.occupancy.withoutDeferred first.client) rest
  | deferred {first rest request expanded r} (deciding : Deciding s first rest request)
      (head : s.occupancy.claimHead? first.client = some request)
      (expansion : s.plant.current.expand request = .ok expanded)
      (busy : s.occupancy.availability s.plant.current first.client expanded = .busy r) :
      Turn s .work ((s.occupancy.withoutDeferred first.client).defer first.client request) rest
  | reserved {first rest request expanded} (deciding : Deciding s first rest request)
      (head : s.occupancy.claimHead? first.client = some request)
      (expansion : s.plant.current.expand request = .ok expanded)
      (free : s.occupancy.availability s.plant.current first.client expanded = .available) :
      Turn s .work
        ((s.occupancy.withoutDeferred first.client).reserve first.client { request, expanded })
        (rest.push (.check request) first.client)
  | committed {check : Check} {request o}
      (held : s.occupancy.reservations.get? check.client = some check.reservation)
      (h : s.occupancy.commit check.client = (some (.allocated request), o)) :
      Turn s (.answer true) o s.agenda
  | dropped {check : Check} {reservation o}
      (held : s.occupancy.reservations.get? check.client = some check.reservation)
      (h : s.occupancy.commit check.client = (some (.stale reservation), o)) :
      Turn s (.answer true) o (s.agenda.push (.released reservation.expanded) check.client)

theorem Turn.of_agrees {s t : Scheduler} {a : Action} {o : Occupancy} {agenda : Agenda}
    (turn : Turn s a o agenda) (occupancy : t.occupancy = o) (same : t.agenda = agenda) :
    Turn s a t.occupancy t.agenda := occupancy ▸ same ▸ turn

theorem Turn.idle {s t : Scheduler} (a : Action) (occupancy : t.occupancy = s.occupancy)
    (agenda : t.agenda = s.agenda) : Turn s a t.occupancy t.agenda :=
  (Turn.unchanged a).of_agrees occupancy agenda

theorem turn_unregister (s : Scheduler) (client : ClientId) :
    Turn s (.unregister client) (s.next (.unregister client)).occupancy
      (s.next (.unregister client)).agenda := by
  simp only [next, unregister]
  cases h : s.occupancy.unregister? client with
  | none => exact .unchanged _
  | some result =>
    obtain ⟨freed, o⟩ := result
    apply (Turn.unregistered h).of_agrees
    · simp only [after]
      split <;> rfl
    · simp only [after]
      split <;> rfl

theorem turn_claim (s : Scheduler) (client : ClientId) (claims : List ResourceSet) :
    Turn s (.claim client claims) (s.next (.claim client claims)).occupancy
      (s.next (.claim client claims)).agenda := by
  simp only [next, claim]
  split
  · exact .unchanged _
  · rename_i valid
    split
    · rename_i known
      split
      · rename_i o h
        exact .claimed valid known h
      · rename_i cancelled o h
        exact .reclaimed valid known h
    · exact .unchanged _

theorem turn_allocate (s : Scheduler) (client : ClientId) (request : ResourceSet) :
    Turn s (.allocate client request) (s.next (.allocate client request)).occupancy
      (s.next (.allocate client request)).agenda := by
  simp only [next, allocate]
  split
  · exact .unchanged _
  · rename_i nonempty
    split
    · exact .unchanged _
    · rename_i known
      split
      · exact .unchanged _
      · rename_i head
        exact .requested (by simpa using nonempty) (by simpa using known) (by simpa using head)

theorem turn_release (s : Scheduler) (client : ClientId) (resources : ResourceSet) :
    Turn s (.release client resources) (s.next (.release client resources)).occupancy
      (s.next (.release client resources)).agenda := by
  simp only [next, release]
  split
  · exact .unchanged _
  · rename_i nonempty
    split
    · exact .unchanged _
    · rename_i freed o h
      exact .released (by simpa using nonempty) h

theorem preparationChanged_eq (s : Scheduler) (entries : List (ClientId × Reservation)) :
    (entries.foldl (fun s (client, reservation) =>
        s.push (.check reservation.request) client) s).Agrees
      { s with agenda := s.agenda.pushAll (entries.map fun e => (.check e.2.request, e.1)) } := by
  induction entries generalizing s with
  | nil => exact ⟨rfl, rfl, rfl⟩
  | cons e rest ih => exact ih (s.push (.check e.2.request) e.1)

theorem retryDeferred_eq (s : Scheduler) (clients : List ClientId) :
    (clients.foldl (fun s client => s.push .retry client) s).Agrees
      { s with agenda := s.agenda.pushAll (clients.map fun client => (.retry, client)) } := by
  induction clients generalizing s with
  | nil => exact ⟨rfl, rfl, rfl⟩
  | cons client rest ih => exact ih (s.push .retry client)

inductive Attempted (s : Scheduler) (client : ClientId) (request : ResourceSet) :
    List Notice → Scheduler → Prop
  | unknown (h : s.occupancy.registered client = false) : Attempted s client request [] s
  | denied (known : s.occupancy.registered client = true)
      (why : s.occupancy.claimHead? client ≠ some request ∨
        (∀ expanded, s.plant.current.expand request = .ok expanded →
          ∃ r, s.occupancy.availability s.plant.current client expanded = .locked r)) :
      Attempted s client request [.failed client request] s
  | deferred {expanded r} (head : s.occupancy.claimHead? client = some request)
      (expansion : s.plant.current.expand request = .ok expanded)
      (busy : s.occupancy.availability s.plant.current client expanded = .busy r) :
      Attempted s client request [.deferred client request]
        { s with occupancy := s.occupancy.defer client request }
  | reserved {expanded} (head : s.occupancy.claimHead? client = some request)
      (expansion : s.plant.current.expand request = .ok expanded)
      (free : s.occupancy.availability s.plant.current client expanded = .available) :
      Attempted s client request [.prepare client request]
        ({ s with occupancy := s.occupancy.reserve client { request, expanded } }.push
          (.check request) client)

theorem attempted (s : Scheduler) (client : ClientId) (request : ResourceSet) :
    Attempted s client request (s.attempt client request).1 (s.attempt client request).2 := by
  simp only [attempt]
  split
  · rename_i unknown
    exact .unknown (by simpa using unknown)
  · rename_i known
    have known : s.occupancy.registered client = true := by simpa using known
    split
    · rename_i other
      exact .denied known (.inl other)
    · rename_i head
      have head : s.occupancy.claimHead? client = some request := by simpa using head
      split
      · rename_i failed
        refine .denied known (.inr fun expanded expansion => ?_)
        rw [failed] at expansion
        cases expansion
      · rename_i expanded expansion
        split
        · rename_i r locked
          refine .denied known (.inr fun other expansion' => ?_)
          rw [expansion] at expansion'
          cases expansion'
          exact ⟨r, locked⟩
        · rename_i r busy
          exact .deferred head expansion busy
        · rename_i free
          exact .reserved head expansion free

theorem turn_deciding {s : Scheduler} {first : Command} {rest : Agenda} {request : ResourceSet}
    (deciding : Deciding s first rest request) {notices : List Notice} {t : Scheduler}
    (h : Attempted { s with
        agenda := rest
        occupancy := s.occupancy.withoutDeferred first.client } first.client request notices t) :
    Turn s .work t.occupancy t.agenda := by
  cases h with
  | unknown => exact .denied deciding
  | denied => exact .denied deciding
  | deferred head expansion busy => exact .deferred deciding head expansion busy
  | reserved head expansion free => exact .reserved deciding head expansion free

theorem turn_process {s : Scheduler} {first : Command} {rest : Agenda}
    (pop : s.agenda.pop? = some (first, rest)) :
    Turn s .work (({ s with agenda := rest }).process first).occupancy
      (({ s with agenda := rest }).process first).agenda := by
  unfold process
  split
  · rename_i freed task
    obtain ⟨occupancy, agenda, -⟩ :=
      retryDeferred_eq { s with agenda := rest } s.occupancy.deferred.keys
    exact (Turn.woken pop task).of_agrees occupancy agenda
  · rename_i task
    obtain ⟨occupancy, agenda, -⟩ := deliver_agrees
      ({ s with agenda := rest }.retry first.client).2
      ({ s with agenda := rest }.retry first.client).1
    refine Turn.of_agrees ?_ occupancy agenda
    unfold retry
    split
    · rename_i none
      exact .passed pop (.inr (.inl ⟨task, none⟩))
    · rename_i request waiting
      exact turn_deciding ⟨pop, .inr ⟨task, waiting⟩⟩ (attempted _ _ _)
  · rename_i request task
    obtain ⟨occupancy, agenda, -⟩ := check_agrees { s with agenda := rest } first.client request
    exact (Turn.passed pop (.inl ⟨request, task⟩)).of_agrees occupancy agenda
  · rename_i request task
    obtain ⟨occupancy, agenda, -⟩ := deliver_agrees
      ({ s with agenda := rest }.consider first.client request).2
      ({ s with agenda := rest }.consider first.client request).1
    refine Turn.of_agrees ?_ occupancy agenda
    unfold consider
    split
    · rename_i reservation present
      have turn : Turn s .work s.occupancy rest :=
        .passed pop (.inr (.inr ⟨request, reservation, task, present⟩))
      split <;> exact turn
    · rename_i absent
      exact turn_deciding ⟨pop, .inl ⟨task, absent⟩⟩ (attempted _ _ _)

theorem turn_settle (s : Scheduler) (check : Check) :
    Turn s (.answer true) (s.settle check).occupancy (s.settle check).agenda := by
  unfold settle
  split
  · obtain ⟨occupancy, agenda, -⟩ := await_agrees s .idle
    exact Turn.idle _ occupancy agenda
  · rename_i held
    have held : s.occupancy.reservations.get? check.client = some check.reservation := by
      simpa using held
    split
    · rename_i o h
      obtain ⟨occupancy, agenda, -⟩ := await_agrees { s with occupancy := o } .idle
      have same : o = s.occupancy := by
        simp only [Occupancy.commit] at h
        split at h
        · cases h
        · rename_i o' cancelled
          simp only [Occupancy.cancelStale] at cancelled
          split at cancelled
          · cases cancelled
            rw [held] at h
            cases h
          · cases cancelled
      exact Turn.idle _ (occupancy.trans same) agenda
    · rename_i request o h
      obtain ⟨occupancy, agenda, -⟩ :=
        deliver_agrees { s with occupancy := o } [.allocated check.client request]
      exact (Turn.committed held h).of_agrees occupancy agenda
    · rename_i reservation o h
      obtain ⟨occupancy, agenda, -⟩ := deliver_agrees
        ({ s with occupancy := o }.push (.released reservation.expanded) check.client)
        [.failed check.client reservation.request]
      exact (Turn.dropped held h).of_agrees occupancy agenda

theorem turn_answer (s : Scheduler) (ready : Bool) :
    Turn s (.answer ready) (s.next (.answer ready)).occupancy (s.next (.answer ready)).agenda := by
  have idle : ∀ t : Scheduler, t.Agrees s → Turn s (.answer ready) t.occupancy t.agenda :=
    fun t agrees => Turn.idle _ agrees.1 agrees.2.1
  simp only [next, resume]
  split
  · exact .unchanged _
  · split
    · exact idle _ (inquire_agrees s _ _)
    · exact idle _ (confirm_agrees s _ _)
  · split
    · rename_i yes
      have yes : ready = true := (Bool.and_eq_true_iff.mp yes).2
      subst yes
      exact turn_settle s _
    · exact idle _ (await_agrees s _)
  · split
    · exact idle _ (await_agrees s _)
    · exact idle _ (deliver_agrees s _)
  · exact idle _ (deliver_agrees s _)
  · exact idle _ (deliver_agrees s _)

theorem next_work {s : Scheduler} {first : Command} {rest : Agenda} (idle : s.phase = .idle)
    (pop : s.agenda.pop? = some (first, rest)) :
    s.next .work = { s with agenda := rest }.process first := by
  simp only [next, processNext?, idle, pop, ne_eq, not_true_eq_false, if_false, Option.getD_some]

theorem next_work_of_busy {s : Scheduler} (busy : s.phase ≠ .idle) : s.next .work = s := by
  simp only [next, processNext?, busy, ne_eq, not_false_eq_true, if_true, Option.getD_none]

theorem turn (s : Scheduler) (a : Action) : Turn s a (s.next a).occupancy (s.next a).agenda := by
  cases a with
  | register client handle =>
    simp only [next, register]
    split
    · exact .unchanged _
    · rename_i o h
      exact .registered h
  | unregister client => exact turn_unregister s client
  | claim client claims => exact turn_claim s client claims
  | allocate client request => exact turn_allocate s client request
  | release client resources => exact turn_release s client resources
  | preparationChanged =>
    obtain ⟨occupancy, agenda, -⟩ := preparationChanged_eq s s.occupancy.reservations.entries
    exact Turn.rechecked.of_agrees occupancy agenda
  | addHook hook => exact .unchanged _
  | lock path locked =>
    simp only [next, setLocked]
    split <;> exact .unchanged _
  | replace plant => exact .unchanged _
  | start =>
    simp only [next, start]
    split <;> exact .unchanged _
  | shutdown => exact .closed
  | work =>
    simp only [next, processNext?]
    split
    · exact .unchanged _
    · split
      · exact .unchanged _
      · rename_i first rest pop
        exact turn_process pop
  | answer ready => exact turn_answer s ready

theorem attempt_plant (s : Scheduler) (client : ClientId) (request : ResourceSet) :
    (s.attempt client request).2.plant = s.plant := by
  have h := attempted s client request
  generalize s.attempt client request = result at h
  obtain ⟨notices, t⟩ := result
  cases h <;> rfl

theorem process_plant (s : Scheduler) (first : Command) : (s.process first).plant = s.plant := by
  unfold process
  split
  · exact (retryDeferred_eq s s.occupancy.deferred.keys).2.2
  · apply (deliver_agrees _ _).2.2.trans
    split
    · rfl
    · exact attempt_plant _ _ _
  · exact (check_agrees s first.client _).2.2
  · apply (deliver_agrees _ _).2.2.trans
    split
    · split <;> rfl
    · exact attempt_plant _ _ _

theorem settle_plant (s : Scheduler) (check : Check) : (s.settle check).plant = s.plant := by
  unfold settle
  split
  · exact (await_agrees s .idle).2.2
  · split
    · exact (await_agrees _ .idle).2.2
    · exact (deliver_agrees _ _).2.2
    · exact (deliver_agrees _ _).2.2

theorem resume_plant (s : Scheduler) (ready : Bool) : (s.resume ready).plant = s.plant := by
  unfold resume
  split
  · rfl
  · split
    · exact (inquire_agrees s _ _).2.2
    · exact (confirm_agrees s _ _).2.2
  · split
    · exact settle_plant s _
    · exact (await_agrees s _).2.2
  · split
    · exact (await_agrees s _).2.2
    · exact (deliver_agrees s _).2.2
  · exact (deliver_agrees s _).2.2
  · exact (deliver_agrees s _).2.2

theorem alike_next (s : Scheduler) {a : Action} (lasting : ∀ plant, a ≠ .replace plant) :
    s.plant.current.Alike (s.next a).plant.current := by
  have same : ∀ t : Scheduler, t.plant = s.plant → s.plant.current.Alike t.plant.current :=
    fun t h => h ▸ .refl _
  cases a with
  | replace plant => exact absurd rfl (lasting plant)
  | lock path locked =>
    simp only [next, setLocked]
    split
    · exact .refl _
    · rename_i changed
      exact Plant.alike_setLocked changed
  | register client handle =>
    simp only [next, register]
    split <;> exact .refl _
  | unregister client =>
    simp only [next, unregister]
    split
    · exact .refl _
    · simp only [after]
      split <;> exact .refl _
  | claim client claims =>
    simp only [next, claim]
    split
    · exact .refl _
    · split
      · split <;> exact .refl _
      · exact .refl _
  | allocate client request =>
    simp only [next, allocate]
    split
    · exact .refl _
    · split
      · exact .refl _
      · split <;> exact .refl _
  | release client resources =>
    simp only [next, release]
    split
    · exact .refl _
    · split <;> exact .refl _
  | preparationChanged =>
    exact same _ (preparationChanged_eq s s.occupancy.reservations.entries).2.2
  | addHook hook => exact .refl _
  | start =>
    simp only [next, start]
    split <;> exact .refl _
  | shutdown => exact .refl _
  | work =>
    simp only [next, processNext?]
    split
    · exact .refl _
    · split
      · exact .refl _
      · rename_i first rest pop
        exact same _ (process_plant { s with agenda := rest } first)
  | answer ready => exact same _ (resume_plant s ready)

end Scheduler

end TrafficControl
