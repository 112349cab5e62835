import TrafficControl.Proofs.Allocation.Registry

namespace TrafficControl

namespace Table

variable {κ : Type} [Ord κ] [Std.LawfulEqOrd κ] [Std.TransOrd κ] {α : Type}
variable {t : Table κ α} {k : κ} {v : α}

omit [Std.LawfulEqOrd κ] [Std.TransOrd κ] in
theorem size_erase_le : (t.erase k).size ≤ t.size := List.length_filter_le ..

theorem size_insert_le : (t.insert k v).size ≤ t.size + 1 := by
  obtain ⟨l, _⟩ := t
  simp only [size, insert]
  induction l with
  | nil => exact Nat.le_refl _
  | cons e rest ih =>
    unfold place
    have tail := List.pairwise_cons.mp ‹(e :: rest).Pairwise _›
    split
    · exact Nat.le_refl _
    · exact Nat.le_succ _
    · exact Nat.succ_le_succ (ih tail.2)

theorem size_erase_lt (present : t.get? k = some v) : (t.erase k).size < t.size := by
  refine List.length_filter_lt_length_iff_exists.mpr ⟨(k, v), mem_entries.mpr present, ?_⟩
  simp

end Table

namespace Agenda

def count (a : Agenda) (kind : Task → Bool) : Nat := a.pending.countP fun c => kind c.task

variable {a : Agenda} {kind : Task → Bool} {task : Task}

theorem count_push {client : ClientId} :
    (a.push task client).count kind = a.count kind + if kind task then 1 else 0 := by
  rw [count, push, pushAt, (place_perm _ _).countP_eq, List.countP_cons]
  rfl

theorem count_pushAll (clients : List ClientId) :
    (a.pushAll (clients.map fun client => (task, client))).count kind =
      a.count kind + if kind task then clients.length else 0 := by
  induction clients generalizing a with
  | nil => simp [pushAll]
  | cons client rest ih =>
    have step : a.pushAll ((client :: rest).map fun client => (task, client)) =
        (a.push task client).pushAll (rest.map fun client => (task, client)) := rfl
    rw [step, ih, count_push, List.length_cons]
    split <;> omega

theorem count_pop (kind : Task → Bool) {first : Command} {rest : Agenda}
    (pop : a.pop? = some (first, rest)) :
    a.count kind = rest.count kind + if kind first.task then 1 else 0 := by
  simp only [pop?] at pop
  split at pop
  · cases pop
  · rename_i pending
    cases pop
    rw [count, pending, List.countP_cons]
    rfl

end Agenda

def Task.isReleased : Task → Bool
  | .released _ => true
  | _ => false

def Task.isAllocate : Task → Bool
  | .allocate _ => true
  | _ => false

/-- How many more answers the work on a command can need, if so many hooks are asked or told. -/
def Phase.patience (hooks : Nat) : Phase → Nat
  | .idle => 0
  | .asking _ _ later => later.length + 1 + (hooks + 2)
  | .confirming _ _ _ => hooks + 2
  | .preparing _ _ _ later notices => later.length + 1 + notices.length * (hooks + 1)
  | .granting _ _ _ notices => 1 + notices.length * (hooks + 1)
  | .denying _ _ _ notices => 1 + notices.length * (hooks + 1)

namespace Scheduler

/-- Requests that were not decided on yet, or wait. -/
def seekers (s : Scheduler) : Nat := s.agenda.count Task.isAllocate + s.occupancy.deferred.size

/-- How many commands there can be to work on. Whatever is given up has every request tried again
    that waits by then, and every request comes to be checked at most once. -/
def workload (s : Scheduler) : Nat :=
  s.agenda.count (fun _ => true) + (s.agenda.count Task.isReleased + 1) * s.seekers

/-- Commands are worked on one after the other, those that are added meanwhile too, until there is
    none left. Calls get the answers that `answer` has for them, in view of all that went before. -/
inductive RunsPending (answer : Scheduler → Bool) : Scheduler → List Command → Scheduler → Prop
  | done {s : Scheduler} (idle : s.phase = .idle) (nothing : s.agenda.pop? = none) :
      RunsPending answer s [] s
  | command {s t : Scheduler} {first : Command} {rest : Agenda} {commands : List Command}
      (idle : s.phase = .idle) (pop : s.agenda.pop? = some (first, rest))
      (later : RunsPending answer (s.next .work) commands t) :
      RunsPending answer s (first :: commands) t
  | answered {s t : Scheduler} {commands : List Command} (busy : s.phase ≠ .idle)
      (later : RunsPending answer (s.next (.answer (answer s))) commands t) :
      RunsPending answer s commands t

variable {s t u : Scheduler} {answer : Scheduler → Bool} {commands commands' : List Command}

theorem workload_congr (agrees : t.Agrees s) : t.workload = s.workload := by
  obtain ⟨occupancy, agenda, -⟩ := agrees
  simp only [workload, seekers, occupancy, agenda]

theorem Attempted.workload_le {client : ClientId} {request : ResourceSet} {notices : List Notice}
    (h : Attempted s client request notices t) :
    t.workload ≤ s.workload + (s.agenda.count Task.isReleased + 1) := by
  cases h with
  | unknown | denied => exact Nat.le_add_right ..
  | deferred =>
    have more : (s.occupancy.deferred.insert client request).size ≤
        s.occupancy.deferred.size + 1 := Table.size_insert_le
    have grown := Nat.mul_le_mul_left (s.agenda.count Task.isReleased + 1) more
    simp only [workload, seekers, Occupancy.defer, Nat.mul_add, Nat.mul_one] at grown ⊢
    omega
  | reserved =>
    have fewer : (s.occupancy.deferred.erase client).size ≤ s.occupancy.deferred.size :=
      Table.size_erase_le
    have shrunk := Nat.mul_le_mul_left (s.agenda.count Task.isReleased + 1) fewer
    simp only [workload, seekers, push, Occupancy.reserve, Agenda.count_push, Task.isReleased,
      Task.isAllocate, Nat.mul_add, Bool.false_eq_true, if_true, if_false, Nat.add_zero]
      at shrunk ⊢
    omega

theorem workload_take {first : Command} {rest : Agenda} (pop : s.agenda.pop? = some (first, rest))
    (asked : first.task.isAllocate = true ∨
      ∃ request, s.occupancy.deferred.get? first.client = some request)
    (kind : first.task.isReleased = false) :
    ({ s with
        agenda := rest
        occupancy := s.occupancy.withoutDeferred first.client } : Scheduler).workload +
      (rest.count Task.isReleased + 1) < s.workload := by
  have taken : rest.count Task.isAllocate +
      (s.occupancy.deferred.erase first.client).size + 1 ≤ s.seekers := by
    rw [seekers, Agenda.count_pop _ pop]
    rcases asked with allocate | ⟨request, waits⟩
    · have fewer : (s.occupancy.deferred.erase first.client).size ≤ s.occupancy.deferred.size :=
        Table.size_erase_le
      rw [if_pos allocate]
      omega
    · have fewer := Table.size_erase_lt waits
      omega
  have grown := Nat.mul_le_mul_left (rest.count Task.isReleased + 1) taken
  rw [workload, workload, Agenda.count_pop (fun _ => true) pop,
    Agenda.count_pop Task.isReleased pop, kind]
  simp only [seekers, Occupancy.withoutDeferred, Nat.mul_add, Nat.mul_one, if_true,
    Bool.false_eq_true, if_false, Nat.add_zero] at grown ⊢
  omega

theorem workload_pop {first : Command} {rest : Agenda} (pop : s.agenda.pop? = some (first, rest)) :
    ({ s with agenda := rest } : Scheduler).workload < s.workload := by
  have fewer : ({ s with agenda := rest } : Scheduler).seekers ≤ s.seekers := by
    simp only [seekers]
    rw [Agenda.count_pop _ pop]
    omega
  have releases : rest.count Task.isReleased + 1 ≤ s.agenda.count Task.isReleased + 1 := by
    rw [Agenda.count_pop _ pop]
    omega
  have less := Nat.mul_le_mul releases fewer
  have size := Agenda.count_pop (fun _ => true) pop
  rw [if_pos rfl] at size
  simp only [workload] at less ⊢
  omega

theorem workload_retryDeferred {first : Command} {rest : Agenda}
    (pop : s.agenda.pop? = some (first, rest)) (kind : first.task.isReleased = true) :
    ({ s with agenda := rest } : Scheduler).retryDeferred.workload < s.workload := by
  obtain ⟨occupancy, agenda, -⟩ :=
    retryDeferred_eq { s with agenda := rest } s.occupancy.deferred.keys
  have occupancy : ({ s with agenda := rest } : Scheduler).retryDeferred.occupancy = s.occupancy :=
    occupancy
  have agenda : ({ s with agenda := rest } : Scheduler).retryDeferred.agenda =
      rest.pushAll (s.occupancy.deferred.keys.map fun client => (.retry, client)) := agenda
  have waiting : s.occupancy.deferred.keys.length ≤ s.seekers := by
    rw [seekers, Table.keys, List.length_map, ← Table.size]
    exact Nat.le_add_left ..
  have requests : rest.count Task.isAllocate + s.occupancy.deferred.size ≤ s.seekers := by
    rw [seekers, Agenda.count_pop _ pop]
    omega
  have grown := Nat.mul_le_mul_left (rest.count Task.isReleased + 1) requests
  have size := Agenda.count_pop (fun _ => true) pop
  have releases := Agenda.count_pop Task.isReleased pop
  rw [if_pos rfl] at size
  rw [if_pos kind] at releases
  calc
    _ = rest.count (fun _ => true) + s.occupancy.deferred.keys.length +
        (rest.count Task.isReleased + 1) *
          (rest.count Task.isAllocate + s.occupancy.deferred.size) := by
      simp only [workload, seekers, occupancy, agenda, Agenda.count_pushAll, Task.isReleased,
        Task.isAllocate, Bool.false_eq_true, if_true, if_false, Nat.add_zero]
    _ ≤ rest.count (fun _ => true) + s.seekers + (rest.count Task.isReleased + 1) * s.seekers := by
      omega
    _ < s.workload := by
      rw [workload, size, releases, Nat.add_mul (rest.count Task.isReleased + 1), Nat.one_mul]
      omega

theorem workload_decide {first : Command} {rest : Agenda} (pop : s.agenda.pop? = some (first, rest))
    (asked : first.task.isAllocate = true ∨
      ∃ request, s.occupancy.deferred.get? first.client = some request)
    (kind : first.task.isReleased = false) (request : ResourceSet) :
    (({ s with
        agenda := rest
        occupancy := s.occupancy.withoutDeferred first.client } : Scheduler).attempt first.client
          request).2.workload < s.workload :=
  Nat.lt_of_le_of_lt (attempted _ _ _).workload_le (workload_take pop asked kind)

theorem workload_process {first : Command} {rest : Agenda}
    (pop : s.agenda.pop? = some (first, rest)) :
    (({ s with agenda := rest } : Scheduler).process first).workload < s.workload := by
  unfold process
  split
  · rename_i task
    exact workload_retryDeferred pop (task ▸ rfl)
  · rename_i task
    rw [workload_congr (deliver_agrees _ _)]
    unfold retry
    split
    · exact workload_pop pop
    · rename_i request waits
      exact workload_decide pop (.inr ⟨request, waits⟩) (task ▸ rfl) request
  · rw [workload_congr (check_agrees _ _ _)]
    exact workload_pop pop
  · rename_i request task
    rw [workload_congr (deliver_agrees _ _)]
    unfold consider
    split
    · split <;> exact workload_pop pop
    · exact workload_decide pop (.inl (task ▸ rfl)) (task ▸ rfl) request

theorem workload_work {first : Command} {rest : Agenda} (idle : s.phase = .idle)
    (pop : s.agenda.pop? = some (first, rest)) : (s.next .work).workload < s.workload := by
  rw [next_work idle pop]
  exact workload_process pop

theorem workload_answer (heads : s.occupancy.ReservesHeads) (ready : Bool) :
    (s.next (.answer ready)).workload = s.workload := by
  have turn := s.turn (.answer ready)
  simp only [workload, seekers]
  generalize (s.next (.answer ready)).occupancy = o, (s.next (.answer ready)).agenda = agenda at turn
  cases turn with
  | unchanged => rfl
  | committed _ h =>
    obtain ⟨_, -, -, -, rfl⟩ := Occupancy.commit_allocated h
    rfl
  | dropped _ h => exact absurd h heads.commit_ne_stale

def GoesOn (s : Scheduler) (answers : Nat) (t : Scheduler) : Prop :=
  t.hooks = s.hooks ∧ t.phase.patience s.hooks.length ≤ answers

variable {m n : Nat}

theorem GoesOn.mono (h : s.GoesOn m t) (few : m ≤ n) : s.GoesOn n t := ⟨h.1, h.2.trans few⟩

theorem goesOn_await {phase : Phase} (hooks : t.hooks = s.hooks)
    (few : phase.patience s.hooks.length ≤ n) : s.GoesOn n (t.await phase) := by
  refine ⟨Eq.trans ?_ hooks, by rwa [await_phase]⟩
  unfold await
  split <;> rfl

theorem goesOn_deliver (notices : List Notice) :
    s.GoesOn (notices.length * (s.hooks.length + 1)) (s.deliver notices) := by
  induction notices generalizing s with
  | nil => exact goesOn_await rfl (Nat.zero_le _)
  | cons notice rest ih =>
    have fewer : rest.length * (s.hooks.length + 1) ≤ (rest.length + 1) * (s.hooks.length + 1) :=
      Nat.mul_le_mul_right _ (Nat.le_succ _)
    have called : 1 + rest.length * (s.hooks.length + 1) ≤
        (rest.length + 1) * (s.hooks.length + 1) := by
      rw [Nat.succ_mul]
      omega
    rw [List.length_cons]
    cases notice with
    | deferred client request => exact (ih (s := s.tell _)).mono fewer
    | prepare client request =>
      simp only [deliver]
      split
      · rename_i hook later hooks
        refine goesOn_await rfl ?_
        rw [Phase.patience, hooks, List.length_cons, Nat.succ_mul]
        omega
      · exact ih.mono fewer
    | allocated client request =>
      simp only [deliver]
      split
      · exact goesOn_await rfl called
      · exact (ih (s := s.tell _)).mono fewer
    | failed client request =>
      simp only [deliver]
      split
      · exact goesOn_await rfl called
      · exact (ih (s := s.tell _)).mono fewer

theorem goesOn_confirm (check : Check) (ready : Bool) :
    s.GoesOn (s.hooks.length + 2) (s.confirm check ready) := by
  unfold confirm
  split
  · exact goesOn_await rfl (Nat.le_refl _)
  · exact goesOn_await rfl (Nat.zero_le _)

theorem goesOn_inquire (check : Check) (hooks : List HookId) :
    s.GoesOn (hooks.length + (s.hooks.length + 2)) (s.inquire check hooks) := by
  cases hooks with
  | nil => exact (goesOn_confirm check true).mono (Nat.le_add_left ..)
  | cons => exact goesOn_await rfl (Nat.le_refl _)

theorem goesOn_settle (check : Check) : s.GoesOn (s.hooks.length + 1) (s.settle check) := by
  have told : ∀ {t : Scheduler} (notice : Notice), t.hooks = s.hooks →
      s.GoesOn (s.hooks.length + 1) (t.deliver [notice]) := by
    intro t notice hooks
    have delivered := goesOn_deliver (s := t) [notice]
    simp only [GoesOn, hooks, List.length_singleton, Nat.one_mul] at delivered
    exact delivered
  unfold settle
  split
  · exact goesOn_await rfl (Nat.zero_le _)
  · split
    · exact goesOn_await rfl (Nat.zero_le _)
    · exact told _ rfl
    · exact told _ rfl

theorem goesOn_resume (busy : s.phase ≠ .idle) (ready : Bool) :
    s.GoesOn (s.phase.patience s.hooks.length - 1) (s.resume ready) := by
  unfold resume
  split
  · rename_i idle
    exact absurd idle busy
  · rename_i check hook later phase
    rw [phase, Phase.patience]
    split
    · exact (goesOn_inquire check later).mono (by omega)
    · exact (goesOn_confirm check false).mono (by omega)
  · rename_i check handle hooksReady phase
    rw [phase, Phase.patience]
    split
    · exact goesOn_settle check
    · exact goesOn_await rfl (Nat.zero_le _)
  · rename_i client request hook later notices phase
    rw [phase, Phase.patience]
    split
    · refine goesOn_await rfl ?_
      rw [Phase.patience, List.length_cons]
      omega
    · exact (goesOn_deliver notices).mono (by rw [List.length_nil]; omega)
  · rename_i client handle request notices phase
    rw [phase, Phase.patience, Nat.add_sub_cancel_left]
    exact goesOn_deliver notices
  · rename_i client handle request notices phase
    rw [phase, Phase.patience, Nat.add_sub_cancel_left]
    exact goesOn_deliver notices

theorem patience_answer (busy : s.phase ≠ .idle) (ready : Bool) :
    (s.next (.answer ready)).phase.patience (s.next (.answer ready)).hooks.length <
      s.phase.patience s.hooks.length := by
  have positive : 0 < s.phase.patience s.hooks.length := by
    cases h : s.phase with
    | idle => exact absurd h busy
    | _ => simp only [Phase.patience]; omega
  obtain ⟨hooks, few⟩ := goesOn_resume busy ready
  simp only [next, hooks]
  omega

/-- Every command lowers the workload, and between commands every answer the patience. -/
theorem Orderly.runsPending {s : Scheduler} (orderly : s.Orderly) (answer : Scheduler → Bool) :
    ∃ commands t, s.RunsPending answer commands t ∧ commands.length ≤ s.workload := by
  by_cases idle : s.phase = .idle
  · cases pop : s.agenda.pop? with
    | none => exact ⟨[], s, .done idle pop, Nat.zero_le _⟩
    | some taken =>
      obtain ⟨first, rest⟩ := taken
      have less := workload_work idle pop
      obtain ⟨commands, t, runs, few⟩ := (orderly.next .work).runsPending answer
      exact ⟨first :: commands, t, .command idle pop runs, Nat.lt_of_le_of_lt few less⟩
  · have same := workload_answer orderly.heads (answer s)
    have less := patience_answer idle (answer s)
    obtain ⟨commands, t, runs, few⟩ := (orderly.next (.answer (answer s))).runsPending answer
    exact ⟨commands, t, .answered idle runs, same ▸ few⟩
termination_by (s.workload, s.phase.patience s.hooks.length)
decreasing_by
  · exact Prod.Lex.left _ _ less
  · exact Prod.Lex.right' _ (Nat.le_of_eq same) less

theorem RunsPending.unique (h : s.RunsPending answer commands t)
    (h' : s.RunsPending answer commands' u) : commands' = commands ∧ u = t := by
  induction h generalizing commands' with
  | done idle nothing =>
    cases h' with
    | done => exact ⟨rfl, rfl⟩
    | command _ pop => cases nothing.symm.trans pop
    | answered busy => exact absurd idle busy
  | command idle pop _ ih =>
    cases h' with
    | done _ nothing => cases nothing.symm.trans pop
    | command _ pop' later =>
      cases pop.symm.trans pop'
      obtain ⟨rfl, rfl⟩ := ih later
      exact ⟨rfl, rfl⟩
    | answered busy => exact absurd idle busy
  | answered busy _ ih =>
    cases h' with
    | done idle => exact absurd idle busy
    | command idle => exact absurd idle busy
    | answered _ later => exact ih later

theorem RunsPending.induction {P : Scheduler → Prop} (h : s.RunsPending answer commands t)
    (work : ∀ s, P s → P (s.next .work)) (answered : ∀ s, P s → P (s.next (.answer (answer s))))
    (start : P s) : P t ∧ t.phase = .idle ∧ t.agenda.isEmpty = true := by
  induction h with
  | @done s idle nothing =>
    refine ⟨start, idle, ?_⟩
    simp only [Agenda.pop?] at nothing
    split at nothing
    · rename_i none
      exact List.isEmpty_iff.mpr none
    · cases nothing
  | command _ _ _ ih => exact ih (work _ start)
  | answered _ _ ih => exact ih (answered _ start)

theorem Deciding.not_check {first : Command} {rest : Agenda} {request other : ResourceSet}
    (deciding : Deciding s first rest request) : first.task ≠ .check other := by
  rcases deciding.asked with ⟨task, -⟩ | ⟨task, -⟩ <;> simp [task]

inductive Settles (client : ClientId) (reservation : Reservation) : Phase → Prop
  | asking (handle : Handle) (hook : HookId) (later : List HookId) :
      Settles client reservation (.asking ⟨client, reservation, some handle⟩ hook later)
  | confirming (handle handle' : Handle) :
      Settles client reservation (.confirming ⟨client, reservation, some handle⟩ handle' true)

/-- Every reservation will be checked, or is being checked. -/
def Attended (s : Scheduler) : Prop :=
  ∀ client reservation, s.occupancy.reservations.get? client = some reservation →
    s.agenda.Has (.check reservation.request) client ∨ Settles client reservation s.phase

variable {client : ClientId} {reservation : Reservation}

theorem settles_inquire (handle : Handle) (hooks : List HookId) :
    Settles client reservation (s.inquire ⟨client, reservation, some handle⟩ hooks).phase := by
  cases hooks with
  | nil =>
    rw [inquire, confirm, await_phase]
    exact .confirming handle handle
  | cons hook later =>
    rw [inquire, await_phase]
    exact .asking handle hook later

theorem settles_work {first : Command} {rest : Agenda} (orderly : s.Orderly)
    (idle : s.phase = .idle) (pop : s.agenda.pop? = some (first, rest))
    (task : first.task = .check reservation.request)
    (present : s.occupancy.reservations.get? first.client = some reservation) :
    Settles first.client reservation (s.next .work).phase := by
  obtain ⟨handle, known⟩ := Table.contains_iff.mp
    ((orderly.handles first.client).trans (orderly.heads.registered present))
  simp only [next, processNext?, idle, pop, ne_eq, not_true_eq_false, if_false, Option.getD_some,
    process, task, check, present, if_true, known]
  exact settles_inquire handle _

theorem attended_work (orderly : s.Orderly) (attended : s.Attended) : (s.next .work).Attended := by
  intro client reservation present
  by_cases busy : s.phase = .idle
  swap
  · rw [next_work_of_busy busy] at present ⊢
    exact attended client reservation present
  -- outside of calls, only commands can attend to a reservation
  have waits : ∀ {c r}, s.occupancy.reservations.get? c = some r →
      s.agenda.Has (.check r.request) c := by
    intro c r held
    rcases attended c r held with has | settles
    · exact has
    · rw [busy] at settles
      cases settles
  have left : ∀ {first rest} {c r}, s.agenda.pop? = some (first, rest) →
      s.occupancy.reservations.get? c = some r →
        first.task = .check r.request ∧ first.client = c ∨ rest.Has (.check r.request) c :=
    fun pop held => (Agenda.has_pop pop).mp (waits held)
  have turn := s.turn .work
  generalize made : (s.next .work).occupancy = o, put : (s.next .work).agenda = agenda at turn present ⊢
  cases turn with
  | unchanged => exact .inl (waits present)
  | woken pop task =>
    rcases left pop present with ⟨other, -⟩ | has
    · cases task.symm.trans other
    · exact .inl (Agenda.has_pushAll.mpr (.inr has))
  | passed pop =>
    rcases left pop present with ⟨task, rfl⟩ | has
    · exact .inr (settles_work orderly busy pop task present)
    · exact .inl has
  | denied deciding =>
    rcases left deciding.pop present with ⟨task, -⟩ | has
    · exact absurd task deciding.not_check
    · exact .inl has
  | deferred deciding =>
    rcases left deciding.pop present with ⟨task, -⟩ | has
    · exact absurd task deciding.not_check
    · exact .inl has
  | @reserved first rest request expanded deciding =>
    by_cases mine : client = first.client
    · subst mine
      cases Table.get?_insert_self.symm.trans present
      exact .inl Agenda.has_push_self
    · rcases left deciding.pop ((Table.get?_insert_of_ne mine).symm.trans present) with
        ⟨task, -⟩ | has
      · exact absurd task deciding.not_check
      · exact .inl (has.push _ _)

theorem settle_takes (heads : s.occupancy.ReservesHeads) (check : Check)
    (present : s.occupancy.reservations.get? check.client = some check.reservation) :
    (s.settle check).occupancy.reservations.get? check.client = none := by
  unfold settle
  rw [if_neg (not_not.mpr present)]
  split
  · rename_i o h
    simp only [Occupancy.commit] at h
    split at h
    · cases h
    · rename_i o' cancelled
      obtain ⟨rfl, -⟩ := Occupancy.cancelStale_none cancelled
      rw [present] at h
      cases h
  · rename_i request o h
    obtain ⟨occupancy, -⟩ := deliver_agrees { s with occupancy := o }
      [.allocated check.client request]
    obtain ⟨_, -, -, -, rfl⟩ := Occupancy.commit_allocated h
    rw [occupancy]
    exact Table.get?_erase_self
  · rename_i reservation o h
    exact absurd h heads.commit_ne_stale

theorem attended_answer (orderly : s.Orderly) (attended : s.Attended) :
    (s.next (.answer true)).Attended := by
  intro client reservation present
  have kept : s.occupancy.reservations.get? client = some reservation ∧
      (s.next (.answer true)).agenda = s.agenda := by
    have turn := s.turn (.answer true)
    generalize (s.next (.answer true)).occupancy = o, (s.next (.answer true)).agenda = agenda
      at turn present ⊢
    cases turn with
    | unchanged => exact ⟨present, rfl⟩
    | @committed check request o held h =>
      obtain ⟨_, -, -, -, rfl⟩ := Occupancy.commit_allocated h
      refine ⟨?_, rfl⟩
      rw [Table.get?_erase] at present
      split at present
      · cases present
      · exact present
    | dropped _ h => exact absurd h orderly.heads.commit_ne_stale
  obtain ⟨held, agenda⟩ := kept
  rcases attended client reservation held with has | settles
  · exact .inl (agenda ▸ has)
  · refine .inr ?_
    cases phase : s.phase with
    | asking check hook later =>
      rw [phase] at settles
      cases settles with
      | asking handle =>
        simp only [next, resume, phase, if_true]
        exact settles_inquire handle later
    | confirming check handle hooksReady =>
      rw [phase] at settles
      cases settles with
      | confirming handle handle' =>
        simp only [next, resume, phase, Bool.and_self, if_true] at present
        cases (settle_takes orderly.heads _ held).symm.trans present
    | _ =>
      rw [phase] at settles
      cases settles

theorem attended_preparationChanged (s : Scheduler) : s.preparationChanged.Attended := by
  intro client reservation present
  obtain ⟨occupancy, agenda, -⟩ := preparationChanged_eq s s.occupancy.reservations.entries
  rw [preparationChanged, occupancy] at present
  refine .inl ?_
  rw [preparationChanged, agenda]
  refine Agenda.has_pushAll.mpr (.inl (List.mem_map.mpr ⟨(client, reservation), ?_, rfl⟩))
  exact Table.mem_entries.mpr present

/-- Whatever hooks and clients answer, the work on commands comes to an end, with none left: there
    is one way to go on, and so many commands at most. If everybody is ready from the moment on
    that a change is announced, nothing is left reserved. -/
theorem runsPending_ends (plant : PlantVersions) (clock : Clock) (actions : List Action) :
    let s := (ofPlant plant clock).run actions
    (∀ answer : Scheduler → Bool, ∃ commands t, s.RunsPending answer commands t ∧
        (∀ commands' t', s.RunsPending answer commands' t' → commands' = commands ∧ t' = t) ∧
        commands.length ≤ s.workload ∧ t.phase = .idle ∧ t.agenda.isEmpty = true) ∧
      ∃ commands t, s.preparationChanged.RunsPending (fun _ => true) commands t ∧
        t.phase = .idle ∧ t.agenda.isEmpty = true ∧ t.occupancy.reservations = ∅ := by
  intro s
  have orderly : s.Orderly := (orderly_ofPlant plant clock).run actions
  refine ⟨fun answer => ?_, ?_⟩
  · obtain ⟨commands, t, runs, few⟩ := orderly.runsPending answer
    obtain ⟨-, idle, empty⟩ := runs.induction (P := fun _ => True) (fun _ _ => trivial)
      (fun _ _ => trivial) trivial
    exact ⟨commands, t, runs, fun _ _ other => runs.unique other, few, idle, empty⟩
  · have announced : s.preparationChanged.Orderly := orderly.next .preparationChanged
    obtain ⟨commands, t, runs, -⟩ := announced.runsPending fun _ => true
    obtain ⟨⟨-, attended⟩, idle, empty⟩ :=
      runs.induction (P := fun s => s.Orderly ∧ s.Attended)
        (fun _ h => ⟨h.1.next .work, attended_work h.1 h.2⟩)
        (fun _ h => ⟨h.1.next (.answer true), attended_answer h.1 h.2⟩)
        ⟨announced, attended_preparationChanged s⟩
    refine ⟨commands, t, runs, idle, empty, Table.ext fun client => ?_⟩
    cases present : t.occupancy.reservations.get? client with
    | none => rfl
    | some reservation =>
      rcases attended client reservation present with has | settles
      · exact absurd has (Agenda.not_has_of_isEmpty empty)
      · rw [idle] at settles
        cases settles

end Scheduler

end TrafficControl
