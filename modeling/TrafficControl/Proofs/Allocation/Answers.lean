import TrafficControl.Proofs.Allocation.Signals

namespace TrafficControl

inductive Answer where
  | granted (request : ResourceSet)
  | denied (request : ResourceSet)
deriving DecidableEq

namespace Answer

def request : Answer → ResourceSet
  | granted request => request
  | denied request => request

def granted? : Answer → Option ResourceSet
  | granted request => some request
  | denied _ => none

end Answer

def Call.answer? (client : ClientId) : Call → Option Answer
  | .granted _ c request => if c = client then some (.granted request) else none
  | .denied _ c request => if c = client then some (.denied request) else none
  | _ => none

def Signal.answer? (client : ClientId) : Signal → Option Answer
  | .called call => call.answer? client
  | .told _ => none

def Notice.answer? (client : ClientId) : Notice → Option Answer
  | .allocated c request => if c = client then some (.granted request) else none
  | .failed c request => if c = client then some (.denied request) else none
  | _ => none

def Phase.notices : Phase → List Notice
  | .preparing _ _ _ _ notices => notices
  | .granting _ _ _ notices => notices
  | .denying _ _ _ notices => notices
  | _ => []

namespace Scheduler

def answers (s : Scheduler) (client : ClientId) : List Answer :=
  s.journal.filterMap (Signal.answer? client)

def owed (s : Scheduler) (client : ClientId) : List Answer :=
  s.phase.notices.filterMap (Notice.answer? client)

def verdicts (s : Scheduler) (client : ClientId) : List Answer := s.answers client ++ s.owed client

structure Continues (s t : Scheduler) : Prop where
  clients : t.clients = s.clients
  worker : t.worker = s.worker
  journal : s.journal <+: t.journal

variable {s t u : Scheduler} {c : ClientId} {phase : Phase}

theorem Continues.refl (s : Scheduler) : Continues s s := ⟨rfl, rfl, List.prefix_rfl⟩

theorem Continues.rearrange (occupancy : Occupancy) (agenda : Agenda) :
    Continues s { s with occupancy, agenda } := ⟨rfl, rfl, List.prefix_rfl⟩

theorem Continues.trans (first : Continues s t) (second : Continues t u) : Continues s u :=
  ⟨second.clients.trans first.clients, second.worker.trans first.worker,
    first.journal.trans second.journal⟩

theorem answers_await :
    (s.await phase).answers c = s.answers c ++ (phase.call?.bind (Call.answer? c)).toList := by
  rw [answers, await_journal, List.filterMap_append]
  cases phase.call? with
  | none => rfl
  | some call => cases h : call.answer? c <;> simp [answers, Signal.answer?, h]

theorem answers_tell (event : Event) : (s.tell event).answers c = s.answers c := by
  simp [answers, tell, emit, Signal.answer?]

theorem await_continues : Continues s (s.await phase) := by
  refine ⟨?_, ?_, ?_⟩
  · unfold await
    split <;> rfl
  · unfold await
    split <;> rfl
  · rw [await_journal]
    exact List.prefix_append _ _

theorem tell_continues (event : Event) : Continues s (s.tell event) :=
  ⟨rfl, rfl, List.prefix_append _ _⟩

theorem deliver_continues (notices : List Notice) : Continues s (s.deliver notices) := by
  induction notices generalizing s with
  | nil => exact await_continues
  | cons n rest ih =>
    cases n with
    | deferred client request => exact (tell_continues _).trans ih
    | prepare client request =>
      simp only [deliver]
      split
      · exact await_continues
      · exact ih
    | allocated client request =>
      simp only [deliver]
      split
      · exact (tell_continues _).trans await_continues
      · exact (tell_continues _).trans ih
    | failed client request =>
      simp only [deliver]
      split
      · exact (tell_continues _).trans await_continues
      · exact (tell_continues _).trans ih

theorem verdicts_await : (s.await phase).verdicts c = s.answers c ++
    ((phase.call?.bind (Call.answer? c)).toList ++
      phase.notices.filterMap (Notice.answer? c)) := by
  rw [verdicts, answers_await, owed, await_phase, List.append_assoc]

theorem answers_cons (n : Notice) (rest : List Notice) :
    (n :: rest).filterMap (Notice.answer? c) =
      (n.answer? c).toList ++ rest.filterMap (Notice.answer? c) := by
  rw [List.filterMap_cons]
  cases n.answer? c <;> rfl

/-- A client that can be called is given all answers that there are for it, now or later. -/
theorem verdicts_deliver (known : ∃ handle, s.clients.get? c = some handle)
    (notices : List Notice) :
    (s.deliver notices).verdicts c = s.answers c ++ notices.filterMap (Notice.answer? c) := by
  induction notices generalizing s with
  | nil => exact verdicts_await
  | cons n rest ih =>
    -- a client that cannot be called is another one
    have other : ∀ client, s.clients.get? client = none → ¬ client = c := by
      intro client absent same
      obtain ⟨handle, known⟩ := known
      rw [same, known] at absent
      cases absent
    rw [answers_cons]
    cases n with
    | deferred client request =>
      rw [deliver, ih (s := s.tell (.deferred client request)) known, answers_tell]
      rfl
    | prepare client request =>
      simp only [deliver]
      split
      · exact verdicts_await
      · exact ih known
    | allocated client request =>
      simp only [deliver]
      split
      · exact verdicts_await.trans (by rw [answers_tell]; rfl)
      · rename_i absent
        rw [ih (s := s.tell (.allocated client request)) known, answers_tell, Notice.answer?,
          if_neg (other client absent)]
        rfl
    | failed client request =>
      simp only [deliver]
      split
      · exact verdicts_await.trans (by rw [answers_tell]; rfl)
      · rename_i absent
        rw [ih (s := s.tell (.failed client request)) known, answers_tell, Notice.answer?,
          if_neg (other client absent)]
        rfl

theorem confirm_continues (check : Check) (ready : Bool) : Continues s (s.confirm check ready) := by
  unfold confirm
  split <;> exact await_continues

theorem inquire_continues (check : Check) (hooks : List HookId) :
    Continues s (s.inquire check hooks) := by
  cases hooks with
  | nil => exact confirm_continues check true
  | cons hook later =>
    have asked : Continues s (s.await (.asking check hook later)) := await_continues
    exact asked

theorem verdicts_confirm (check : Check) (ready : Bool) :
    (s.confirm check ready).verdicts c = s.answers c := by
  unfold confirm
  split <;> exact verdicts_await.trans (List.append_nil _)

theorem verdicts_inquire (check : Check) (hooks : List HookId) :
    (s.inquire check hooks).verdicts c = s.answers c := by
  cases hooks with
  | nil => exact verdicts_confirm check true
  | cons => exact verdicts_await.trans (List.append_nil _)

theorem verdicts_of_notices (none : s.phase.notices = []) : s.verdicts c = s.answers c := by
  rw [verdicts, owed, none]
  exact List.append_nil _

theorem verdicts_of_idle (idle : s.phase = .idle) : s.verdicts c = s.answers c :=
  verdicts_of_notices (idle ▸ rfl)

theorem check_continues (client : ClientId) (request : ResourceSet) :
    Continues s (s.check client request) := by
  unfold Scheduler.check
  split
  · exact .refl s
  · split
    · exact inquire_continues _ _
    · exact .refl s

theorem verdicts_check (idle : s.phase = .idle) (client : ClientId) (request : ResourceSet) :
    (s.check client request).verdicts c = s.answers c := by
  unfold Scheduler.check
  split
  · exact verdicts_of_idle idle
  · split
    · exact verdicts_inquire _ _
    · exact verdicts_of_idle idle

theorem verdicts_quiet {a : Action} (quiet : a.quiet = true) :
    (s.next a).verdicts c = s.verdicts c := by
  obtain ⟨phase, said, journal, told⟩ := quiet_next (s := s) quiet
  have none : said.filterMap (Signal.answer? c) = [] := by
    rw [List.filterMap_eq_nil_iff]
    intro signal member
    cases told signal member <;> rfl
  rw [verdicts, verdicts, answers, answers, owed, owed, phase, journal, List.filterMap_append, none,
    List.append_nil]

theorem attempt_continues (client : ClientId) (request : ResourceSet) :
    Continues s (s.attempt client request).2 := by
  have h := attempted s client request
  generalize s.attempt client request = result at h
  obtain ⟨notices, t⟩ := result
  cases h <;> exact ⟨rfl, rfl, List.prefix_rfl⟩

theorem retry_continues (client : ClientId) : Continues s (s.retry client).2 := by
  unfold retry
  split
  · exact .refl s
  · exact (Continues.rearrange _ s.agenda).trans (attempt_continues client _)

theorem consider_continues (client : ClientId) (request : ResourceSet) :
    Continues s (s.consider client request).2 := by
  unfold consider
  split
  · split <;> exact .refl s
  · exact (Continues.rearrange (s.occupancy.withoutDeferred client) s.agenda).trans
      (attempt_continues client request)

theorem process_continues (first : Command) : Continues s (s.process first) := by
  unfold process
  split
  · obtain ⟨agenda, woken⟩ := retryDeferred_push s
    rw [woken]
    exact ⟨rfl, rfl, List.prefix_rfl⟩
  · exact (retry_continues _).trans (deliver_continues _)
  · exact check_continues _ _
  · exact (consider_continues _ _).trans (deliver_continues _)

theorem settle_continues (check : Check) : Continues s (s.settle check) := by
  unfold settle
  split
  · exact await_continues
  · split
    · exact (Continues.rearrange _ s.agenda).trans await_continues
    · exact (Continues.rearrange _ s.agenda).trans (deliver_continues _)
    · exact (Continues.rearrange _ _).trans (deliver_continues _)

theorem resume_continues (ready : Bool) : Continues s (s.resume ready) := by
  unfold resume
  split
  · exact .refl s
  · split
    · exact inquire_continues _ _
    · exact confirm_continues _ _
  · split
    · exact settle_continues _
    · exact await_continues
  · split
    · exact await_continues
    · exact deliver_continues _
  · exact deliver_continues _
  · exact deliver_continues _

theorem work_continues : Continues s (s.next .work) := by
  simp only [next, processNext?]
  split
  · exact .refl s
  · split
    · exact .refl s
    · exact (Continues.rearrange s.occupancy _).trans (process_continues _)

theorem journal_next (a : Action) : s.journal <+: (s.next a).journal := by
  cases quiet : a.quiet with
  | true =>
    obtain ⟨-, said, journal, -⟩ := quiet_next (s := s) quiet
    exact ⟨said, journal.symm⟩
  | false =>
    cases a with
    | work => exact work_continues.journal
    | answer ready => exact (resume_continues ready).journal
    | _ => cases quiet

theorem journal_run (actions : List Action) : s.journal <+: (s.run actions).journal :=
  run_invariant (P := fun t => s.journal <+: t.journal) (fun _ a said => said.trans (journal_next a))
    List.prefix_rfl actions

/-- At most one thing is left, and it is no grant. -/
def Residual (notices : List Notice) : Prop :=
  notices.length ≤ 1 ∧ ∀ client request, Notice.allocated client request ∉ notices

theorem residual_nil : Residual [] := ⟨Nat.zero_le 1, fun _ _ => List.not_mem_nil⟩

theorem Residual.suffix {more fewer : List Notice} (residual : Residual more)
    (suffix : fewer <:+ more) : Residual fewer :=
  ⟨Nat.le_trans suffix.length_le residual.1, fun client request member =>
    residual.2 client request (suffix.subset member)⟩

theorem notices_deliver (notices : List Notice) :
    (s.deliver notices).phase.notices <:+ notices.tail := by
  have later : ∀ (t : Scheduler) (rest : List Notice),
      (t.deliver rest).phase.notices <:+ rest.tail → (t.deliver rest).phase.notices <:+ rest :=
    fun t rest h => h.trans (List.tail_suffix rest)
  induction notices generalizing s with
  | nil => exact List.suffix_rfl
  | cons n rest ih =>
    cases n with
    | deferred client request => exact later _ rest ih
    | prepare client request =>
      simp only [deliver]
      split
      · rw [await_phase]
        exact List.suffix_rfl
      · exact later _ rest ih
    | allocated client request =>
      simp only [deliver]
      split
      · rw [await_phase]
        exact List.suffix_rfl
      · exact later _ rest ih
    | failed client request =>
      simp only [deliver]
      split
      · rw [await_phase]
        exact List.suffix_rfl
      · exact later _ rest ih

theorem Residual.deliver {notices : List Notice} (residual : Residual notices.tail) :
    Residual (s.deliver notices).phase.notices := residual.suffix (notices_deliver notices)

theorem attempt_notices (client : ClientId) (request : ResourceSet) :
    Residual (s.attempt client request).1 := by
  have h := attempted s client request
  generalize s.attempt client request = result at h
  obtain ⟨notices, t⟩ := result
  cases h <;> simp [Residual]

theorem retry_notices (client : ClientId) : Residual (s.retry client).1.tail := by
  unfold retry
  split
  · exact residual_nil
  · exact (attempt_notices _ _).suffix (List.tail_suffix _)

theorem consider_notices (client : ClientId) (request : ResourceSet) :
    Residual (s.consider client request).1.tail := by
  unfold consider
  split
  · split <;> exact residual_nil
  · have residual := attempt_notices
      (s := { s with occupancy := s.occupancy.withoutDeferred client }) client request
    dsimp only
    -- the failure of a superseded request is made known first, so what is left is the attempt's
    cases (s.occupancy.deferred.get? client).filter (· ≠ request) with
    | none => exact residual.suffix (List.tail_suffix _)
    | some other => exact residual

theorem notices_confirm (check : Check) (ready : Bool) :
    (s.confirm check ready).phase.notices = [] := by
  unfold confirm
  split <;> (rw [await_phase]; rfl)

theorem notices_inquire (check : Check) (hooks : List HookId) :
    (s.inquire check hooks).phase.notices = [] := by
  cases hooks with
  | nil => exact notices_confirm check true
  | cons hook later =>
    rw [inquire, await_phase]
    rfl

theorem residual_process (idle : s.phase = .idle) (first : Command) :
    Residual (s.process first).phase.notices := by
  have none : Residual s.phase.notices := idle ▸ residual_nil
  unfold process
  split
  · obtain ⟨agenda, woken⟩ := retryDeferred_push s
    rw [woken]
    exact none
  · exact (retry_notices _).deliver
  · unfold Scheduler.check
    split
    · exact none
    · split
      · exact (notices_inquire _ _).symm ▸ residual_nil
      · exact none
  · exact (consider_notices _ _).deliver

theorem residual_settle (check : Check) : Residual (s.settle check).phase.notices := by
  have alone : ∀ n : Notice, Residual [n].tail := fun _ => residual_nil
  unfold settle
  split
  · rw [await_phase]
    exact residual_nil
  · split
    · rw [await_phase]
      exact residual_nil
    · exact (alone _).deliver
    · exact (alone _).deliver

theorem residual_resume (residual : Residual s.phase.notices) (ready : Bool) :
    Residual (s.resume ready).phase.notices := by
  have deliver : ∀ notices, s.phase.notices = notices →
      Residual (s.deliver notices).phase.notices :=
    fun notices same => (residual.suffix (same ▸ List.tail_suffix _)).deliver
  unfold resume
  split
  · exact residual
  · split
    · exact (notices_inquire _ _).symm ▸ residual_nil
    · exact (notices_confirm _ _).symm ▸ residual_nil
  · split
    · exact residual_settle _
    · rw [await_phase]
      exact residual_nil
  · rename_i phase
    split
    · rw [await_phase]
      rwa [phase] at residual
    · exact deliver _ (phase ▸ rfl)
  · rename_i phase
    exact deliver _ (phase ▸ rfl)
  · rename_i phase
    exact deliver _ (phase ▸ rfl)

theorem residual_next (residual : Residual s.phase.notices) (a : Action) :
    Residual (s.next a).phase.notices := by
  cases quiet : a.quiet with
  | true => rwa [(quiet_next quiet).1]
  | false =>
    cases a with
    | work =>
      simp only [next, processNext?]
      split
      · exact residual
      · rename_i idle
        split
        · exact residual
        · rename_i rest _
          exact residual_process (s := { s with agenda := rest }) (Decidable.not_not.mp idle) _
    | answer ready => exact residual_resume residual ready
    | _ => cases quiet

theorem residual_ofPlant (plant : PlantVersions) (clock : Clock) :
    Residual (ofPlant plant clock).phase.notices :=
  residual_nil

theorem residual_run (residual : Residual s.phase.notices) (actions : List Action) :
    Residual (s.run actions).phase.notices :=
  run_invariant (P := fun s => Residual s.phase.notices) (fun _ a now => residual_next now a)
    residual actions

end Scheduler

end TrafficControl
