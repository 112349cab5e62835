import Mathlib
import TrafficControl.Proofs.Allocation.ClaimHead
import TrafficControl.Proofs.Allocation.Signals

namespace TrafficControl

def Signal.denies : Signal → Bool
  | .told (.failed ..) => true
  | .called (.denied ..) => true
  | _ => false

inductive Phase.OfCheck : Phase → Prop
  | done : OfCheck .idle
  | asking (check : Check) (hook : HookId) (later : List HookId) :
      OfCheck (.asking check hook later)
  | confirming (check : Check) (handle : Handle) (hooksReady : Bool) :
      OfCheck (.confirming check handle hooksReady)
  | granting (client : ClientId) (handle : Handle) (request : ResourceSet) :
      OfCheck (.granting client handle request [])

theorem Action.Tells.denies_eq {a : Action} {signal : Signal} (h : a.Tells signal) :
    signal.denies = false := by
  cases h <;> rfl

theorem Call.denies_eq {call : Call} (question : call.isQuestion = true) :
    (Signal.called call).denies = false := by
  cases call with
  | denied => cases question
  | _ => rfl

namespace Scheduler

def denials (s : Scheduler) : List Signal := s.journal.filter Signal.denies

def Spares (s t : Scheduler) : Prop :=
  Utters (fun signal => signal.denies = false) s t ∧ t.phase.OfCheck

variable {s t : Scheduler}

theorem denials_of_utters (h : Utters (fun signal => signal.denies = false) s t) :
    t.denials = s.denials := by
  obtain ⟨said, journal, fine⟩ := h
  have none : said.filter Signal.denies = [] := by
    rw [List.filter_eq_nil_iff]
    intro signal member denied
    rw [fine signal member] at denied
    cases denied
  rw [denials, denials, journal, List.filter_append, none, List.append_nil]

theorem spares_idle : Spares s (s.await .idle) := by
  refine ⟨utters_idle, ?_⟩
  rw [await_phase]
  exact .done

theorem spares_confirm (check : Check) (ready : Bool) : Spares s (s.confirm check ready) := by
  refine ⟨utters_confirm (fun _ => Call.denies_eq) check ready, ?_⟩
  unfold confirm
  split
  · rw [await_phase]
    exact .confirming ..
  · rw [await_phase]
    exact .done

theorem spares_inquire (check : Check) (hooks : List HookId) :
    Spares s (s.inquire check hooks) := by
  cases hooks with
  | nil => exact spares_confirm check true
  | cons hook later =>
    refine ⟨utters_inquire (fun _ => Call.denies_eq) check (hook :: later), ?_⟩
    rw [inquire, await_phase]
    exact .asking ..

theorem spares_check (idle : s.phase = .idle) (client : ClientId) (request : ResourceSet) :
    Spares s (s.check client request) := by
  refine ⟨utters_check (fun _ => Call.denies_eq) client request, ?_⟩
  have ended : s.phase.OfCheck := idle ▸ .done
  unfold Scheduler.check
  split
  · exact ended
  · split
    · exact (spares_inquire _ _).2
    · exact ended

theorem spares_grant (client : ClientId) (request : ResourceSet) :
    Spares s (s.deliver [.allocated client request]) := by
  constructor
  · apply utters_deliver
    intro n member signal uttered
    rw [List.mem_singleton.mp member] at uttered
    cases uttered <;> rfl
  · simp only [deliver]
    split
    · rw [await_phase]
      exact .granting ..
    · rw [await_phase]
      exact .done

theorem spares_settle (heads : s.occupancy.ReservesHeads) (check : Check) :
    Spares s (s.settle check) := by
  unfold settle
  split
  · exact spares_idle
  · split
    · rename_i o _
      exact spares_idle (s := { s with occupancy := o })
    · rename_i request o _
      exact spares_grant (s := { s with occupancy := o }) check.client request
    · rename_i stale
      exact absurd stale heads.commit_ne_stale

theorem spares_resume (heads : s.occupancy.ReservesHeads) (work : s.phase.OfCheck) (ready : Bool) :
    Spares s (s.resume ready) := by
  unfold resume
  split
  · exact ⟨utters_of_journal rfl, work⟩
  · split
    · exact spares_inquire _ _
    · exact spares_confirm _ _
  · split
    · exact spares_settle heads _
    · exact spares_idle
  · rename_i phase
    rw [phase] at work
    cases work
  · rename_i phase
    rw [phase] at work
    cases work
    exact spares_idle
  · rename_i phase
    rw [phase] at work
    cases work

/-- Until the work on a check is over, nobody's action makes it deny anything. -/
theorem spares_next (heads : s.occupancy.ReservesHeads) (work : s.phase.OfCheck)
    (goesOn : s.phase ≠ .idle) (a : Action) : Spares s (s.next a) := by
  cases quiet : a.quiet with
  | true =>
    obtain ⟨phase, told⟩ := quiet_next (s := s) quiet
    exact ⟨told.mono fun _ tells => tells.denies_eq, phase ▸ work⟩
  | false =>
    cases a with
    | work =>
      rw [next_work_of_busy goesOn]
      exact ⟨utters_of_journal rfl, work⟩
    | answer ready => exact spares_resume heads work ready
    | _ => cases quiet

theorem denials_run (heads : s.occupancy.ReservesHeads) (work : s.phase.OfCheck)
    {actions : List Action} (goesOn : Along (fun t _ => t.phase ≠ .idle) s actions) :
    (s.run actions).denials = s.denials := by
  induction actions generalizing s with
  | nil => rfl
  | cons a rest ih =>
    obtain ⟨uttered, still⟩ := spares_next heads work goesOn.1 a
    rw [run_cons, ih (reservesHeads_next heads a) still goesOn.2, denials_of_utters uttered]

theorem spares_work {first : Command} {rest : Agenda} {request : ResourceSet}
    (idle : s.phase = .idle) (pop : s.agenda.pop? = some (first, rest))
    (task : first.task = .check request) : Spares s (s.next .work) := by
  have taken : s.next .work = { s with agenda := rest }.check first.client request := by
    rw [next_work idle pop, process, task]
  rw [taken]
  have sparing := spares_check (s := { s with agenda := rest }) idle first.client request
  exact sparing

/-- Whatever is reserved is reserved for the set that a registered client has claimed next. So no
    reservation turns out to be stale, and the work on a check denies no request, whoever is ready
    and whatever clients call for while it goes on. -/
theorem reserved_for_head (plant : PlantVersions) (clock : Clock) (actions : List Action) :
    let s := (ofPlant plant clock).run actions
    (∀ client reservation, s.occupancy.reservations.get? client = some reservation →
        s.occupancy.registered client = true ∧
          s.occupancy.claimHead? client = some reservation.request) ∧
      (∀ client reservation, (s.occupancy.commit client).1 ≠ some (.stale reservation)) ∧
      ∀ first rest request later, s.phase = .idle → s.agenda.pop? = some (first, rest) →
        first.task = .check request → Along (fun t _ => t.phase ≠ .idle) (s.next .work) later →
          ((s.next .work).run later).denials = s.denials := by
  intro s
  have heads : s.occupancy.ReservesHeads :=
    reservesHeads_run (reservesHeads_ofPlant plant clock) actions
  refine ⟨?_, ?_, ?_⟩
  · intro client reservation present
    exact ⟨heads.registered present, heads client reservation present⟩
  · intro client reservation stale
    exact heads.commit_ne_stale (Prod.ext stale rfl)
  · intro first rest request later idle pop task goesOn
    obtain ⟨uttered, work⟩ := spares_work idle pop task
    rw [denials_run (reservesHeads_next heads .work) work goesOn, denials_of_utters uttered]

theorem reserved_for_head_corridor :
    let actions : List Action := [.register ⟨"v1"⟩ 0, .claim ⟨"v1"⟩ [.ofList [.point ⟨0⟩]],
      .allocate ⟨"v1"⟩ (.ofList [.point ⟨0⟩]), .work, .work, .answer false, .preparationChanged]
    let later : List Action := [.claim ⟨"v1"⟩ [.ofList [.point ⟨1⟩]], .answer true]
    ((ofPlant corridor).run actions).occupancy.claimHead? ⟨"v1"⟩ = some (.ofList [.point ⟨0⟩]) ∧
      (((ofPlant corridor).run actions).next .work).phase.call? =
        some (.clientReady 0 ⟨"v1"⟩ (.ofList [.point ⟨0⟩])) ∧
        ((((ofPlant corridor).run actions).next .work).run later).denials = [] := by
  intro actions later
  obtain ⟨heads, -, silent⟩ := reserved_for_head corridor .counting actions
  have present : ((ofPlant corridor).run actions).occupancy.reservations.get? ⟨"v1"⟩ =
      some { request := .ofList [.point ⟨0⟩], expanded := .ofList [.point ⟨0⟩] } := by
    cbv
  have pop : ((ofPlant corridor).run actions).agenda.pop? = some ({
      task := .check (.ofList [.point ⟨0⟩]), client := ⟨"v1"⟩, created := 2, serial := 2 },
      { nextSerial := 3 }) := by
    cbv
  have idle : ((ofPlant corridor).run actions).phase = .idle := by cbv
  have goesOn : Along (fun t _ => t.phase ≠ .idle) (((ofPlant corridor).run actions).next .work)
      later :=
    ⟨by decide_cbv, by decide_cbv, True.intro⟩
  have fresh : ((ofPlant corridor).run actions).denials = [] := by cbv
  exact ⟨(heads _ _ present).2, by cbv, (silent _ _ _ later idle pop rfl goesOn).trans fresh⟩

end Scheduler

end TrafficControl
