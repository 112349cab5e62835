import Mathlib.Tactic.Tauto
import TrafficControl.Proofs.Allocation.Draining

namespace TrafficControl

/-- What happens to a scheduler: it is called, or its worker takes a command. That somebody else has
    commands worked on is a call, too. -/
inductive Deed where
  | call (a : Action)
  | serve

def Deed.isCall : Deed → Bool
  | .call _ => true
  | .serve => false

def Started (deeds : List Deed) : Prop :=
  ∃ before later, deeds = before ++ .call .start :: later ∧ .call .shutdown ∉ later

namespace Scheduler

def undergo (s : Scheduler) : Deed → Scheduler
  | .call a => s.next a
  | .serve => s.workNext?.getD s

def live (s : Scheduler) (deeds : List Deed) : Scheduler := deeds.foldl undergo s

def nextCommand? (s : Scheduler) : Option Command :=
  if s.phase = .idle then s.agenda.pop?.map (·.1) else none

def taken? (s : Scheduler) : Deed → Option Command
  | .call .work => s.nextCommand?
  | .call _ => none
  | .serve => if s.isRunning then s.nextCommand? else none

def worked (s : Scheduler) : List Deed → List Command
  | [] => []
  | d :: rest => (s.taken? d).toList ++ (s.undergo d).worked rest

/-- What happens while commands are taken as soon as they can be, and nothing else is done but to
    give calls the answers that `answer` has for them. -/
def course (taking : Deed) (answer : Scheduler → Bool) : Nat → Scheduler → List Deed
  | 0, _ => []
  | n + 1, s =>
    let d := if s.phase = .idle then taking else .call (.answer (answer s))
    d :: course taking answer n (s.undergo d)

def GetsDone (s : Scheduler) (taking : Deed) : Prop :=
  ∀ answer : Scheduler → Bool, ∃ n, let deeds := course taking answer n s
    s.agenda.pending ⊆ s.worked deeds ∧ (s.live deeds).phase = .idle ∧
      (s.live deeds).agenda.isEmpty = true

/-- From now on the worker makes no difference, and takes no command. -/
def Deserted (s : Scheduler) : Prop :=
  ∀ deeds, s.live deeds = s.live (deeds.filter Deed.isCall) ∧
    s.worked deeds = s.worked (deeds.filter Deed.isCall)

variable {s t : Scheduler} {a : Action} {d taking : Deed} {deeds : List Deed} {c : Command}

theorem live_cons (d : Deed) (rest : List Deed) :
    s.live (d :: rest) = (s.undergo d).live rest := rfl

theorem undergo_serve : s.undergo .serve = if s.isRunning then s.next .work else s := by
  simp only [undergo, workNext?]
  split <;> rfl

theorem live_invariant {P : Scheduler → Prop} (step : ∀ s a, P s → P (s.next a)) (start : P s)
    (deeds : List Deed) : P (s.live deeds) := by
  induction deeds generalizing s with
  | nil => exact start
  | cons d rest ih =>
    refine ih ?_
    cases d with
    | call a => exact step s a start
    | serve =>
      rw [undergo_serve]
      split
      · exact step s .work start
      · exact start

theorem Orderly.live (orderly : s.Orderly) (deeds : List Deed) : (s.live deeds).Orderly :=
  live_invariant (fun _ a h => h.next a) orderly deeds

theorem closed_turn {o : Occupancy} {agenda : Agenda} (turn : Turn s a o agenda)
    (lasting : a ≠ .shutdown) : agenda.closed = s.agenda.closed := by
  have taken {first : Command} {rest : Agenda} (pop : s.agenda.pop? = some (first, rest)) :
      rest.closed = s.agenda.closed := by rw [(Agenda.pop?_eq_some.mp pop).2]
  cases turn with
  | unchanged | registered | claimed | reclaimed | requested | released | committed | dropped => rfl
  | unregistered => split <;> rfl
  | rechecked => exact Agenda.closed_pushAll
  | closed => exact absurd rfl lasting
  | woken pop => exact Agenda.closed_pushAll.trans (taken pop)
  | passed pop => exact taken pop
  | denied deciding => exact taken deciding.pop
  | deferred deciding => exact taken deciding.pop
  | reserved deciding =>
    have kept := taken deciding.pop
    exact kept

theorem closed_next : (s.next a).agenda.closed = true ↔ s.agenda.closed = true ∨ a = .shutdown := by
  by_cases last : a = .shutdown
  · subst last
    exact iff_of_true rfl (.inr rfl)
  · rw [closed_turn (s.turn a) last]
    exact (or_iff_left last).symm

theorem closed_undergo :
    (s.undergo d).agenda.closed = true ↔ s.agenda.closed = true ∨ d = .call .shutdown := by
  cases d with
  | call a =>
    rw [Deed.call.injEq]
    exact closed_next
  | serve =>
    rw [undergo_serve, or_iff_left Deed.noConfusion]
    split
    · exact closed_next.trans (or_iff_left Action.noConfusion)
    · exact Iff.rfl

theorem closed_live : (s.live deeds).agenda.closed = true ↔
    s.agenda.closed = true ∨ .call .shutdown ∈ deeds := by
  induction deeds generalizing s with
  | nil => simp [live]
  | cons d rest ih =>
    rw [live_cons, ih, closed_undergo, List.mem_cons, or_assoc, eq_comm (a := d)]

theorem worker_next (entry : a ≠ .start) (exit : a ≠ .shutdown) :
    (s.next a).worker = s.worker := by
  cases a with
  | register client handle =>
    simp only [next, register]
    split <;> rfl
  | unregister client =>
    simp only [next, unregister]
    split
    · rfl
    · simp only [after]
      split <;> rfl
  | _ => exact (stable_next (by simp) (by simp)).2 entry exit

theorem worker_undergo (entry : d ≠ .call .start) (exit : d ≠ .call .shutdown) :
    (s.undergo d).worker = s.worker := by
  cases d with
  | call a => exact worker_next (fun same => entry (same ▸ rfl)) fun same => exit (same ▸ rfl)
  | serve =>
    rw [undergo_serve]
    split
    · exact worker_next (by simp) (by simp)
    · rfl

theorem start_eq_ok : s.start = .ok t ↔ s.worker = false ∧ t = { s with worker := true } := by
  unfold start
  split
  · rename_i works
    simp [works]
  · rename_i rests
    simp [rests, eq_comm]

theorem worker_start : (s.undergo (.call .start)).worker = true := by
  simp only [undergo, next, start]
  split
  · rename_i works
    exact works
  · rfl

theorem started_cons {rest : List Deed} :
    Started (d :: rest) ↔ (d = .call .start ∧ .call .shutdown ∉ rest) ∨ Started rest := by
  constructor
  · intro h
    obtain ⟨before, later, split, open'⟩ := h
    cases before with
    | nil =>
      cases split
      exact .inl ⟨rfl, open'⟩
    | cons first before =>
      cases split
      exact .inr ⟨before, later, rfl, open'⟩
  · intro h
    rcases h with ⟨rfl, open'⟩ | ⟨before, later, rfl, open'⟩
    · exact ⟨[], rest, rfl, open'⟩
    · exact ⟨d :: before, later, rfl, open'⟩

theorem worker_live : (s.live deeds).worker = true ↔
    (s.worker = true ∧ .call .shutdown ∉ deeds) ∨ Started deeds := by
  induction deeds generalizing s with
  | nil => simp [live, Started]
  | cons d rest ih =>
    rw [live_cons, ih, started_cons, List.mem_cons, not_or]
    by_cases entry : d = .call .start
    · subst entry
      rw [worker_start]
      tauto
    · by_cases exit : d = .call .shutdown
      · subst exit
        have gone : (s.undergo (.call .shutdown)).worker = false := rfl
        rw [gone]
        tauto
      · rw [worker_undergo entry exit]
        tauto

theorem isRunning_iff : s.isRunning = true ↔ s.worker = true ∧ s.agenda.closed = false := by
  simp [isRunning]

theorem running_live (started : s.start = .ok t) (fresh : s.agenda.closed = false)
    (lasting : .call .shutdown ∉ deeds) : (t.live deeds).isRunning = true := by
  obtain ⟨-, rfl⟩ := start_eq_ok.mp started
  refine isRunning_iff.mpr ⟨worker_live.mpr (.inl ⟨rfl, lasting⟩), Bool.eq_false_iff.mpr ?_⟩
  intro last
  rcases closed_live.mp last with last | shut
  · cases fresh.symm.trans last
  · exact lasting shut

theorem kept_turn {o : Occupancy} {agenda : Agenda} (turn : Turn s a o agenda)
    (waits : c ∈ s.agenda.pending) :
    c ∈ agenda.pending ∨ (a = .work ∧ s.agenda.pop?.map (·.1) = some c) ∨
      a = .unregister c.client := by
  have left {first : Command} {rest : Agenda} (pop : s.agenda.pop? = some (first, rest)) :
      c ∈ rest.pending ∨ s.agenda.pop?.map (·.1) = some c := by
    rw [(Agenda.pop?_eq_some.mp pop).1] at waits
    rcases List.mem_cons.mp waits with rfl | later
    · exact .inr (by rw [pop]; rfl)
    · exact .inl later
  cases turn with
  | unchanged | registered | claimed | committed | closed => exact .inl waits
  | reclaimed | requested | released | dropped => exact .inl (Agenda.mem_push waits)
  | rechecked => exact .inl (Agenda.mem_pushAll waits)
  | @unregistered client =>
    by_cases mine : c.client = client
    · exact .inr (.inr (mine ▸ rfl))
    · have stays : c ∈ (s.agenda.purge client).pending :=
        List.mem_filter.mpr ⟨waits, decide_eq_true mine⟩
      split
      · exact .inl stays
      · exact .inl (Agenda.mem_push stays)
  | woken pop => exact (left pop).imp Agenda.mem_pushAll fun first => .inl ⟨rfl, first⟩
  | passed pop => exact (left pop).imp_right fun first => .inl ⟨rfl, first⟩
  | denied deciding => exact (left deciding.pop).imp_right fun first => .inl ⟨rfl, first⟩
  | deferred deciding => exact (left deciding.pop).imp_right fun first => .inl ⟨rfl, first⟩
  | reserved deciding =>
    exact (left deciding.pop).imp Agenda.mem_push fun first => .inl ⟨rfl, first⟩

theorem kept_next (waits : c ∈ s.agenda.pending) : c ∈ (s.next a).agenda.pending ∨
    s.taken? (.call a) = some c ∨ a = .unregister c.client := by
  rcases kept_turn (s.turn a) waits with stays | ⟨rfl, first⟩ | leaves
  · exact .inl stays
  · by_cases idle : s.phase = .idle
    · exact .inr (.inl ((if_pos idle).trans first))
    · -- no command is taken while a call waits for its answer
      exact .inl ((next_work_of_busy idle).symm ▸ waits)
  · exact .inr (.inr leaves)

theorem kept_undergo (waits : c ∈ s.agenda.pending) : c ∈ (s.undergo d).agenda.pending ∨
    s.taken? d = some c ∨ d = .call (.unregister c.client) := by
  cases d with
  | call a => exact (kept_next waits).imp_right (.imp_right (congrArg Deed.call))
  | serve =>
    rw [undergo_serve, taken?]
    split
    · exact (kept_next (a := .work) waits).imp_right (.imp_right Action.noConfusion)
    · exact .inl waits

theorem kept_live (waits : c ∈ s.agenda.pending) (deeds : List Deed)
    (stays : .call (.unregister c.client) ∉ deeds) :
    c ∈ s.worked deeds ∨ c ∈ (s.live deeds).agenda.pending := by
  induction deeds generalizing s with
  | nil => exact .inr waits
  | cons d rest ih =>
    rw [List.mem_cons, not_or] at stays
    rw [worked, List.mem_append, Option.mem_toList]
    rcases kept_undergo (d := d) waits with waits | taken | leaves
    · exact (ih waits stays.2).imp_left .inr
    · exact .inl (.inl taken)
    · exact absurd leaves.symm stays.1

theorem RunsPending.course {answer : Scheduler → Bool} {commands : List Command}
    (runs : s.RunsPending answer commands t) {P : Scheduler → Prop}
    (given : ∀ s, P s → s.undergo taking = s.next .work ∧ s.taken? taking = s.nextCommand?)
    (step : ∀ s a, a ≠ .shutdown → a ≠ .start → P s → P (s.next a)) (start : P s) :
    ∃ n, s.live (course taking answer n s) = t ∧
      s.worked (course taking answer n s) = commands := by
  induction runs with
  | done => exact ⟨0, rfl, rfl⟩
  | @command s t first rest commands idle pop _ ih =>
    obtain ⟨n, ends, all⟩ := ih (step s .work (by simp) (by simp) start)
    obtain ⟨does, takes⟩ := given s start
    refine ⟨n + 1, ?_, ?_⟩
    · simpa only [Scheduler.course, idle, if_true, live, List.foldl_cons, does] using ends
    · simp only [Scheduler.course, idle, if_true, worked, does, takes, nextCommand?, pop, all,
        Option.map_some, Option.toList_some, List.singleton_append]
  | @answered s t commands busy _ ih =>
    obtain ⟨n, ends, all⟩ := ih (step s (.answer (answer s)) (by simp) (by simp) start)
    refine ⟨n + 1, ?_, ?_⟩
    · simpa only [Scheduler.course, busy, if_false, live, List.foldl_cons, undergo] using ends
    · simpa only [Scheduler.course, busy, if_false, worked, undergo, taken?, Option.toList_none,
        List.nil_append] using all

theorem unregister_not_mem_course {answer : Scheduler → Bool} {client : ClientId} (n : Nat)
    (other : taking ≠ .call (.unregister client)) :
    .call (.unregister client) ∉ course taking answer n s := by
  induction n generalizing s with
  | zero => simp [course]
  | succ n ih =>
    rw [course, List.mem_cons, not_or]
    refine ⟨?_, ih⟩
    split
    · exact other.symm
    · simp

theorem Orderly.getsDone (orderly : s.Orderly) {P : Scheduler → Prop}
    (given : ∀ s, P s → s.undergo taking = s.next .work ∧ s.taken? taking = s.nextCommand?)
    (step : ∀ s a, a ≠ .shutdown → a ≠ .start → P s → P (s.next a)) (start : P s)
    (other : ∀ client, taking ≠ .call (.unregister client)) : s.GetsDone taking := by
  intro answer
  obtain ⟨commands, t, runs, -⟩ := orderly.runsPending answer
  obtain ⟨n, ends, -⟩ := runs.course given step start
  obtain ⟨-, idle, empty⟩ := runs.induction (P := fun _ => True) (fun _ _ => trivial)
    (fun _ _ => trivial) trivial
  refine ⟨n, fun c waits => ?_, ends ▸ idle, ends ▸ empty⟩
  rcases kept_live waits _ (unregister_not_mem_course n (other c.client)) with done | waits
  · exact done
  · rw [ends, List.isEmpty_iff.mp empty] at waits
    cases waits

theorem Orderly.getsDone_work (orderly : s.Orderly) : s.GetsDone (.call .work) :=
  orderly.getsDone (P := fun _ => True) (fun _ _ => ⟨rfl, rfl⟩) (fun _ _ _ _ _ => trivial) trivial
    (by simp)

theorem Orderly.getsDone_serve (orderly : s.Orderly) (running : s.isRunning = true) :
    s.GetsDone .serve := by
  refine orderly.getsDone (P := fun s => s.isRunning = true) ?_ ?_ running (by simp)
  · intro s running
    exact ⟨undergo_serve.trans (if_pos running), if_pos running⟩
  · intro s a exit entry running
    obtain ⟨worker, isOpen⟩ := isRunning_iff.mp running
    exact isRunning_iff.mpr ⟨(worker_next entry exit).trans worker,
      (closed_turn (s.turn a) exit).trans isOpen⟩

theorem not_running_of_closed (closed : s.agenda.closed = true) : s.isRunning = false := by
  rw [isRunning, closed, Bool.not_true, Bool.and_false]

theorem taken?_of_closed (closed : s.agenda.closed = true) (other : d ≠ .call .work) :
    s.taken? d = none := by
  unfold taken?
  split
  · exact absurd rfl other
  · rfl
  · rw [not_running_of_closed closed]
    rfl

theorem undergo_serve_of_closed (closed : s.agenda.closed = true) : s.undergo .serve = s := by
  rw [undergo_serve, not_running_of_closed closed]
  rfl

theorem deserted_of_closed (closed : s.agenda.closed = true) : s.Deserted := by
  intro deeds
  induction deeds generalizing s with
  | nil => exact ⟨rfl, rfl⟩
  | cons d rest ih =>
    obtain ⟨sameState, sameCommands⟩ := ih (closed_undergo (d := d).mpr (.inl closed))
    cases d with
    | call a => exact ⟨sameState, congrArg ((s.taken? (.call a)).toList ++ ·) sameCommands⟩
    | serve =>
      rw [undergo_serve_of_closed closed] at sameState sameCommands
      refine ⟨?_, ?_⟩
      · rw [live_cons, undergo_serve_of_closed closed]
        exact sameState
      · rw [worked, undergo_serve_of_closed closed, taken?_of_closed closed (by simp)]
        exact sameCommands

theorem worked_of_closed (closed : s.agenda.closed = true) (nobody : .call .work ∉ deeds) :
    s.worked deeds = [] := by
  induction deeds generalizing s with
  | nil => rfl
  | cons d rest ih =>
    rw [List.mem_cons, not_or, eq_comm] at nobody
    rw [worked, taken?_of_closed closed nobody.1, ih (closed_undergo.mpr (.inl closed)) nobody.2]
    rfl

/-- From a start on until the next shutdown the worker runs and gets done with all commands, unless
    it was shut down before: then it can be started, but never runs again and takes no command.
    What waits at a shutdown is not dropped. The worker never takes it; but whoever else has
    commands worked on, has it worked on, unless its client leaves. -/
theorem runs_until_shutdown (plant : PlantVersions) (clock : Clock) (deeds : List Deed) :
    let s := (ofPlant plant clock).live deeds
    ((∃ t, s.start = .ok t) ↔ ¬ Started deeds) ∧
      (∀ t, s.start = .ok t →
        (.call .shutdown ∉ deeds → ∀ later, .call .shutdown ∉ later →
          (t.live later).isRunning = true ∧ (t.live later).GetsDone .serve) ∧
        (.call .shutdown ∈ deeds → t.Deserted ∧ ∀ later, (t.live later).isRunning = false)) ∧
      (s.next .shutdown).Deserted ∧
      ∀ c ∈ s.agenda.pending, ∀ later, let t := s.next .shutdown
        (.call .work ∉ later → c ∉ t.worked later) ∧
        (.call (.unregister c.client) ∉ later → c ∈ t.worked later ∨
          c ∈ (t.live later).agenda.pending ∧ (t.live later).GetsDone (.call .work)) := by
  intro s
  have orderly : s.Orderly := (orderly_ofPlant plant clock).live deeds
  have worker : s.worker = true ↔ Started deeds :=
    worker_live.trans (or_iff_right fun h => Bool.false_ne_true h.1)
  have closed : s.agenda.closed = true ↔ .call .shutdown ∈ deeds :=
    closed_live.trans (or_iff_right Bool.false_ne_true)
  have ended : (s.next .shutdown).agenda.closed = true := rfl
  refine ⟨?_, fun t started => ⟨fun fresh later lasting => ?_, fun shut => ?_⟩,
    deserted_of_closed ended, fun c waits later => ⟨fun nobody => ?_, fun stays => ?_⟩⟩
  · simp only [start_eq_ok, exists_and_left, exists_eq, and_true, ← worker, Bool.not_eq_true]
  · have isOpen : s.agenda.closed = false :=
      Bool.eq_false_iff.mpr fun last => fresh (closed.mp last)
    have running := running_live started isOpen lasting
    have orderly_start : (s.next .start).Orderly := orderly.next .start
    rw [next, started] at orderly_start
    exact ⟨running, (orderly_start.live later).getsDone_serve running⟩
  · obtain ⟨-, rfl⟩ := start_eq_ok.mp started
    have shut := closed.mpr shut
    refine ⟨deserted_of_closed shut, fun later => ?_⟩
    exact not_running_of_closed (closed_live.mpr (.inl shut))
  · rw [worked_of_closed ended nobody]
    exact List.not_mem_nil
  · refine (kept_live (s := s.next .shutdown) waits later stays).imp_right fun waits => ⟨waits, ?_⟩
    exact ((orderly.next .shutdown).live later).getsDone_work

def oneRequest : List Deed :=
  [.call (.register ⟨"v1"⟩ 0), .call (.claim ⟨"v1"⟩ [.ofList [.point ⟨0⟩]]),
    .call (.allocate ⟨"v1"⟩ (.ofList [.point ⟨0⟩]))]

theorem pending_oneRequest : ((ofPlant corridor).live oneRequest).agenda.pending =
    [⟨.allocate (.ofList [.point ⟨0⟩]), ⟨"v1"⟩, 0, 0⟩] := by decide_cbv

theorem start_oneRequest : ((ofPlant corridor).live oneRequest).start =
    .ok { (ofPlant corridor).live oneRequest with worker := true } :=
  start_eq_ok.mpr ⟨by decide_cbv, rfl⟩

theorem runs_until_shutdown_corridor :
    let s := (ofPlant corridor).live oneRequest
    (∃ t, s.start = .ok t ∧ (t.live [.serve]).isRunning = true ∧ t.GetsDone .serve) ∧
      (∃ t, (s.next .shutdown).start = .ok t ∧ t.Deserted ∧ (t.live [.serve]).isRunning = false) ∧
      ∃ c ∈ s.agenda.pending, c ∉ (s.next .shutdown).worked [.call .start, .serve] ∧
        ((s.next .shutdown).live [.call .start, .serve]).GetsDone (.call .work) := by
  intro s
  have restarted : ((ofPlant corridor).live (oneRequest ++ [.call .shutdown])).start =
      .ok { s.next .shutdown with worker := true } := rfl
  obtain ⟨-, begins, -, queued⟩ := runs_until_shutdown corridor .counting oneRequest
  obtain ⟨-, again, -⟩ := runs_until_shutdown corridor .counting (oneRequest ++ [.call .shutdown])
  have runs := (begins _ start_oneRequest).1 (by simp [oneRequest])
  have rests := (again _ restarted).2 (by simp)
  refine ⟨⟨_, start_oneRequest, (runs [.serve] (by simp)).1, (runs [] (by simp)).2⟩,
    ⟨_, restarted, rests.1, rests.2 [.serve]⟩, ?_⟩
  have waits := pending_oneRequest ▸ List.mem_singleton_self _
  obtain ⟨dropped, kept⟩ := queued _ waits [.call .start, .serve]
  exact ⟨_, waits, dropped (by simp), ((kept (by simp)).resolve_left (dropped (by simp))).2⟩

/-- After a shutdown a start is not refused, but the worker does not run, and the command that
    waited is worked on. -/
theorem rests_after_restart :
    let s := (ofPlant corridor).live oneRequest
    let c : Command := ⟨.allocate (.ofList [.point ⟨0⟩]), ⟨"v1"⟩, 0, 0⟩
    (∃ t, (s.next .shutdown).start = .ok t ∧ t.isRunning = false) ∧
      s.agenda.pending = [c] ∧
        (s.next .shutdown).worked [.call .start, .serve, .call .work] = [c] :=
  ⟨⟨_, rfl, rfl⟩, pending_oneRequest, by decide_cbv⟩

end Scheduler

end TrafficControl
