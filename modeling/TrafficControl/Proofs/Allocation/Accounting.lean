import Mathlib
import TrafficControl.Proofs.Allocation.Registry

namespace TrafficControl

namespace Scheduler

def accepted (s : Scheduler) (client : ClientId) (actions : List Action) : Nat :=
  (s.filings client actions).countP Filing.isRequest

/-- How many requests of the client were taken up in a run while the same one was waiting or had its
    resources reserved. -/
def repeated (s : Scheduler) (client : ClientId) (actions : List Action) : Nat :=
  (s.filings client actions).countP Filing.isRepeated

variable {s t : Scheduler} {c : ClientId}

theorem Orderly.answersSince_eq (orderly : s.Orderly) (known : s.occupancy.registered c = true)
    {actions : List Action} (stays : Action.unregister c ∉ actions)
    (idle : (s.run actions).phase = .idle) :
    ∃ answers, (s.run actions).answersSince s c = s.owed c ++ answers ∧
      Docket.Steps (s.docket c) (s.filings c actions) answers ((s.run actions).docket c) := by
  obtain ⟨answers, verdicts, steps⟩ := orderly.deals_run known stays
  have said : s.answers c ++ (s.run actions).answersSince s c =
      s.answers c ++ (s.owed c ++ answers) := by
    calc s.answers c ++ (s.run actions).answersSince s c
      _ = (s.run actions).verdicts c :=
        (answers_append (journal_run actions)).symm.trans (verdicts_of_idle idle).symm
      _ = s.verdicts c ++ answers := verdicts
      _ = s.answers c ++ (s.owed c ++ answers) := List.append_assoc ..
  exact ⟨answers, List.append_cancel_left said, steps⟩

theorem owed_length_le (residual : Residual s.phase.notices) : (s.owed c).length ≤ 1 :=
  Nat.le_trans (List.length_filterMap_le _ _) residual.1

theorem run_append_cons (before : List Action) (a : Action) (after : List Action) :
    s.run (before ++ a :: after) = ((s.run before).next a).run after :=
  List.foldl_append

theorem Orderly.kept_allocate (orderly : s.Orderly) (known : s.occupancy.registered c = true)
    (single : (s.docket c).Single) {before after : List Action} {request : ResourceSet}
    (stays : Action.unregister c ∉ before ++ .allocate c request :: after)
    (accepted : (s.run before).allocate c request = .ok t) (idle : (t.run after).phase = .idle) :
    ((t.run after).docket c).Open request ∨
      ∃ answer ∈ (t.run after).answersSince t c, answer.request = request := by
  rw [List.mem_append, List.mem_cons, not_or, not_or] at stays
  obtain ⟨early, -, late⟩ := stays
  obtain ⟨_, -, steps⟩ := orderly.deals_run known early
  have known := registered_run known early
  have orderly := orderly.run before
  have next : (s.run before).next (.allocate c request) = t := by
    rw [Scheduler.next, accepted]
    rfl
  have step := docket_allocate accepted
  have orderly : t.Orderly := next ▸ orderly.next (.allocate c request)
  have goesOn : Action.allocate c request ≠ .unregister c := by
    intro same
    cases same
  have known : t.occupancy.registered c = true := next ▸ registered_next known goesOn
  obtain ⟨answers, since, later⟩ := orderly.answersSince_eq known late idle
  rw [since]
  exact (later.kept (step.single (steps.single single)) step.open_request).before

/-- Every request that is accepted is answered, or it is open. The answers and the open requests of
    a client make up its accepted requests, less those that were taken together, and more by what
    was still to be made known when the client registered, which is one answer at most. -/
theorem requests_accounted_iff (plant : PlantVersions) (clock : Clock) {done later : List Action}
    {handle : Handle} (registered : ((ofPlant plant clock).run done).register c handle = .ok s)
    (stays : Action.unregister c ∉ later) (idle : (s.run later).phase = .idle) :
    (∀ before request after t, later = before ++ .allocate c request :: after →
        (s.run before).allocate c request = .ok t →
          ((s.run later).docket c).Open request ∨
            ∃ answer ∈ (s.run later).answersSince t c, answer.request = request) ∧
      ((s.run later).answersSince s c).length + ((s.run later).docket c).size +
        s.repeated c later = s.accepted c later + (s.owed c).length ∧
      (s.owed c).length ≤ 1 ∧
      (((s.run later).answersSince s c).length + ((s.run later).docket c).size ≤
        s.accepted c later ↔ (s.owed c).length ≤ s.repeated c later) := by
  obtain ⟨orderly, known, empty⟩ := ((orderly_ofPlant plant clock).run done).register registered
  have single : (s.docket c).Single := by
    rw [empty]
    exact fun _ _ => rfl
  have balance : ((s.run later).answersSince s c).length + ((s.run later).docket c).size +
      s.repeated c later = s.accepted c later + (s.owed c).length := by
    obtain ⟨answers, since, steps⟩ := orderly.answersSince_eq known stays idle
    have whole := steps.size_eq single
    have nothing : (s.docket c).size = 0 := by
      rw [empty]
      rfl
    rw [since, List.length_append, accepted, repeated]
    omega
  refine ⟨?_, balance, ?_, ?_⟩
  · intro before request after t same accepted
    subst same
    have split : s.run (before ++ .allocate c request :: after) = t.run after := by
      rw [run_append_cons, next, accepted]
      rfl
    rw [split] at idle ⊢
    exact orderly.kept_allocate known single stays accepted idle
  · have same : s.owed c = ((ofPlant plant clock).run done).owed c := by
      obtain ⟨-, rfl⟩ := register_ok registered
      rfl
    exact same ▸ owed_length_le (residual_run (residual_ofPlant plant clock) done)
  · omega

theorem requests_accounted_corridor :
    let later : List Action := [.claim ⟨"v1"⟩ [.ofList [.point ⟨0⟩]],
      .allocate ⟨"v1"⟩ (.ofList [.point ⟨0⟩]), .allocate ⟨"v1"⟩ (.ofList [.point ⟨0⟩]),
      .work, .work, .answer false, .work, .preparationChanged, .work, .answer true, .answer true]
    ∃ s, (ofPlant corridor).register ⟨"v1"⟩ 0 = .ok s ∧ (s.run later).phase = .idle ∧
      s.accepted ⟨"v1"⟩ later = 2 ∧ s.repeated ⟨"v1"⟩ later = 1 ∧
        ((s.run later).answersSince s ⟨"v1"⟩).length + ((s.run later).docket ⟨"v1"⟩).size = 1 := by
  intro later
  let s := (ofPlant corridor).next (.register ⟨"v1"⟩ 0)
  have stays : Action.unregister ⟨"v1"⟩ ∉ later := by simp [later]
  have idle : (s.run later).phase = .idle := by decide_cbv
  have accepted : s.accepted ⟨"v1"⟩ later = 2 := by decide_cbv
  have repeated : s.repeated ⟨"v1"⟩ later = 1 := by decide_cbv
  have owed : s.owed ⟨"v1"⟩ = [] := rfl
  have registered : ((ofPlant corridor).run []).register ⟨"v1"⟩ 0 = .ok s := rfl
  obtain ⟨-, balance, -⟩ := requests_accounted_iff corridor .counting registered stays idle
  refine ⟨s, rfl, idle, accepted, repeated, ?_⟩
  rw [accepted, repeated, owed, List.length_nil] at balance
  omega

/-- Two requests fail at once, and the client leaves and comes back as it hears of the first: it then
    hears of the second as well. -/
theorem not_accounted_of_return :
    let done : List Action := [.register ⟨"v1"⟩ 0, .register ⟨"v2"⟩ 1,
      .claim ⟨"v2"⟩ [.ofList [.point ⟨0⟩]], .allocate ⟨"v2"⟩ (.ofList [.point ⟨0⟩]),
      .work, .work, .answer true, .answer true,
      .claim ⟨"v1"⟩ [.ofList [.point ⟨0⟩]], .allocate ⟨"v1"⟩ (.ofList [.point ⟨0⟩]), .work,
      .claim ⟨"v1"⟩ [.ofList [.point ⟨1⟩]], .allocate ⟨"v1"⟩ (.ofList [.point ⟨1⟩]),
      .claim ⟨"v1"⟩ [.ofList [.point ⟨0⟩]], .work, .unregister ⟨"v1"⟩]
    let later : List Action := [.answer true, .answer true]
    ∃ s, ((ofPlant corridor).run done).register ⟨"v1"⟩ 2 = .ok s ∧
      Action.unregister ⟨"v1"⟩ ∉ later ∧ (s.run later).phase = .idle ∧
      (s.run later).answersSince s ⟨"v1"⟩ = [.denied (.ofList [.point ⟨1⟩])] ∧
      ¬ ((s.run later).answersSince s ⟨"v1"⟩).length + ((s.run later).docket ⟨"v1"⟩).size ≤
        s.accepted ⟨"v1"⟩ later := by
  intro done later
  refine ⟨((ofPlant corridor).run done).next (.register ⟨"v1"⟩ 2), ?_, ?_, ?_, ?_, ?_⟩
  · cbv
  · simp [later]
  · decide_cbv
  · decide_cbv
  · decide_cbv

end Scheduler

end TrafficControl
