import Mathlib
import TrafficControl.Proofs.Allocation.Registry

namespace TrafficControl

namespace Scheduler

def grantsSince (t s : Scheduler) (client : ClientId) : List ResourceSet :=
  (t.answersSince s client).filterMap Answer.granted?

def Undisturbed (client : ClientId) (s : Scheduler) (a : Action) : Prop :=
  a ≠ .unregister client ∧ ∀ claims, a = .claim client claims → ∀ t, s.claim client claims ≠ .ok t

variable {s t : Scheduler} {c : ClientId}

theorem not_mem_of_undisturbed {actions : List Action} (along : Along (Undisturbed c) s actions) :
    Action.unregister c ∉ actions := by
  induction actions generalizing s with
  | nil => exact List.not_mem_nil
  | cons a rest ih =>
    rw [List.mem_cons, not_or]
    exact ⟨along.1.1.symm, ih along.2⟩

theorem filing_of_undisturbed {a : Action} (undisturbed : Undisturbed c s a)
    (claims : List ResourceSet) : s.filing c a ≠ .claims claims := by
  intro same
  cases a with
  | claim client asked =>
    simp only [filing] at same
    split at same
    · rename_i mine
      subst mine
      split at same
      · rename_i t accepted
        exact undisturbed.2 asked rfl t accepted
      · cases same
    · cases same
  | allocate client request =>
    simp only [filing] at same
    split at same
    · split at same <;> cases same
    · cases same
  | work =>
    simp only [filing] at same
    split at same
    · split at same
      · simp only [Docket.taking] at same
        split at same <;> cases same
      · cases same
    · cases same
  | _ => cases same

theorem filings_of_undisturbed {actions : List Action} (along : Along (Undisturbed c) s actions)
    (claims : List ResourceSet) : Filing.claims claims ∉ s.filings c actions := by
  induction actions generalizing s with
  | nil => exact List.not_mem_nil
  | cons a rest ih =>
    rw [filings, List.mem_cons, not_or]
    exact ⟨(filing_of_undisturbed along.1 claims).symm, ih along.2⟩

theorem claims_eq (known : s.occupancy.registered c = true) :
    s.claims c = .ok (s.docket c).claims := by
  obtain ⟨claims, present⟩ := Table.contains_iff.mp known
  rw [Scheduler.claims, docket, present]
  rfl

theorem owed_grants (residual : Residual s.phase.notices) :
    (s.owed c).filterMap Answer.granted? = [] := by
  rw [owed, List.filterMap_filterMap, List.filterMap_eq_nil_iff]
  intro notice member
  -- a grant is made known alone, as soon as it is decided on
  cases notice with
  | allocated client request => exact absurd member (residual.2 client request)
  | failed client request =>
    by_cases mine : client = c <;> simp [Notice.answer?, mine, Answer.granted?]
  | deferred | prepare => rfl

/-- As long as its claims are left alone, a client is granted what it claimed, in that order, and it
    claims the rest. -/
theorem Orderly.grants_append (orderly : s.Orderly) (residual : Residual s.phase.notices)
    (known : s.occupancy.registered c = true) {actions : List Action}
    (along : Along (Undisturbed c) s actions) :
    ∃ remaining, (s.run actions).claims c = .ok remaining ∧
      (s.run actions).grantsSince s c ++ remaining = (s.docket c).claims := by
  have stays := not_mem_of_undisturbed along
  obtain ⟨answers, verdicts, steps⟩ := orderly.deals_run known stays
  refine ⟨_, claims_eq (registered_run known stays), ?_⟩
  have granted : (s.run actions).grantsSince s c = answers.filterMap Answer.granted? := by
    have all := congrArg (List.filterMap Answer.granted?) verdicts
    rw [Scheduler.verdicts, Scheduler.verdicts, answers_append (journal_run actions)] at all
    simp only [List.filterMap_append, owed_grants residual, owed_grants (residual_run residual actions),
      List.append_nil, List.append_assoc] at all
    exact List.append_cancel_left all
  rw [granted]
  exact steps.claims_eq (filings_of_undisturbed along)

theorem docket_claims_of_claim {claims : List ResourceSet} (h : s.claim c claims = .ok t) :
    (t.docket c).claims = claims := by
  have step := docket_claim h
  generalize t.docket c = d at step
  cases step <;> rfl

/-- From one call that changes a client's claims to the next, what the client is granted is a prefix
    of what it claimed, and the rest is what it claims still. Nothing is granted to a client that has
    registered and claimed nothing yet. -/
theorem grants_follow_claims (plant : PlantVersions) (clock : Clock) (done : List Action)
    (c : ClientId) :
    (∀ claims t later, ((ofPlant plant clock).run done).claim c claims = .ok t →
        Along (Undisturbed c) t later →
          ∃ remaining, (t.run later).claims c = .ok remaining ∧
            (t.run later).grantsSince t c ++ remaining = claims) ∧
      ∀ handle t later, ((ofPlant plant clock).run done).register c handle = .ok t →
        Along (Undisturbed c) t later →
          (t.run later).claims c = .ok [] ∧ (t.run later).grantsSince t c = [] := by
  have orderly := (orderly_ofPlant plant clock).run done
  have residual := residual_run (residual_ofPlant plant clock) done
  refine ⟨?_, ?_⟩
  · intro claims t later accepted along
    have next : ((ofPlant plant clock).run done).next (.claim c claims) = t := by
      rw [Scheduler.next, accepted]
      rfl
    have goesOn : Action.claim c claims ≠ .unregister c := by
      intro same
      cases same
    have known : t.occupancy.registered c = true :=
      next ▸ registered_next (claim_ok accepted).1 goesOn
    rw [← docket_claims_of_claim accepted]
    exact (next ▸ orderly.next (.claim c claims) : t.Orderly).grants_append
      (next ▸ residual_next residual (.claim c claims)) known along
  · intro handle t later accepted along
    obtain ⟨orderly, known, empty⟩ := orderly.register accepted
    have residual : Residual t.phase.notices := by
      obtain ⟨-, rfl⟩ := register_ok accepted
      exact residual
    obtain ⟨remaining, claims, whole⟩ := orderly.grants_append residual known along
    rw [empty] at whole
    obtain ⟨none, rfl⟩ := List.append_eq_nil_iff.mp whole
    exact ⟨claims, none⟩

theorem grants_follow_claims_corridor :
    let done : List Action := [.register ⟨"v1"⟩ 0]
    let claims : List ResourceSet :=
      [.ofList [.point ⟨0⟩], .ofList [.point ⟨1⟩], .ofList [.point ⟨0⟩]]
    let later : List Action := [.allocate ⟨"v1"⟩ (.ofList [.point ⟨0⟩]), .work, .work, .answer true,
      .answer true, .allocate ⟨"v1"⟩ (.ofList [.point ⟨1⟩]), .work, .work, .answer true, .answer true]
    ∃ t, ((ofPlant corridor).run done).claim ⟨"v1"⟩ claims = .ok t ∧
      Along (Undisturbed ⟨"v1"⟩) t later ∧
        (t.run later).grantsSince t ⟨"v1"⟩ = [.ofList [.point ⟨0⟩], .ofList [.point ⟨1⟩]] ∧
          (t.run later).claims ⟨"v1"⟩ = .ok [.ofList [.point ⟨0⟩]] := by
  intro done claims later
  have accepted : ((ofPlant corridor).run done).claim ⟨"v1"⟩ claims =
      .ok (((ofPlant corridor).run done).next (.claim ⟨"v1"⟩ claims)) := by cbv
  have along : Along (Undisturbed ⟨"v1"⟩)
      (((ofPlant corridor).run done).next (.claim ⟨"v1"⟩ claims)) later := by
    simp [later, Along, Undisturbed]
  obtain ⟨remaining, rest, whole⟩ :=
    (grants_follow_claims corridor .counting done ⟨"v1"⟩).1 claims _ later accepted along
  have granted : ((((ofPlant corridor).run done).next (.claim ⟨"v1"⟩ claims)).run later).grantsSince
      (((ofPlant corridor).run done).next (.claim ⟨"v1"⟩ claims)) ⟨"v1"⟩ =
        [.ofList [.point ⟨0⟩], .ofList [.point ⟨1⟩]] := by decide_cbv
  rw [granted] at whole
  have left : remaining = [.ofList [.point ⟨0⟩]] := List.append_cancel_left whole
  exact ⟨_, accepted, along, granted, left ▸ rest⟩

end Scheduler

end TrafficControl
