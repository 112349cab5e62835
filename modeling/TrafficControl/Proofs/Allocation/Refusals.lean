import TrafficControl.Proofs.Allocation.Procedures

namespace TrafficControl

def refusal? {α : Type} : Except Refusal α → Option Refusal
  | .ok _ => none
  | .error refusal => some refusal

theorem refusal?_eq_some {α : Type} {result : Except Refusal α} {refusal : Refusal} :
    refusal? result = some refusal ↔ result = .error refusal := by
  cases result <;> simp [refusal?]

namespace Scheduler

open Occupancy

variable {s : Scheduler} {c : ClientId} {set request : ResourceSet} {claims : List ResourceSet}
  {refusal : Refusal}

theorem register_error_iff {handle : Handle} : s.register c handle = .error refusal ↔
    s.occupancy.registered c = true ∧ refusal = .duplicateClient c := by
  cases known : s.occupancy.registered c <;>
    simp [register, Occupancy.register?, known, eq_comm (a := refusal)]

theorem unregister_error_iff : s.unregister c = .error refusal ↔
    s.occupancy.registered c = false ∧ refusal = .unknownClient c := by
  cases known : s.occupancy.registered c <;>
    simp [unregister, Occupancy.unregister?, known, eq_comm (a := refusal)]

/-- Emptiness is looked at first; of several resources that the plant does not define, the last one
    is named. -/
theorem claimFault?_eq_some_iff {p : Plant} : claimFault? p c set = some refusal ↔
    (set.isEmpty = true ∧ refusal = .emptyResourceSet c) ∨
      ∃ r, set.toList.reverse.find? (fun r => !p.defines r) = some r ∧
        refusal = .unknownResource r := by
  unfold claimFault?
  split
  · rename_i empty
    have nothing : set.toList = [] := List.isEmpty_iff.mp empty
    simp [empty, nothing, eq_comm (a := refusal)]
  · rename_i nonempty
    simp only [nonempty, ← Plant.expand_error_iff]
    cases p.expand set <;> simp [eq_comm (a := refusal)]

theorem claimFault?_isSome_iff {p : Plant} : (claimFault? p c set).isSome = true ↔
    set.isEmpty = true ∨ ∃ r, r ∈ set ∧ p.defines r = false := by
  have named : (∃ r, r ∈ set ∧ p.defines r = false) ↔
      ∃ r, set.toList.reverse.find? (fun r => !p.defines r) = some r := by
    rw [← Option.isSome_iff_exists, List.find?_isSome]
    simp [OrderedSet.mem_def]
  rw [Option.isSome_iff_exists, named]
  simp only [claimFault?_eq_some_iff, exists_or, exists_and_left, exists_eq, and_true]
  rw [exists_comm]
  simp only [exists_and_left, exists_eq, and_true]

theorem claim_error_iff : s.claim c claims = .error refusal ↔
    claims.findSome? (claimFault? s.plant.current c) = some refusal ∨
      (claims.findSome? (claimFault? s.plant.current c) = none ∧
        s.occupancy.registered c = false ∧ refusal = .unknownClient c) := by
  unfold claim
  split
  · rename_i fault found
    simp [found, eq_comm (a := refusal)]
  · rename_i none
    cases known : s.occupancy.registered c
    · simp [none, eq_comm (a := refusal)]
    · simp only [none, if_true]
      split <;> simp

theorem allocate_error_iff : s.allocate c request = .error refusal ↔
    (request.isEmpty = true ∧ refusal = .emptyResourceSet c) ∨
      (request.isEmpty = false ∧ s.occupancy.registered c = false ∧ refusal = .unknownClient c) ∨
      (request.isEmpty = false ∧ s.occupancy.registered c = true ∧
        s.occupancy.claimHead? c ≠ some request ∧ refusal = .notClaimHead c request) := by
  cases empty : request.isEmpty <;> cases known : s.occupancy.registered c <;>
    by_cases head : s.occupancy.claimHead? c = some request <;>
    simp [allocate, empty, known, head, eq_comm (a := refusal)]

theorem release_error_iff (consistent : s.occupancy.Consistent) :
    s.release c set = .error refusal ↔
      (set.isEmpty = true ∧ refusal = .emptyResourceSet c) ∨
      (set.isEmpty = false ∧ s.occupancy.registered c = false ∧ refusal = .unknownClient c) ∨
      (set.isEmpty = false ∧ s.occupancy.registered c = true ∧
        ¬ (∀ r, r ∈ s.plant.current.givenUp set → r ∈ s.occupancy.owned c) ∧
        refusal = .notAllocated c set) := by
  have account := consistent.accounts c
  rw [Table.contains] at account
  rw [← OrderedSet.subset_iff, Occupancy.owned, ← account]
  cases empty : set.isEmpty with
  | true => simp [release, empty, eq_comm (a := refusal)]
  | false =>
    simp only [release, empty, release_eq]
    cases present : s.occupancy.allocated.get? c with
    | none => simp [eq_comm (a := refusal)]
    | some held =>
      cases inside : (s.plant.current.givenUp set).subset held <;>
        simp [inside, eq_comm (a := refusal)]

def refuses? (s : Scheduler) : Action → Option Refusal
  | .register client handle => refusal? (s.register client handle)
  | .unregister client => refusal? (s.unregister client)
  | .claim client claims => refusal? (s.claim client claims)
  | .allocate client request => refusal? (s.allocate client request)
  | .release client resources => refusal? (s.release client resources)
  | .start => refusal? s.start
  | _ => none

theorem next_of_refuses {a : Action} (h : s.refuses? a = some refusal) : s.next a = s := by
  cases a
  case register | unregister | claim | allocate | release | start =>
    simp only [refuses?, refusal?_eq_some] at h
    simp only [next, h, after]
  all_goals cases h

theorem allOrNothing_eq (s : Scheduler) (result : Except Refusal Scheduler) :
    s.allOrNothing result = match refusal? result with
      | some refusal => (.error refusal, s)
      | none => (.ok (), s.after result) := by
  cases result <;> rfl

/-- Whatever a call writes it writes after all that it can fail for. -/
theorem carryOut_procedure {a : Action} {procedure : Procedure Unit}
    (calls : a.procedure? = some procedure) (s : Scheduler) :
    procedure.carryOut s = match s.refuses? a with
      | some refusal => (.error refusal, s)
      | none => (.ok (), s.next a) := by
  cases a
  case register | unregister | claim | allocate | release =>
    cases calls
    simp only [Procedure.carryOut_register, Procedure.carryOut_unregister,
      Procedure.carryOut_claim, Procedure.carryOut_allocate, Procedure.carryOut_release]
    exact allOrNothing_eq s _
  all_goals cases calls

def heeded (s : Scheduler) : List Action → List Action
  | [] => []
  | a :: rest => if (s.refuses? a).isSome then heeded s rest else a :: heeded (s.next a) rest

theorem run_heeded (s : Scheduler) (actions : List Action) :
    s.run (s.heeded actions) = s.run actions := by
  induction actions generalizing s with
  | nil => rfl
  | cons a rest ih =>
    rw [heeded]
    split
    · rename_i refused
      obtain ⟨refusal, refused⟩ := Option.isSome_iff_exists.mp refused
      rw [run_cons, next_of_refuses refused, ih]
    · rw [run_cons, run_cons, ih]

/-- Registering fails for the clients that are registered, and unregistering for all others. Claims
    fail if one of them is empty or names what the plant does not define, or for an unknown client.
    A request fails if it is empty or not what the client has claimed next, and a release if it is
    empty or comes to anything that the client has not been allocated. A call that
    fails has not written anything when it does, and any number of such calls can be left out of a
    history. -/
theorem refusals_exact (plant : PlantVersions) (clock : Clock) (actions : List Action) :
    let s := (ofPlant plant clock).run actions
    let p := s.plant.current
    let o := s.occupancy
    (∀ c handle, (∃ refusal, s.register c handle = .error refusal) ↔ o.registered c = true) ∧
      (∀ c, (∃ refusal, s.unregister c = .error refusal) ↔ o.registered c = false) ∧
      (∀ c claims, (∃ refusal, s.claim c claims = .error refusal) ↔
        (∃ set ∈ claims, set.isEmpty = true ∨ ∃ r, r ∈ set ∧ p.defines r = false) ∨
          o.registered c = false) ∧
      (∀ c request, (∃ refusal, s.allocate c request = .error refusal) ↔
        request.isEmpty = true ∨ o.registered c = false ∨ o.claimHead? c ≠ some request) ∧
      (∀ c set, (∃ refusal, s.release c set = .error refusal) ↔
        set.isEmpty = true ∨ o.registered c = false ∨
          ¬ ∀ r, r ∈ p.givenUp set → r ∈ o.owned c) ∧
      (∀ a procedure, a.procedure? = some procedure →
        (∀ refusal, s.refuses? a = some refusal → procedure.carryOut s = (.error refusal, s)) ∧
        (s.refuses? a = none → procedure.carryOut s = (.ok (), s.next a))) ∧
      ∀ later, s.run (s.heeded later) = s.run later := by
  intro s p o
  have consistent : o.Consistent := consistent_run plant clock actions
  refine ⟨fun c handle => ?_, fun c => ?_, fun c claims => ?_, fun c request => ?_,
    fun c set => ?_, fun a procedure calls => ?_, run_heeded s⟩
  · simp only [register_error_iff, exists_and_left, exists_eq, and_true, o]
  · simp only [unregister_error_iff, exists_and_left, exists_eq, and_true, o]
  · have faulty : (∃ set ∈ claims, set.isEmpty = true ∨ ∃ r, r ∈ set ∧ p.defines r = false) ↔
        (claims.findSome? (claimFault? p c)).isSome = true := by
      simp only [List.findSome?_isSome_iff, claimFault?_isSome_iff]
    simp only [faulty, claim_error_iff, exists_or, exists_and_left, exists_eq, and_true, p, o]
    cases claims.findSome? (claimFault? s.plant.current c) <;> simp
  · simp only [allocate_error_iff, exists_or, exists_and_left, exists_eq, and_true]
    cases request.isEmpty <;> cases o.registered c <;> simp [o]
  · simp only [release_error_iff consistent, exists_or, exists_and_left, exists_eq, and_true]
    cases set.isEmpty <;> cases o.registered c <;> simp [o, p]
  · rw [carryOut_procedure calls]
    exact ⟨fun refusal refused => by rw [refused], fun accepted => by rw [accepted]⟩

theorem refusals_exact_corridor :
    let actions : List Action := [.register ⟨"v1"⟩ 0, .claim ⟨"v1"⟩ [.ofList [.point ⟨0⟩]],
      .allocate ⟨"v1"⟩ (.ofList [.point ⟨0⟩]), .work, .work, .answer true, .answer true]
    let later : List Action := [.register ⟨"v1"⟩ 1, .unregister ⟨"v2"⟩,
      .claim ⟨"v1"⟩ [.ofList [.point ⟨1⟩], .ofList [.point ⟨1⟩, .block ⟨0⟩]],
      .allocate ⟨"v1"⟩ (.ofList [.point ⟨0⟩]), .release ⟨"v1"⟩ (.ofList [.point ⟨0⟩, .point ⟨1⟩]),
      .release ⟨"v1"⟩ (.ofList [.point ⟨0⟩])]
    (∃ refusal, ((ofPlant corridor).run actions).register ⟨"v1"⟩ 1 = .error refusal) ∧
      (∃ refusal, ((ofPlant corridor).run actions).unregister ⟨"v2"⟩ = .error refusal) ∧
      (∃ refusal, ((ofPlant corridor).run actions).claim ⟨"v1"⟩
        [.ofList [.point ⟨1⟩], .ofList [.point ⟨1⟩, .block ⟨0⟩]] = .error refusal) ∧
      (∃ refusal, ((ofPlant corridor).run actions).allocate ⟨"v1"⟩
        (.ofList [.point ⟨0⟩]) = .error refusal) ∧
      (∃ refusal, ((ofPlant corridor).run actions).release ⟨"v1"⟩
        (.ofList [.point ⟨0⟩, .point ⟨1⟩]) = .error refusal) ∧
      (Procedure.release ⟨"v1"⟩ (.ofList [.point ⟨0⟩, .point ⟨1⟩])).carryOut
        ((ofPlant corridor).run actions) =
          (.error (.notAllocated ⟨"v1"⟩ (.ofList [.point ⟨0⟩, .point ⟨1⟩])),
            (ofPlant corridor).run actions) ∧
      ((ofPlant corridor).run actions).run later =
        ((ofPlant corridor).run actions).next (.release ⟨"v1"⟩ (.ofList [.point ⟨0⟩])) := by
  intro actions later
  obtain ⟨register, unregister, claim, allocate, release, carriedOut, heeded⟩ :=
    refusals_exact corridor .counting actions
  refine ⟨(register _ _).mpr (by cbv), (unregister _).mpr (by cbv),
    (claim _ _).mpr (.inl ⟨.ofList [.point ⟨1⟩, .block ⟨0⟩], by simp,
      .inr ⟨.block ⟨0⟩, by decide_cbv, by cbv⟩⟩),
    (allocate _ _).mpr (.inr (.inr (by decide_cbv))),
    (release _ _).mpr (.inr (.inr ?_)), (carriedOut (.release _ _) _ rfl).1 _ (by cbv), ?_⟩
  · rw [← OrderedSet.subset_iff]
    decide_cbv
  · have rest : ((ofPlant corridor).run actions).heeded later =
        [.release ⟨"v1"⟩ (.ofList [.point ⟨0⟩])] := by cbv
    rw [← heeded, rest]
    rfl

end Scheduler

end TrafficControl
