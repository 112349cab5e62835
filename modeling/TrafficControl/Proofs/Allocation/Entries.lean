import Mathlib
import TrafficControl.Proofs.Allocation.Registry

namespace TrafficControl

namespace Occupancy

/-- The tables agree: whoever is entered as a holder holds the resource, exactly the registered
    clients can have something allocated, and nobody waits while something is reserved for it. -/
structure Consistent (o : Occupancy) : Prop where
  entered : ∀ r c, o.holder? r = some c → r ∈ o.holdings c
  accounts : ∀ c, o.allocated.contains c = o.registered c
  either : ∀ c request, o.deferred.get? c = some request → o.reservations.get? c = none

variable {o o' : Occupancy} {p : Plant} {c : ClientId} {freed : ResourceSet}

theorem Consistent.entered_vacated (consistent : o.Consistent)
    (holders : o'.holders = vacate o.holders freed)
    (kept : ∀ d r, r ∈ o.holdings d → ¬ r ∈ freed → r ∈ o'.holdings d) :
    ∀ r d, o'.holder? r = some d → r ∈ o'.holdings d := by
  intro r d held
  rw [holder?, holders, get?_vacate] at held
  split at held
  · cases held
  · rename_i stays
    exact kept d r (consistent.entered r d held) stays

theorem Consistent.owned_register (consistent : o.Consistent) (h : o.register? c = some o')
    (d : ClientId) : o'.owned d = o.owned d := by
  obtain ⟨unknown, rfl⟩ := register?_some h
  by_cases same : d = c
  · subst same
    have none : o.allocated.contains d = false := (consistent.accounts d).trans unknown
    rw [Table.contains, Option.isSome_eq_false_iff, Option.isNone_iff_eq_none] at none
    rw [owned, owned, Table.get?_insert_self, none]
    rfl
  · exact owned_congr (Table.get?_insert_of_ne same)

theorem Consistent.register (consistent : o.Consistent) (h : o.register? c = some o') :
    o'.Consistent := by
  have owned := consistent.owned_register h
  obtain ⟨-, rfl⟩ := register?_some h
  refine ⟨fun r d held => ?_, fun d => ?_, consistent.either⟩
  · have before := consistent.entered r d held
    rw [mem_holdings] at before ⊢
    rwa [owned]
  · rw [registered, Table.contains_insert, Table.contains_insert, consistent.accounts d, registered]

theorem Consistent.unregister (consistent : o.Consistent)
    (h : o.unregister? c = some (freed, o')) : o'.Consistent := by
  have others : ∀ d, d ≠ c → o'.holdings d = o.holdings d :=
    fun d other => holdings_unregister_of_ne h other
  obtain ⟨-, rfl, rfl⟩ := unregister?_some h
  refine ⟨consistent.entered_vacated rfl fun d r held stays => ?_, fun d => ?_, ?_⟩
  · by_cases same : d = c
    · subst same
      exact absurd held stays
    · exact others d same ▸ held
  · rw [registered, Table.contains_erase, Table.contains_erase, consistent.accounts d, registered]
  · intro d request waits
    by_cases same : d = c
    · rw [same, Table.get?_erase_self]
    · rw [Table.get?_erase_of_ne same] at waits ⊢
      exact consistent.either d request waits

theorem Consistent.setClaims (consistent : o.Consistent) (known : o.registered c = true)
    (claims : List ResourceSet) : (o.setClaims c claims).Consistent where
  entered := consistent.entered
  accounts d := (consistent.accounts d).trans (Scheduler.registered_insert known).symm
  either := consistent.either

theorem Consistent.cancel (consistent : o.Consistent) {cancelled : Reservation}
    (h : o.cancelStale c = (some cancelled, o')) : o'.Consistent := by
  obtain ⟨present, -, rfl⟩ := cancelStale_some h
  refine ⟨consistent.entered_vacated rfl fun d r held stays => ?_, consistent.accounts, ?_⟩
  · rw [mem_holdings] at held ⊢
    refine held.imp_right fun taken => ?_
    by_cases same : d = c
    · subst same
      rw [reserved_of_get? present] at taken
      exact absurd taken stays
    · rwa [reserved_congr (Table.get?_erase_of_ne same)]
  · intro d request waits
    have none := consistent.either d request waits
    by_cases same : d = c
    · rw [same, Table.get?_erase_self]
    · rw [Table.get?_erase_of_ne same, none]

theorem Consistent.defer (consistent : o.Consistent) (none : o.reservations.get? c = none)
    (request : ResourceSet) : (o.defer c request).Consistent where
  entered := consistent.entered
  accounts := consistent.accounts
  either d waiting waits := by
    by_cases same : d = c
    · exact same ▸ none
    · rw [Occupancy.defer, Table.get?_insert_of_ne same] at waits
      exact consistent.either d waiting waits

theorem Consistent.withoutDeferred (consistent : o.Consistent) (c : ClientId) :
    (o.withoutDeferred c).Consistent where
  entered := consistent.entered
  accounts := consistent.accounts
  either d waiting waits := by
    rw [Occupancy.withoutDeferred, Table.get?_erase] at waits
    split at waits
    · cases waits
    · exact consistent.either d waiting waits

theorem Consistent.reserve (consistent : o.Consistent) (none : o.reservations.get? c = none)
    (reservation : Reservation) : (o.reserve c reservation).Consistent where
  entered r d held := by
    rw [holder?_reserve] at held
    rw [mem_holdings]
    split at held
    · rename_i taken
      cases held
      rw [reserved_of_get? Table.get?_insert_self]
      exact .inr taken
    · have before := consistent.entered r d held
      rw [mem_holdings] at before
      refine before.imp_right fun reserved => ?_
      by_cases same : d = c
      · rw [same, reserved_of_none none] at reserved
        exact absurd reserved OrderedSet.not_mem_empty
      · rwa [reserved_congr (Table.get?_insert_of_ne same)]
  accounts := consistent.accounts
  either d waiting waits := by
    rw [Occupancy.reserve, Table.get?_erase] at waits
    split at waits
    · cases waits
    · rename_i other
      rw [Occupancy.reserve, Table.get?_insert_of_ne other]
      exact consistent.either d waiting waits

theorem Consistent.commit (consistent : o.Consistent) {request : ResourceSet}
    (h : o.commit c = (some (.allocated request), o')) : o'.Consistent := by
  obtain ⟨reservation, present, head, -, rfl⟩ := commit_allocated h
  have known := registered_of_claimHead head
  refine ⟨fun r d held => ?_, fun d => ?_, fun d waiting waits => ?_⟩
  · have before := consistent.entered r d held
    by_cases same : d = c
    · subst same
      rw [mem_holdings, reserved_of_get? present] at before
      rw [mem_holdings, owned, Table.get?_insert_self, Option.getD_some, OrderedSet.mem_union]
      exact .inl before
    · rwa [holdings_congr (owned_congr (Table.get?_insert_of_ne same))
        (reserved_congr (Table.get?_erase_of_ne same))]
  · rw [registered, Scheduler.registered_insert known, Table.contains_insert, consistent.accounts d]
    by_cases same : d = c
    · rw [same, decide_eq_true rfl, Bool.true_or, known]
    · rw [decide_eq_false same, Bool.false_or]
  · have none := consistent.either d waiting waits
    by_cases same : d = c
    · rw [same, Table.get?_erase_self]
    · rw [Table.get?_erase_of_ne same, none]

theorem Consistent.release (consistent : o.Consistent) {resources : ResourceSet}
    (h : o.release p c resources = .ok (freed, o')) : o'.Consistent := by
  obtain ⟨held, present, -, rfl⟩ := release_ok h
  refine ⟨consistent.entered_vacated rfl fun d r before stays => ?_, fun d => ?_,
    consistent.either⟩
  · rw [mem_holdings] at before ⊢
    refine before.imp_left fun mine => ?_
    by_cases same : d = c
    · subst same
      rw [owned, present, Option.getD_some] at mine
      rw [owned, Table.get?_insert_self, Option.getD_some, OrderedSet.mem_diff]
      exact ⟨mine, stays⟩
    · rwa [owned_congr (Table.get?_insert_of_ne same)]
  · have account : o.allocated.contains c = true := Table.contains_iff.mpr ⟨held, present⟩
    rw [Table.contains_insert]
    by_cases same : d = c
    · rw [same, decide_eq_true rfl, Bool.true_or, ← account, consistent.accounts c, registered,
        registered]
    · rw [decide_eq_false same, Bool.false_or, consistent.accounts d, registered, registered]

end Occupancy

namespace Scheduler

variable {s : Scheduler} {a : Action} {o : Occupancy} {agenda : Agenda}

theorem Deciding.unreserved {first : Command} {rest : Agenda} {request : ResourceSet}
    (deciding : Deciding s first rest request) (consistent : s.occupancy.Consistent) :
    s.occupancy.reservations.get? first.client = none := by
  rcases deciding.asked with ⟨-, none⟩ | ⟨-, waits⟩
  · exact none
  · exact consistent.either first.client request waits

theorem consistent_turn (consistent : s.occupancy.Consistent) (heads : s.occupancy.ReservesHeads)
    (turn : Turn s a o agenda) : o.Consistent := by
  cases turn with
  | unchanged | requested | rechecked | closed | woken | passed => exact consistent
  | registered h => exact consistent.register h
  | unregistered h => exact consistent.unregister h
  | claimed _ known h =>
    obtain ⟨rfl, -⟩ := Occupancy.cancelStale_none h
    exact consistent.setClaims known _
  | reclaimed _ known h =>
    have kept := (consistent.setClaims known _).cancel h
    obtain ⟨-, -, rfl⟩ := Occupancy.cancelStale_some h
    exact kept.defer Table.get?_erase_self _
  | released _ h => exact consistent.release h
  | denied => exact consistent.withoutDeferred _
  | deferred deciding =>
    exact (consistent.withoutDeferred _).defer (deciding.unreserved consistent) _
  | reserved deciding =>
    exact (consistent.withoutDeferred _).reserve (deciding.unreserved consistent) _
  | committed _ h => exact consistent.commit h
  | dropped _ h => exact absurd h heads.commit_ne_stale

theorem consistent_ofPlant (plant : PlantVersions) (clock : Clock) :
    (ofPlant plant clock).occupancy.Consistent where
  entered r c held := by cases held
  accounts c := rfl
  either c request waits := by cases waits

theorem consistent_run (plant : PlantVersions) (clock : Clock) (actions : List Action) :
    ((ofPlant plant clock).run actions).occupancy.Consistent := by
  have both : ((ofPlant plant clock).run actions).occupancy.Consistent ∧
      ((ofPlant plant clock).run actions).occupancy.ReservesHeads := by
    refine run_invariant (P := fun s => s.occupancy.Consistent ∧ s.occupancy.ReservesHeads) ?_
      ⟨consistent_ofPlant plant clock, reservesHeads_ofPlant plant clock⟩ actions
    intro s a h
    obtain ⟨consistent, heads⟩ := h
    exact ⟨consistent_turn consistent heads (s.turn a), reservesHeads_next heads a⟩
  exact both.1

/-- Whoever is entered as a holder is registered, and has the resource allocated or reserved. The
    tables have the same clients, and a request that waits has nothing reserved. So what stands in
    the way of a request is on record for another client, who can give it up. -/
theorem holders_on_record (plant : PlantVersions) (clock : Clock) (actions : List Action) :
    let o := ((ofPlant plant clock).run actions).occupancy
    (∀ r client, o.holder? r = some client → o.registered client = true ∧
        ((∃ held, o.allocated.get? client = some held ∧ r ∈ held) ∨
          ∃ reservation, o.reservations.get? client = some reservation ∧
            r ∈ reservation.expanded)) ∧
      (∀ client, o.claims.contains client = o.allocated.contains client) ∧
      (∀ client, o.deferred.contains client = true ∨ o.reservations.contains client = true →
        o.registered client = true) ∧
      (∀ client, o.deferred.contains client = true → o.reservations.contains client = false) ∧
      ∀ p client expanded r, o.availability p client expanded = .busy r →
        ∃ other, other ≠ client ∧ o.registered other = true ∧ r ∈ o.holdings other := by
  intro o
  have consistent : o.Consistent := consistent_run plant clock actions
  have orderly : ((ofPlant plant clock).run actions).Orderly :=
    (orderly_ofPlant plant clock).run actions
  have heads : o.ReservesHeads := orderly.heads
  have account : ∀ client held, o.allocated.get? client = some held →
      o.registered client = true := by
    intro client held present
    rw [← consistent.accounts client]
    exact Table.contains_iff.mpr ⟨held, present⟩
  have recorded : ∀ r client, o.holder? r = some client → o.registered client = true ∧
      ((∃ held, o.allocated.get? client = some held ∧ r ∈ held) ∨
        ∃ reservation, o.reservations.get? client = some reservation ∧
          r ∈ reservation.expanded) := by
    intro r client held
    rcases Occupancy.mem_holdings.mp (consistent.entered r client held) with owned | reserved
    · obtain ⟨mine, present, member⟩ := Occupancy.owned_some owned
      exact ⟨account client mine present, .inl ⟨mine, present, member⟩⟩
    · obtain ⟨reservation, present, member⟩ := Occupancy.reserved_some reserved
      exact ⟨heads.registered present, .inr ⟨reservation, present, member⟩⟩
  refine ⟨recorded, fun client => (consistent.accounts client).symm, ?_, ?_, ?_⟩
  · intro client waits
    rcases waits with waits | waits
    · by_contra stranger
      have empty := orderly.strangers client (Bool.eq_false_of_not_eq_true stranger)
      obtain ⟨-, -, none, -⟩ := docket_empty_iff.mp empty
      obtain ⟨request, present⟩ := Table.contains_iff.mp waits
      cases none.symm.trans present
    · obtain ⟨reservation, present⟩ := Table.contains_iff.mp waits
      exact heads.registered present
  · intro client waits
    obtain ⟨request, present⟩ := Table.contains_iff.mp waits
    rw [Table.contains, consistent.either client request present]
    rfl
  · intro p client expanded r busy
    obtain ⟨other, held, apart⟩ :=
      Occupancy.heldByOther_iff.mp (Occupancy.heldByOther_of_busy busy)
    exact ⟨other, apart, (recorded r other held).1, consistent.entered r other held⟩

theorem holders_on_record_corridor :
    let actions : List Action := [.register ⟨"v1"⟩ 0, .register ⟨"v2"⟩ 1, .register ⟨"v3"⟩ 2,
      .claim ⟨"v1"⟩ [.ofList [.point ⟨0⟩]], .claim ⟨"v2"⟩ [.ofList [.point ⟨0⟩]],
      .claim ⟨"v3"⟩ [.ofList [.point ⟨1⟩]],
      .allocate ⟨"v1"⟩ (.ofList [.point ⟨0⟩]), .work, .work, .answer true, .answer true,
      .allocate ⟨"v3"⟩ (.ofList [.point ⟨1⟩]), .work, .replace corridor.current,
      .allocate ⟨"v2"⟩ (.ofList [.point ⟨0⟩]), .unregister ⟨"v3"⟩, .work, .work, .work]
    ((ofPlant corridor).run actions).occupancy.registered ⟨"v2"⟩ = true ∧
      ((ofPlant corridor).run actions).occupancy.reservations.contains ⟨"v2"⟩ = false ∧
      ((ofPlant corridor).run actions).occupancy.holder? (.point ⟨1⟩) = none ∧
      ((ofPlant corridor).run actions).occupancy.registered ⟨"v1"⟩ = true ∧
      ∃ other, other ≠ ⟨"v2"⟩ ∧
        .point ⟨0⟩ ∈ ((ofPlant corridor).run actions).occupancy.holdings other := by
  intro actions
  obtain ⟨recorded, -, known, either, blocked⟩ := holders_on_record corridor .counting actions
  have waits : ((ofPlant corridor).run actions).occupancy.deferred.contains ⟨"v2"⟩ = true := by cbv
  have held : ((ofPlant corridor).run actions).occupancy.holder? (.point ⟨0⟩) = some ⟨"v1"⟩ := by
    cbv
  have busy : ((ofPlant corridor).run actions).occupancy.availability
      ((ofPlant corridor).run actions).plant.current ⟨"v2"⟩ (.ofList [.point ⟨0⟩]) =
        .busy (.point ⟨0⟩) := by
    cbv
  obtain ⟨other, apart, -, holds⟩ := blocked _ _ _ _ busy
  exact ⟨known _ (.inl waits), either _ waits, by cbv, (recorded _ _ held).1, other, apart, holds⟩

end Scheduler

end TrafficControl
