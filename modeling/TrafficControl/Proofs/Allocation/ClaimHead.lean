import TrafficControl.Proofs.Allocation.Holding
import TrafficControl.Proofs.Allocation.Run

namespace TrafficControl

namespace Occupancy

/-- Resources are reserved for the set that the client has claimed next, and for no other. -/
def ReservesHeads (o : Occupancy) : Prop :=
  ∀ client reservation, o.reservations.get? client = some reservation →
    o.claimHead? client = some reservation.request

variable {o o' : Occupancy} {c : ClientId}

theorem registered_of_claimHead {request : ResourceSet} (h : o.claimHead? c = some request) :
    o.registered c = true := by
  rw [claimHead?, Option.bind_eq_some_iff] at h
  obtain ⟨claims, known, -⟩ := h
  exact Table.contains_iff.mpr ⟨claims, known⟩

theorem ReservesHeads.registered (heads : o.ReservesHeads) {reservation : Reservation}
    (h : o.reservations.get? c = some reservation) : o.registered c = true :=
  registered_of_claimHead (heads c reservation h)

theorem ReservesHeads.update (heads : o.ReservesHeads)
    (claims : ∀ d, d ≠ c → o'.claims.get? d = o.claims.get? d)
    (reservations : ∀ d, d ≠ c → o'.reservations.get? d = o.reservations.get? d)
    (own : ∀ reservation, o'.reservations.get? c = some reservation →
      o'.claimHead? c = some reservation.request) : o'.ReservesHeads := by
  intro d reservation h
  by_cases same : d = c
  · subst same
    exact own reservation h
  · rw [reservations d same] at h
    have head := heads d reservation h
    rw [claimHead?, claims d same]
    exact head

theorem ReservesHeads.register (heads : o.ReservesHeads) (h : o.register? c = some o') :
    o'.ReservesHeads := by
  obtain ⟨unknown, rfl⟩ := register?_some h
  refine heads.update (fun d other => Table.get?_insert_of_ne other) (fun _ _ => rfl) ?_
  intro reservation present
  have known := heads.registered present
  rw [unknown] at known
  cases known

theorem ReservesHeads.unregister (heads : o.ReservesHeads) {freed : ResourceSet}
    (h : o.unregister? c = some (freed, o')) : o'.ReservesHeads := by
  obtain ⟨-, -, rfl⟩ := unregister?_some h
  refine heads.update (fun d other => Table.get?_erase_of_ne other)
    (fun d other => Table.get?_erase_of_ne other) ?_
  intro reservation present
  rw [Table.get?_erase_self] at present
  cases present

theorem ReservesHeads.claim (heads : o.ReservesHeads) {claims : List ResourceSet}
    (h : (o.setClaims c claims).cancelStale c = (none, o')) : o'.ReservesHeads := by
  obtain ⟨rfl, own⟩ := cancelStale_none h
  exact heads.update (fun d other => Table.get?_insert_of_ne other) (fun _ _ => rfl) own

theorem ReservesHeads.reclaim (heads : o.ReservesHeads) {claims : List ResourceSet}
    {cancelled : Reservation} (h : (o.setClaims c claims).cancelStale c = (some cancelled, o')) :
    o'.ReservesHeads := by
  obtain ⟨-, -, rfl⟩ := cancelStale_some h
  refine heads.update (fun d other => Table.get?_insert_of_ne other)
    (fun d other => Table.get?_erase_of_ne other) ?_
  intro reservation present
  rw [Table.get?_erase_self] at present
  cases present

theorem ReservesHeads.reserve (heads : o.ReservesHeads) {reservation : Reservation}
    (head : o.claimHead? c = some reservation.request) :
    (o.reserve c reservation).ReservesHeads := by
  refine heads.update (fun _ _ => rfl) (fun d other => Table.get?_insert_of_ne other) ?_
  intro present same
  rw [Occupancy.reserve, Table.get?_insert_self] at same
  cases same
  exact head

theorem ReservesHeads.commit (heads : o.ReservesHeads) {request : ResourceSet}
    (h : o.commit c = (some (.allocated request), o')) : o'.ReservesHeads := by
  obtain ⟨reservation, -, -, -, rfl⟩ := commit_allocated h
  refine heads.update (fun d other => Table.get?_insert_of_ne other)
    (fun d other => Table.get?_erase_of_ne other) ?_
  intro present same
  rw [Table.get?_erase_self] at same
  cases same

theorem ReservesHeads.commit_ne_stale (heads : o.ReservesHeads) {reservation : Reservation} :
    o.commit c ≠ (some (.stale reservation), o') := by
  intro h
  obtain ⟨present, other, -⟩ := cancelStale_some (commit_stale h)
  exact other (heads c reservation present)

end Occupancy

namespace Scheduler

theorem reservesHeads_turn {s : Scheduler} {a : Action} {o : Occupancy} {agenda : Agenda}
    (heads : s.occupancy.ReservesHeads) (turn : Turn s a o agenda) : o.ReservesHeads := by
  cases turn with
  | unchanged | requested | rechecked | closed | woken | passed | denied | deferred => exact heads
  | registered h => exact heads.register h
  | unregistered h => exact heads.unregister h
  | claimed _ _ h => exact heads.claim h
  | reclaimed _ _ h =>
    have kept := heads.reclaim h
    exact kept
  | released _ h =>
    obtain ⟨held, -, -, rfl⟩ := Occupancy.release_ok h
    exact heads
  | reserved deciding head => exact heads.reserve (o := s.occupancy.withoutDeferred _) head
  | committed _ h => exact heads.commit h
  | dropped _ h => exact absurd h heads.commit_ne_stale

theorem reservesHeads_next {s : Scheduler} (heads : s.occupancy.ReservesHeads) (a : Action) :
    (s.next a).occupancy.ReservesHeads := reservesHeads_turn heads (s.turn a)

theorem reservesHeads_ofPlant (plant : PlantVersions) (clock : Clock) :
    (ofPlant plant clock).occupancy.ReservesHeads := by
  intro client reservation h
  cases h

theorem reservesHeads_run {s : Scheduler} (heads : s.occupancy.ReservesHeads)
    (actions : List Action) : (s.run actions).occupancy.ReservesHeads := by
  induction actions generalizing s with
  | nil => exact heads
  | cons a rest ih => exact ih (reservesHeads_next heads a)

end Scheduler

end TrafficControl
