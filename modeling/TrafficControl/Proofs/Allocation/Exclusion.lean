import Mathlib
import TrafficControl.Proofs.Allocation.ClaimHead

namespace TrafficControl

namespace Occupancy

def Tracked (o : Occupancy) : Prop :=
  ∀ client r, r ∈ o.holdings client → o.holder? r = some client

def Exclusive (o : Occupancy) : Prop :=
  ∀ c d, c ≠ d → ∀ r, r ∈ o.holdings c → ¬ r ∈ o.holdings d

variable {o o' : Occupancy} {p : Plant} {c : ClientId} {freed : ResourceSet}

theorem Tracked.exclusive (tracked : o.Tracked) : o.Exclusive := by
  intro c d other r first second
  have held := tracked c r first
  rw [tracked d r second] at held
  exact other (Option.some.inj held).symm

theorem Exclusive.shrink (exclusive : o.Exclusive) (shrinks : o.Shrinks o') : o'.Exclusive :=
  fun c d other r first second => exclusive c d other r (shrinks c r first) (shrinks d r second)

/-- What a client gives up leaves all others alone; what it keeps has to stay entered. -/
theorem Tracked.vacated (tracked : o.Tracked)
    (holders : o'.holders = vacate o.holders freed)
    (mine : ∀ r, r ∈ freed → r ∈ o.holdings c)
    (others : ∀ d, d ≠ c → o'.holdings d = o.holdings d)
    (kept : ∀ r, r ∈ o'.holdings c → r ∈ o.holdings c ∧ ¬ r ∈ freed) : o'.Tracked := by
  intro d r member
  rw [holder?, holders, get?_vacate]
  by_cases same : d = c
  · subst same
    obtain ⟨before, stays⟩ := kept r member
    rw [if_neg stays]
    exact tracked d r before
  · rw [others d same] at member
    have before := tracked d r member
    rw [if_neg]
    · exact before
    · intro given
      exact tracked.exclusive d c same r member (mine r given)

theorem Tracked.register (tracked : o.Tracked) (h : o.register? c = some o') : o'.Tracked := by
  have shrinks := shrinks_register h
  obtain ⟨-, rfl⟩ := register?_some h
  exact fun d r member => tracked d r (shrinks d r member)

theorem Tracked.unregister (tracked : o.Tracked) (h : o.unregister? c = some (freed, o')) :
    o'.Tracked := by
  have none := not_mem_holdings_unregister h
  have others : ∀ d, d ≠ c → o'.holdings d = o.holdings d :=
    fun d other => holdings_unregister_of_ne h other
  obtain ⟨-, rfl, rfl⟩ := unregister?_some h
  apply tracked.vacated (c := c) rfl (fun r mine => mine) others
  exact fun r member => absurd member (none r)

theorem Tracked.cancel (tracked : o.Tracked) {cancelled : Reservation}
    (h : o.cancelStale c = (some cancelled, o'))
    (apart : ∀ r, r ∈ cancelled.expanded → ¬ r ∈ o.owned c) : o'.Tracked := by
  have others : ∀ d, d ≠ c → o'.holdings d = o.holdings d :=
    fun d other => holdings_cancel_of_ne h other
  have kept : ∀ r, r ∈ o'.holdings c → r ∈ o.owned c := fun r => mem_holdings_cancel h
  obtain ⟨present, -, rfl⟩ := cancelStale_some h
  apply tracked.vacated (c := c) rfl ?_ others
  · intro r member
    have owned := kept r member
    exact ⟨mem_holdings.mpr (.inl owned), fun given => apart r given owned⟩
  · intro r given
    rw [mem_holdings, reserved_of_get? present]
    exact .inr given

theorem Tracked.release (tracked : o.Tracked) {resources : ResourceSet}
    (h : o.release p c resources = .ok (freed, o'))
    (apart : ∀ r, r ∈ freed → ¬ r ∈ o.reserved c) : o'.Tracked := by
  have others : ∀ d, d ≠ c → o'.holdings d = o.holdings d :=
    fun d other => holdings_release_of_ne h other
  have kept : ∀ r, r ∈ o'.holdings c → (r ∈ o.owned c ∧ ¬ r ∈ freed) ∨ r ∈ o.reserved c :=
    fun r => mem_holdings_release h
  obtain ⟨held, present, inside, rfl⟩ := release_ok h
  apply tracked.vacated (c := c) rfl ?_ others
  · intro r member
    rcases kept r member with ⟨before, stays⟩ | reserved
    · exact ⟨mem_holdings.mpr (.inl before), stays⟩
    · exact ⟨mem_holdings.mpr (.inr reserved), fun given => apart r given reserved⟩
  · intro r given
    rw [mem_holdings, owned, present, Option.getD_some]
    exact .inl (inside r given)

theorem Tracked.reserve (tracked : o.Tracked) {reservation : Reservation}
    (free : ∀ r, r ∈ reservation.expanded → o.heldByOther c r = false) :
    (o.reserve c reservation).Tracked := by
  intro d r member
  rw [holder?_reserve]
  by_cases same : d = c
  · subst same
    split
    · rfl
    · rename_i outside
      rw [mem_holdings, reserved_of_get? Table.get?_insert_self] at member
      exact tracked d r (mem_holdings.mpr (.inl (member.resolve_right outside)))
  · have before := tracked d r (holdings_reserve_of_ne same ▸ member)
    rw [if_neg]
    · exact before
    · intro taken
      have unheld := free r taken
      have held := heldByOther_iff.mpr ⟨d, before, same⟩
      rw [unheld] at held
      cases held

theorem Tracked.commit (tracked : o.Tracked) {request : ResourceSet}
    (h : o.commit c = (some (.allocated request), o')) : o'.Tracked := by
  have shrinks := shrinks_commit h
  obtain ⟨reservation, -, -, -, rfl⟩ := commit_allocated h
  exact fun d r member => tracked d r (shrinks d r member)

theorem Exclusive.reserve (exclusive : o.Exclusive) {reservation : Reservation}
    (free : ∀ r, r ∈ reservation.expanded → o.heldByOther c r = false)
    (entered : ∀ d r, d ≠ c → r ∈ reservation.expanded → ¬ r ∈ o.holdings c → r ∈ o.holdings d →
      o.holder? r = some d) : (o.reserve c reservation).Exclusive := by
  have apart : ∀ d r, d ≠ c → r ∈ (o.reserve c reservation).holdings c → ¬ r ∈ o.holdings d := by
    intro d r other taken held
    rw [mem_holdings, reserved_of_get? Table.get?_insert_self] at taken
    by_cases before : r ∈ o.holdings c
    · exact exclusive d c other r held before
    · have new : r ∈ reservation.expanded := by
        rcases taken with mine | new
        · have kept : r ∈ o.holdings c := mem_holdings.mpr (.inl mine)
          exact absurd kept before
        · exact new
      have blocked := heldByOther_iff.mpr ⟨d, entered d r other new before held, other⟩
      rw [free r new] at blocked
      cases blocked
  intro e d other r first second
  by_cases here : e = c
  · subst here
    rw [holdings_reserve_of_ne (Ne.symm other)] at second
    exact apart d r (Ne.symm other) first second
  · rw [holdings_reserve_of_ne here] at first
    by_cases there : d = c
    · subst there
      exact apart e r here second first
    · rw [holdings_reserve_of_ne there] at second
      exact exclusive e d other r first second

end Occupancy

namespace Scheduler

open Occupancy

/-- The action gives nothing up that the client holds a second time. Given up is what a client has
    reserved, once it claims something else first, and what it releases. -/
def Careful (s : Scheduler) : Action → Prop
  | .claim client claims => claims.findSome? (claimFault? s.plant.current client) = none →
      ∀ reservation, s.occupancy.reservations.get? client = some reservation →
        claims.head? ≠ some reservation.request →
          ∀ r, r ∈ reservation.expanded → ¬ r ∈ s.occupancy.owned client
  | .release client resources => resources.isEmpty = false → ∀ freed o,
      s.occupancy.release s.plant.current client resources = .ok (freed, o) →
        ∀ r, r ∈ freed → ¬ r ∈ s.occupancy.reserved client
  | _ => True

theorem tracked_turn {s : Scheduler} {a : Action} {o : Occupancy} {agenda : Agenda}
    (tracked : s.occupancy.Tracked) (heads : s.occupancy.ReservesHeads) (careful : Careful s a)
    (turn : Turn s a o agenda) : o.Tracked := by
  cases turn with
  | unchanged | requested | rechecked | closed | woken | passed | denied | deferred => exact tracked
  | registered h => exact tracked.register h
  | unregistered h => exact tracked.unregister h
  | claimed _ _ h =>
    obtain ⟨rfl, -⟩ := cancelStale_none h
    exact tracked
  | @reclaimed client claims cancelled _ valid _ h =>
    obtain ⟨present, other, -⟩ := cancelStale_some h
    rw [claimHead?, setClaims, Table.get?_insert_self, Option.bind_some] at other
    have kept := Tracked.cancel (o := s.occupancy.setClaims client claims) tracked h
      (careful valid cancelled present other)
    exact kept
  | released nonempty h => exact tracked.release h (careful nonempty _ _ h)
  | @reserved first _ _ _ deciding _ _ free =>
    exact Tracked.reserve (o := s.occupancy.withoutDeferred first.client) tracked
      fun r taken => heldByOther_of_available free taken
  | committed _ h => exact tracked.commit h
  | dropped _ h => exact absurd h heads.commit_ne_stale

/-- Whatever the action reserves anew for a client, another one holds it only if it is entered as
    the holder. -/
def Attentive (s : Scheduler) (a : Action) : Prop :=
  ∀ c d r, c ≠ d → r ∈ (s.next a).occupancy.reserved c → ¬ r ∈ s.occupancy.holdings c →
    r ∈ s.occupancy.holdings d → s.occupancy.holder? r = some d

/-- Holdings grow only by a reservation of what nobody else is entered as holding. -/
theorem holdings_turn {s : Scheduler} {a : Action} {o : Occupancy} {agenda : Agenda}
    (heads : s.occupancy.ReservesHeads) (turn : Turn s a o agenda) :
    s.occupancy.Shrinks o ∨ ∃ c reservation,
      o = (s.occupancy.withoutDeferred c).reserve c reservation ∧
        s.plant.current.expand reservation.request = .ok reservation.expanded ∧
        ∀ r, r ∈ reservation.expanded → s.occupancy.heldByOther c r = false := by
  cases turn with
  | unchanged | requested | rechecked | closed | woken | passed | denied | deferred =>
    exact .inl fun d r member => member
  | registered h => exact .inl (shrinks_register h)
  | unregistered h => exact .inl (shrinks_unregister h)
  | claimed _ _ h =>
    obtain ⟨rfl, -⟩ := cancelStale_none h
    exact .inl fun d r member => member
  | @reclaimed client claims cancelled _ _ _ h =>
    have shrinks : (s.occupancy.setClaims client claims).Shrinks _ := shrinks_cancel h
    exact .inl shrinks
  | released _ h => exact .inl (shrinks_release h)
  | @reserved first _ request expanded _ _ expansion free =>
    exact .inr ⟨first.client, { request, expanded }, rfl, expansion,
      fun r taken => heldByOther_of_available free taken⟩
  | committed _ h => exact .inl (shrinks_commit h)
  | dropped _ h => exact absurd h heads.commit_ne_stale

theorem exclusive_next_iff {s : Scheduler} (exclusive : s.occupancy.Exclusive)
    (heads : s.occupancy.ReservesHeads) (a : Action) :
    (s.next a).occupancy.Exclusive ↔ Attentive s a := by
  rcases holdings_turn heads (s.turn a) with shrinks | ⟨c, reservation, same, -, free⟩
  · refine iff_of_true (exclusive.shrink shrinks) ?_
    intro c d r other reserved fresh
    exact absurd (shrinks c r (mem_holdings.mpr (.inr reserved))) fresh
  · constructor
    · intro after e d r other reserved fresh held
      have taken : r ∈ (s.next a).occupancy.holdings e := mem_holdings.mpr (.inr reserved)
      have mine : e = c := by
        by_contra another
        rw [same, holdings_reserve_of_ne another] at taken
        exact fresh taken
      subst mine
      have still : r ∈ (s.next a).occupancy.holdings d := by
        rw [same, holdings_reserve_of_ne (Ne.symm other)]
        exact held
      exact absurd still (after e d other r taken)
    · intro attentive
      have reserved : (s.next a).occupancy.reserved c = reservation.expanded := by
        rw [same, reserved_of_get? Table.get?_insert_self]
      rw [same]
      apply Exclusive.reserve (o := s.occupancy.withoutDeferred c) exclusive free
      intro d r other new before held
      exact attentive c d r (Ne.symm other) (reserved ▸ new) before held

theorem exclusive_run {s : Scheduler} {actions : List Action} (exclusive : s.occupancy.Exclusive)
    (heads : s.occupancy.ReservesHeads) (attentive : Along Attentive s actions) :
    (s.run actions).occupancy.Exclusive := by
  have both : (s.run actions).occupancy.Exclusive ∧ (s.run actions).occupancy.ReservesHeads := by
    refine run_induction (P := fun s => s.occupancy.Exclusive ∧ s.occupancy.ReservesHeads)
      ?_ ⟨exclusive, heads⟩ attentive
    intro s a h attentive
    obtain ⟨exclusive, heads⟩ := h
    exact ⟨(exclusive_next_iff exclusive heads a).mpr attentive, reservesHeads_next heads a⟩
  exact both.1

theorem claim_vacates {s : Scheduler} {client : ClientId} {claims : List ResourceSet}
    {reservation : Reservation} (heads : s.occupancy.ReservesHeads)
    (valid : claims.findSome? (claimFault? s.plant.current client) = none)
    (present : s.occupancy.reservations.get? client = some reservation)
    (other : claims.head? ≠ some reservation.request) :
    (s.next (.claim client claims)).occupancy.holders =
        vacate s.occupancy.holders reservation.expanded ∧
      (s.next (.claim client claims)).occupancy.owned client = s.occupancy.owned client := by
  have known := heads.registered present
  have stale : (s.occupancy.setClaims client claims).staleReservation? client =
      some reservation := by
    rw [staleReservation?, claimHead?]
    simp only [setClaims, Table.get?_insert_self, Option.bind_some, present]
    exact Option.filter_eq_some_iff.mpr ⟨rfl, by simpa using other⟩
  simp only [next, claim, valid, known, if_true, cancelStale, stale, after]
  exact ⟨rfl, rfl⟩

theorem release_vacates {s : Scheduler} {client : ClientId} {resources freed : ResourceSet}
    {o : Occupancy} (nonempty : resources.isEmpty = false)
    (h : s.occupancy.release s.plant.current client resources = .ok (freed, o)) :
    (s.next (.release client resources)).occupancy.holders = vacate s.occupancy.holders freed ∧
      (s.next (.release client resources)).occupancy.reserved client =
        s.occupancy.reserved client := by
  obtain ⟨held, -, -, same⟩ := release_ok h
  simp only [next, release, nonempty, h, after, same]
  exact ⟨rfl, rfl⟩

theorem careful_of_tracked {s : Scheduler} {a : Action} (heads : s.occupancy.ReservesHeads)
    (tracked : (s.next a).occupancy.Tracked) : Careful s a := by
  cases a with
  | claim client claims =>
    intro valid reservation present other r given owned
    obtain ⟨holders, same⟩ := claim_vacates heads valid present other
    have held := tracked client r (mem_holdings.mpr (.inl (same ▸ owned)))
    rw [holder?, holders, get?_vacate, if_pos given] at held
    cases held
  | release client resources =>
    intro nonempty freed o h r given reserved
    obtain ⟨holders, same⟩ := release_vacates nonempty h
    have held := tracked client r (mem_holdings.mpr (.inr (same ▸ reserved)))
    rw [holder?, holders, get?_vacate, if_pos given] at held
    cases held
  | _ => exact True.intro

theorem tracked_ofPlant (plant : PlantVersions) (clock : Clock) :
    (ofPlant plant clock).occupancy.Tracked := by
  intro client r member
  rcases mem_holdings.mp member with none | none <;> exact absurd none OrderedSet.not_mem_empty

theorem tracked_run {s : Scheduler} {actions : List Action} (tracked : s.occupancy.Tracked)
    (heads : s.occupancy.ReservesHeads) (careful : Along Careful s actions) :
    (s.run actions).occupancy.Tracked := by
  have both : (s.run actions).occupancy.Tracked ∧ (s.run actions).occupancy.ReservesHeads := by
    refine run_induction (P := fun s => s.occupancy.Tracked ∧ s.occupancy.ReservesHeads)
      ?_ ⟨tracked, heads⟩ careful
    intro s a h careful
    obtain ⟨tracked, heads⟩ := h
    exact ⟨tracked_turn tracked heads careful (s.turn a), reservesHeads_next heads a⟩
  exact both.1

theorem along_careful_of_tracked {plant : PlantVersions} {clock : Clock} {actions : List Action}
    (tracked : ∀ done, done <+: actions → ((ofPlant plant clock).run done).occupancy.Tracked) :
    Along Careful (ofPlant plant clock) actions := by
  apply along_of_prefixes
  intro done a start
  apply careful_of_tracked (reservesHeads_run (reservesHeads_ofPlant plant clock) done)
  rw [← run_snoc]
  exact tracked (done ++ [a]) start

theorem along_attentive_of_exclusive {plant : PlantVersions} {clock : Clock} {actions : List Action}
    (exclusive : ∀ done, done <+: actions → ((ofPlant plant clock).run done).occupancy.Exclusive) :
    Along Attentive (ofPlant plant clock) actions := by
  apply along_of_prefixes
  intro done a start
  have heads := reservesHeads_run (reservesHeads_ofPlant plant clock) done
  have before := exclusive done ((List.prefix_append done [a]).trans start)
  apply (exclusive_next_iff before heads a).mp
  rw [← run_snoc]
  exact exclusive (done ++ [a]) start

/-- Clients never hold the same resource exactly as long as nothing is reserved that is held without
    being entered so. What is held stays entered exactly as long as clients are careful; and when
    they are, no two of them ever hold the same resource. -/
theorem exclusive_iff_attentive (plant : PlantVersions) (clock : Clock) (actions : List Action) :
    ((∀ done, done <+: actions → ((ofPlant plant clock).run done).occupancy.Exclusive) ↔
        Along Attentive (ofPlant plant clock) actions) ∧
      ((∀ done, done <+: actions → ((ofPlant plant clock).run done).occupancy.Tracked) ↔
        Along Careful (ofPlant plant clock) actions) ∧
      (Along Careful (ofPlant plant clock) actions →
        ∀ done, done <+: actions → ((ofPlant plant clock).run done).occupancy.Exclusive) := by
  have heads := reservesHeads_ofPlant plant clock
  have start := tracked_ofPlant plant clock
  have sufficient : Along Careful (ofPlant plant clock) actions →
      ∀ done, done <+: actions → ((ofPlant plant clock).run done).occupancy.Tracked :=
    fun careful done earlier => tracked_run start heads (careful.earlier earlier)
  refine ⟨⟨along_attentive_of_exclusive, ?_⟩, ⟨along_careful_of_tracked, sufficient⟩, ?_⟩
  · intro attentive done earlier
    exact exclusive_run start.exclusive heads (attentive.earlier earlier)
  · intro careful done earlier
    exact (sufficient careful done earlier).exclusive

theorem exclusive_corridor :
    let actions : List Action := [.register ⟨"v1"⟩ 0, .register ⟨"v2"⟩ 1,
      .claim ⟨"v1"⟩ [.ofList [.point ⟨0⟩]], .claim ⟨"v2"⟩ [.ofList [.point ⟨1⟩]],
      .allocate ⟨"v1"⟩ (.ofList [.point ⟨0⟩]), .allocate ⟨"v2"⟩ (.ofList [.point ⟨1⟩]),
      .work, .work, .answer true, .answer true, .work, .work, .answer true, .answer true]
    ((ofPlant corridor).run actions).occupancy.Exclusive ∧
      .point ⟨0⟩ ∈ ((ofPlant corridor).run actions).occupancy.holdings ⟨"v1"⟩ ∧
      .point ⟨1⟩ ∈ ((ofPlant corridor).run actions).occupancy.holdings ⟨"v2"⟩ := by
  intro actions
  have careful : Along Careful (ofPlant corridor) actions := by
    refine ⟨True.intro, True.intro, ?_, ?_, ?_⟩
    · intro _ reservation present
      cases present
    · intro _ reservation present
      have unreserved : ((ofPlant corridor).run (actions.take 3)).occupancy.reservations.get?
          ⟨"v2"⟩ = none := by cbv
      cases unreserved.symm.trans present
    · simp only [Along, Careful, and_self]
  exact ⟨(exclusive_iff_attentive corridor .counting actions).2.2 careful actions List.prefix_rfl,
    by decide_cbv, by decide_cbv⟩

/-- A client that holds a point has it reserved once more, and claims something else instead: the
    next one is given the point as well. -/
theorem not_exclusive_of_reclaim :
    ¬ ((ofPlant corridor).run [.register ⟨"v1"⟩ 0, .register ⟨"v2"⟩ 1,
      .claim ⟨"v1"⟩ [.ofList [.point ⟨0⟩], .ofList [.point ⟨0⟩]],
      .allocate ⟨"v1"⟩ (.ofList [.point ⟨0⟩]), .work, .work, .answer true, .answer true,
      .allocate ⟨"v1"⟩ (.ofList [.point ⟨0⟩]), .work, .claim ⟨"v1"⟩ [.ofList [.point ⟨1⟩]],
      .claim ⟨"v2"⟩ [.ofList [.point ⟨0⟩]], .allocate ⟨"v2"⟩ (.ofList [.point ⟨0⟩]),
      .work, .work, .answer true, .work, .work]).occupancy.Exclusive := by
  intro exclusive
  have apart : (⟨"v1"⟩ : ClientId) ≠ ⟨"v2"⟩ := by decide
  exact exclusive _ _ apart (.point ⟨0⟩) (by decide_cbv) (by decide_cbv)

end Scheduler

end TrafficControl
