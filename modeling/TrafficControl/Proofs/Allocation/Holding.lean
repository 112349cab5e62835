import TrafficControl.Allocation.Occupancy
import TrafficControl.Proofs.Plant.Closure

namespace TrafficControl

namespace Occupancy

variable {o o' : Occupancy} {p : Plant} {c d : ClientId} {r : Resource}

def reserved (o : Occupancy) (client : ClientId) : ResourceSet :=
  match o.reservations.get? client with
  | some reservation => reservation.expanded
  | none => ∅

def owned (o : Occupancy) (client : ClientId) : ResourceSet := (o.allocated.get? client).getD ∅

def holdings (o : Occupancy) (client : ClientId) : ResourceSet :=
  (o.owned client).union (o.reserved client)

theorem mem_holdings : r ∈ o.holdings c ↔ r ∈ o.owned c ∨ r ∈ o.reserved c :=
  OrderedSet.mem_union

theorem reserved_of_get? {reservation : Reservation}
    (h : o.reservations.get? c = some reservation) : o.reserved c = reservation.expanded := by
  simp only [reserved, h]

theorem reserved_of_none (h : o.reservations.get? c = none) : o.reserved c = ∅ := by
  simp only [reserved, h]

theorem owned_some (h : r ∈ o.owned c) : ∃ held, o.allocated.get? c = some held ∧ r ∈ held := by
  cases present : o.allocated.get? c with
  | some held =>
    rw [owned, present] at h
    exact ⟨held, rfl, h⟩
  | none =>
    rw [owned, present] at h
    exact absurd h OrderedSet.not_mem_empty

theorem reserved_some (h : r ∈ o.reserved c) :
    ∃ reservation, o.reservations.get? c = some reservation ∧ r ∈ reservation.expanded := by
  cases present : o.reservations.get? c with
  | some reservation =>
    rw [reserved_of_get? present] at h
    exact ⟨reservation, rfl, h⟩
  | none =>
    rw [reserved_of_none present] at h
    exact absurd h OrderedSet.not_mem_empty

theorem owned_congr (h : o'.allocated.get? c = o.allocated.get? c) : o'.owned c = o.owned c := by
  simp only [owned, h]

theorem reserved_congr (h : o'.reservations.get? c = o.reservations.get? c) :
    o'.reserved c = o.reserved c := by
  simp only [reserved, h]

theorem heldByOther_iff : o.heldByOther c r = true ↔ ∃ d, o.holder? r = some d ∧ d ≠ c := by
  simp only [heldByOther, Option.any_eq_true, decide_eq_true_eq]

theorem get?_vacate {holders : Table Resource ClientId} {freed : ResourceSet} :
    (vacate holders freed).get? r = if r ∈ freed then none else holders.get? r := by
  rw [vacate, Table.get?_filter]
  by_cases member : r ∈ freed <;> cases holders.get? r <;> simp [member, Option.filter]

theorem get?_foldl_insert {l : List Resource} {holders : Table Resource ClientId} :
    (l.foldl (fun h r => h.insert r c) holders).get? r =
      if r ∈ l then some c else holders.get? r := by
  induction l generalizing holders with
  | nil => simp
  | cons s rest ih =>
    rw [List.foldl_cons, ih, Table.get?_insert]
    by_cases here : r = s
    · simp [here]
    · simp [here]

theorem holder?_reserve {reservation : Reservation} :
    (o.reserve c reservation).holder? r =
      if r ∈ reservation.expanded then some c else o.holder? r := get?_foldl_insert

theorem register?_some (h : o.register? c = some o') :
    o.registered c = false ∧
      o' = { o with claims := o.claims.insert c [], allocated := o.allocated.insert c ∅ } := by
  simp only [register?] at h
  split at h
  · cases h
  · rename_i fresh
    exact ⟨by simpa using fresh, (Option.some.inj h).symm⟩

theorem unregister?_some {freed : ResourceSet} (h : o.unregister? c = some (freed, o')) :
    o.registered c = true ∧ freed = o.holdings c ∧ o' = {
      claims := o.claims.erase c
      allocated := o.allocated.erase c
      holders := vacate o.holders (o.holdings c)
      deferred := o.deferred.erase c
      reservations := o.reservations.erase c } := by
  simp only [unregister?] at h
  split at h
  · rename_i known
    cases present : o.reservations.get? c with
    | none =>
      have same : o.holdings c = (o.allocated.get? c).getD ∅ := by
        rw [holdings, reserved_of_none present]
        rfl
      simp only [present] at h
      cases h
      exact ⟨known, same.symm, by rw [same]⟩
    | some reservation =>
      have same : o.holdings c =
          ((o.allocated.get? c).getD ∅).union reservation.expanded := by
        rw [holdings, reserved_of_get? present]
        rfl
      simp only [present] at h
      cases h
      exact ⟨known, same.symm, by rw [same]⟩
  · cases h

theorem cancelStale_none (h : o.cancelStale c = (none, o')) :
    o' = o ∧ ∀ reservation, o.reservations.get? c = some reservation →
      o.claimHead? c = some reservation.request := by
  simp only [cancelStale] at h
  split at h
  · rename_i fresh
    cases h
    refine ⟨rfl, fun reservation present => ?_⟩
    rw [staleReservation?, present] at fresh
    simpa [Option.filter] using fresh
  · cases h

theorem cancelStale_some {cancelled : Reservation} (h : o.cancelStale c = (some cancelled, o')) :
    o.reservations.get? c = some cancelled ∧ o.claimHead? c ≠ some cancelled.request ∧
      o' = { o with
        holders := vacate o.holders cancelled.expanded
        reservations := o.reservations.erase c } := by
  simp only [cancelStale] at h
  split at h
  · cases h
  · rename_i reservation stale
    cases h
    obtain ⟨present, other⟩ := Option.filter_eq_some_iff.mp stale
    exact ⟨present, by simpa using other, rfl⟩

theorem commit_stale {reservation : Reservation}
    (h : o.commit c = (some (.stale reservation), o')) :
    o.cancelStale c = (some reservation, o') := by
  simp only [commit] at h
  split at h
  · rename_i cancelled
    cases h
    exact cancelled
  · split at h <;> cases h

theorem commit_allocated {request : ResourceSet}
    (h : o.commit c = (some (.allocated request), o')) :
    ∃ reservation, o.reservations.get? c = some reservation ∧
      o.claimHead? c = some reservation.request ∧ reservation.request = request ∧
      o' = { o with
        claims := o.claims.insert c ((o.claims.get? c).getD []).tail
        allocated := o.allocated.insert c ((o.owned c).union reservation.expanded)
        reservations := o.reservations.erase c } := by
  simp only [commit] at h
  split at h
  · cases h
  · rename_i same cancelled
    obtain ⟨rfl, heads⟩ := cancelStale_none cancelled
    split at h
    · cases h
    · rename_i reservation present
      have head := heads reservation present
      cases h
      refine ⟨reservation, present, head, rfl, ?_⟩
      rw [claimHead?, Option.bind_eq_some_iff] at head
      obtain ⟨claims, known, -⟩ := head
      simp only [known, Option.getD_some, owned]

theorem release_ok {resources freed : ResourceSet}
    (h : o.release p c resources = .ok (freed, o')) :
    ∃ held, o.allocated.get? c = some held ∧ (∀ r, r ∈ freed → r ∈ held) ∧ o' = { o with
      allocated := o.allocated.insert c (held.diff freed)
      holders := vacate o.holders freed } := by
  simp only [release] at h
  cases expansion : p.expand resources
  all_goals
    simp only [expansion] at h
    split at h
    · cases h
    · rename_i held present
      split at h
      · rename_i inside
        cases h
        exact ⟨held, present, OrderedSet.subset_iff.mp inside, rfl⟩
      · cases h

variable {freed : ResourceSet}

theorem holdings_congr (owned : o'.owned c = o.owned c) (reserved : o'.reserved c = o.reserved c) :
    o'.holdings c = o.holdings c := by
  rw [holdings, holdings, owned, reserved]

/-- Nobody holds anything afterwards that it did not hold before. -/
def Shrinks (o o' : Occupancy) : Prop := ∀ d r, r ∈ o'.holdings d → r ∈ o.holdings d

theorem shrinks_register (h : o.register? c = some o') : o.Shrinks o' := by
  obtain ⟨-, rfl⟩ := register?_some h
  intro d r member
  rw [mem_holdings] at member ⊢
  refine member.imp_left fun owned => ?_
  rw [Occupancy.owned, Table.get?_insert] at owned
  split at owned
  · exact absurd owned OrderedSet.not_mem_empty
  · exact owned

theorem not_mem_holdings_unregister (h : o.unregister? c = some (freed, o')) (r : Resource) :
    ¬ r ∈ o'.holdings c := by
  obtain ⟨-, -, rfl⟩ := unregister?_some h
  rw [mem_holdings, owned, reserved, Table.get?_erase_self, Table.get?_erase_self]
  intro member
  rcases member with none | none <;> exact OrderedSet.not_mem_empty none

theorem holdings_unregister_of_ne (h : o.unregister? c = some (freed, o')) {d : ClientId}
    (other : d ≠ c) : o'.holdings d = o.holdings d := by
  obtain ⟨-, -, rfl⟩ := unregister?_some h
  exact holdings_congr (owned_congr (Table.get?_erase_of_ne other))
    (reserved_congr (Table.get?_erase_of_ne other))

theorem shrinks_unregister (h : o.unregister? c = some (freed, o')) : o.Shrinks o' := by
  intro d r member
  by_cases same : d = c
  · subst same
    exact absurd member (not_mem_holdings_unregister h r)
  · exact holdings_unregister_of_ne h same ▸ member

theorem holdings_cancel_of_ne {cancelled : Reservation}
    (h : o.cancelStale c = (some cancelled, o')) {d : ClientId} (other : d ≠ c) :
    o'.holdings d = o.holdings d := by
  obtain ⟨-, -, rfl⟩ := cancelStale_some h
  exact holdings_congr rfl (reserved_congr (Table.get?_erase_of_ne other))

theorem mem_holdings_cancel {cancelled : Reservation} {r : Resource}
    (h : o.cancelStale c = (some cancelled, o')) (member : r ∈ o'.holdings c) :
    r ∈ o.owned c := by
  obtain ⟨-, -, rfl⟩ := cancelStale_some h
  rw [mem_holdings, reserved, Table.get?_erase_self] at member
  exact member.resolve_right OrderedSet.not_mem_empty

theorem shrinks_cancel {cancelled : Reservation} (h : o.cancelStale c = (some cancelled, o')) :
    o.Shrinks o' := by
  intro d r member
  by_cases same : d = c
  · subst same
    exact mem_holdings.mpr (.inl (mem_holdings_cancel h member))
  · exact holdings_cancel_of_ne h same ▸ member

theorem holdings_release_of_ne {resources : ResourceSet}
    (h : o.release p c resources = .ok (freed, o')) {d : ClientId} (other : d ≠ c) :
    o'.holdings d = o.holdings d := by
  obtain ⟨held, -, -, rfl⟩ := release_ok h
  exact holdings_congr (owned_congr (Table.get?_insert_of_ne other)) rfl

theorem mem_holdings_release {resources : ResourceSet} {r : Resource}
    (h : o.release p c resources = .ok (freed, o')) (member : r ∈ o'.holdings c) :
    (r ∈ o.owned c ∧ ¬ r ∈ freed) ∨ r ∈ o.reserved c := by
  obtain ⟨held, present, -, rfl⟩ := release_ok h
  rw [mem_holdings, owned, Table.get?_insert_self, Option.getD_some, OrderedSet.mem_diff] at member
  rwa [owned, present, Option.getD_some]

theorem shrinks_release {resources : ResourceSet}
    (h : o.release p c resources = .ok (freed, o')) : o.Shrinks o' := by
  intro d r member
  by_cases same : d = c
  · subst same
    exact mem_holdings.mpr ((mem_holdings_release h member).imp_left And.left)
  · exact holdings_release_of_ne h same ▸ member

theorem shrinks_commit {request : ResourceSet}
    (h : o.commit c = (some (.allocated request), o')) : o.Shrinks o' := by
  obtain ⟨reservation, present, -, -, rfl⟩ := commit_allocated h
  intro d r member
  by_cases same : d = c
  · subst same
    rw [mem_holdings, owned, Table.get?_insert_self, Option.getD_some, OrderedSet.mem_union,
      reserved, Table.get?_erase_self] at member
    rw [mem_holdings, reserved_of_get? present]
    exact member.resolve_right OrderedSet.not_mem_empty
  · rwa [holdings_congr (owned_congr (Table.get?_insert_of_ne same))
      (reserved_congr (Table.get?_erase_of_ne same))] at member

theorem holdings_reserve_of_ne {reservation : Reservation} {d : ClientId} (other : d ≠ c) :
    (o.reserve c reservation).holdings d = o.holdings d :=
  holdings_congr rfl (reserved_congr (Table.get?_insert_of_ne other))

theorem obstacle?_isSome_iff (elementary : r.isBlock = false) :
    (o.obstacle? p c r).isSome = true ↔ o.heldByOther c r = true ∨
      ∃ b, p.Includes (.block b) r ∧
        ∃ m, m.isBlock = false ∧ p.Includes (.block b) m ∧ o.heldByOther c m = true := by
  unfold obstacle?
  split
  · rename_i held
    simp [held]
  · rename_i free
    have free : o.heldByOther c r = false := by simpa using free
    simp only [List.findSome?_isSome_iff, List.find?_isSome, Plant.mem_enclosing,
      Plant.encloses_iff_includes elementary, free, Bool.false_eq_true, false_or]
    refine exists_congr fun b => and_congr_right fun _ => ?_
    simp only [← OrderedSet.mem_def, Plant.mem_zone, and_assoc]

theorem availability_busy {expanded : ResourceSet} {blocker : Resource}
    (h : o.availability p c expanded = .busy blocker) :
    ∃ r, r ∈ expanded ∧ (o.obstacle? p c r).isSome = true := by
  simp only [availability] at h
  split at h
  · cases h
  · split at h
    · rename_i found
      obtain ⟨r, member, obstacle⟩ := List.exists_of_findSome?_eq_some found
      exact ⟨r, member, by rw [obstacle]; rfl⟩
    · cases h

theorem heldByOther_of_obstacle {m : Resource} (h : o.obstacle? p c r = some m) :
    o.heldByOther c m = true := by
  unfold obstacle? at h
  split at h
  · rename_i held
    cases h
    exact held
  · obtain ⟨b, -, found⟩ := List.exists_of_findSome?_eq_some h
    exact List.find?_some found

theorem heldByOther_of_busy {expanded : ResourceSet} {blocker : Resource}
    (h : o.availability p c expanded = .busy blocker) : o.heldByOther c blocker = true := by
  simp only [availability] at h
  split at h
  · cases h
  · split at h
    · rename_i found
      cases h
      obtain ⟨r, -, obstacle⟩ := List.exists_of_findSome?_eq_some found
      exact heldByOther_of_obstacle obstacle
    · cases h

theorem availability_available {expanded : ResourceSet}
    (h : o.availability p c expanded = .available) :
    ∀ r, r ∈ expanded → p.isLocked r = false ∧ o.obstacle? p c r = none := by
  simp only [availability] at h
  split at h
  · cases h
  · rename_i unlocked
    split at h
    · cases h
    · rename_i free
      intro r member
      have unlocked := List.find?_eq_none.mp unlocked r member
      exact ⟨by simpa using unlocked, List.findSome?_eq_none_iff.mp free r member⟩

theorem heldByOther_of_available {expanded : ResourceSet}
    (h : o.availability p c expanded = .available) (member : r ∈ expanded) :
    o.heldByOther c r = false := by
  have free := (availability_available h r member).2
  unfold obstacle? at free
  split at free
  · cases free
  · rename_i unheld
    simpa using unheld

end Occupancy

end TrafficControl
