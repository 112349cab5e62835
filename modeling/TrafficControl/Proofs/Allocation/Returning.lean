import TrafficControl.Proofs.Allocation.BlockHolder
import TrafficControl.Proofs.Allocation.Entries
import TrafficControl.Proofs.Allocation.Exclusion
import TrafficControl.Proofs.Plant.Expansion

namespace TrafficControl

namespace Plant

variable {p : Plant} {set : ResourceSet}

/-- What is given up by naming a set: what it comes to, or the set as it is if the plant does not
    define all of it. -/
def givenUp (p : Plant) (set : ResourceSet) : ResourceSet :=
  match p.expand set with
  | .ok expanded => expanded
  | .error _ => set

theorem givenUp_of_undefined {r : Resource} (member : r ∈ set) (undefined : p.defines r = false) :
    p.givenUp set = set := by
  cases expansion : p.expand set with
  | error => rw [givenUp, expansion]
  | ok expanded =>
    have defined := expand_ok_iff.mp ⟨expanded, expansion⟩ r member
    rw [undefined] at defined
    cases defined

theorem expand_eq_givenUp (defined : ∀ r, r ∈ set → p.defines r = true) :
    p.expand set = .ok (p.givenUp set) := by
  obtain ⟨expanded, expansion⟩ := expand_ok_iff.mpr defined
  rw [givenUp, expansion]

theorem givenUp_elements (elements : ∀ r, r ∈ set → r.isBlock = false) : p.givenUp set = set := by
  by_cases defined : ∀ r, r ∈ set → p.defines r = true
  · have whole := expand_eq_givenUp defined
    rw [expand_elements defined elements] at whole
    exact (Except.ok.inj whole).symm
  · obtain ⟨r, missing⟩ := not_forall.mp defined
    obtain ⟨member, undefined⟩ := Classical.not_imp.mp missing
    exact givenUp_of_undefined member (Bool.eq_false_of_not_eq_true undefined)

end Plant

namespace Occupancy

variable {o o' : Occupancy} {p : Plant} {c : ClientId} {set held : ResourceSet}

/-- Clients have points and paths allocated and reserved, and never blocks. -/
def HoldsElements (o : Occupancy) : Prop := ∀ c r, r ∈ o.holdings c → r.isBlock = false

theorem HoldsElements.shrink (elements : o.HoldsElements) (shrinks : o.Shrinks o') :
    o'.HoldsElements :=
  fun d r member => elements d r (shrinks d r member)

theorem HoldsElements.reserve (elements : o.HoldsElements) {reservation : Reservation}
    (expansion : p.expand reservation.request = .ok reservation.expanded) :
    (o.reserve c reservation).HoldsElements := by
  intro d r member
  by_cases same : d = c
  · subst same
    rw [mem_holdings, reserved_of_get? Table.get?_insert_self] at member
    rcases member with mine | taken
    · exact elements d r (mem_holdings.mpr (.inl mine))
    · exact ((Plant.mem_expand expansion).mp taken).1
  · exact elements d r (holdings_reserve_of_ne same ▸ member)

theorem release_eq (o : Occupancy) (p : Plant) (c : ClientId) (set : ResourceSet) :
    o.release p c set = match o.allocated.get? c with
      | none => .error (.unknownClient c)
      | some held =>
        if (p.givenUp set).subset held then
          .ok (p.givenUp set, { o with
            allocated := o.allocated.insert c (held.diff (p.givenUp set))
            holders := vacate o.holders (p.givenUp set) })
        else .error (.notAllocated c set) := rfl

end Occupancy

namespace Scheduler

open Occupancy

variable {s t : Scheduler} {c : ClientId} {set held : ResourceSet}

theorem holdsElements_run (plant : PlantVersions) (clock : Clock) (actions : List Action) :
    ((ofPlant plant clock).run actions).occupancy.HoldsElements := by
  have both : ((ofPlant plant clock).run actions).occupancy.HoldsElements ∧
      ((ofPlant plant clock).run actions).occupancy.ReservesHeads := by
    refine run_invariant (P := fun s => s.occupancy.HoldsElements ∧ s.occupancy.ReservesHeads) ?_
      ⟨?_, reservesHeads_ofPlant plant clock⟩ actions
    · intro s a h
      obtain ⟨elements, heads⟩ := h
      refine ⟨?_, reservesHeads_next heads a⟩
      rcases holdings_turn heads (s.turn a) with shrinks | ⟨c, reservation, same, expansion, -⟩
      · exact elements.shrink shrinks
      · rw [same]
        exact HoldsElements.reserve (o := s.occupancy.withoutDeferred c) elements expansion
    · intro c r member
      rcases mem_holdings.mp member with none | none <;> exact absurd none OrderedSet.not_mem_empty
  exact both.1

/-- The client gives up just these resources. They are free then, which is made known and wakes up
    those who wait, and nothing else changes. -/
structure GivesBack (s t : Scheduler) (client : ClientId) (set : ResourceSet) : Prop where
  accepted : s.release client set = .ok t
  freed : s.occupancy.release s.plant.current client set = .ok (set, t.occupancy)
  told : t.journal = s.journal ++ [.told (.released client set)]
  agenda : t.agenda = s.agenda.push (.released set) client
  account : t.occupancy.allocated.get? client = some ((s.occupancy.owned client).diff set)
  others : ∀ d, d ≠ client → t.occupancy.allocated.get? d = s.occupancy.allocated.get? d
  holders : ∀ r, t.occupancy.holder? r = if r ∈ set then none else s.occupancy.holder? r
  claims : t.occupancy.claims = s.occupancy.claims
  deferred : t.occupancy.deferred = s.occupancy.deferred
  reservations : t.occupancy.reservations = s.occupancy.reservations

theorem givesBack_of_elements (present : s.occupancy.allocated.get? c = some held)
    (inside : ∀ r, r ∈ set → r ∈ held) (elements : ∀ r, r ∈ set → r.isBlock = false)
    (nonempty : set.isEmpty = false) : ∃ t, s.GivesBack t c set := by
  have freed : s.occupancy.release s.plant.current c set = .ok (set, { s.occupancy with
      allocated := s.occupancy.allocated.insert c (held.diff set)
      holders := vacate s.occupancy.holders set }) := by
    have inside := OrderedSet.subset_iff.mpr inside
    simp only [release_eq, present, Plant.givenUp_elements elements, inside, if_true]
  have owned : s.occupancy.owned c = held := by rw [Occupancy.owned, present, Option.getD_some]
  refine ⟨({ s with occupancy := _ }.tell (.released c set)).push (.released set) c,
    ?_, freed, rfl, rfl, ?_, ?_, ?_, rfl, rfl, rfl⟩
  · simp only [release, nonempty, freed]
    rfl
  · rw [owned]
    exact Table.get?_insert_self
  · exact fun d other => Table.get?_insert_of_ne other
  · exact fun r => get?_vacate

/-- What is allocated or reserved are points and paths, also after the plant was replaced. Whatever a
    client has been allocated it can give back in any parts, no matter how much of it the plant still
    defines: what it names is just what is freed, and nobody is entered for it any more. -/
theorem gives_back_allocated (plant : PlantVersions) (clock : Clock) (actions : List Action) :
    let s := (ofPlant plant clock).run actions
    (∀ c held, s.occupancy.allocated.get? c = some held → ∀ r, r ∈ held → r.isBlock = false) ∧
      (∀ c reservation, s.occupancy.reservations.get? c = some reservation →
        ∀ r, r ∈ reservation.expanded → r.isBlock = false) ∧
      ∀ c, s.occupancy.registered c = true →
        ∃ held, s.occupancy.allocated.get? c = some held ∧
          ∀ set : ResourceSet, set.isEmpty = false → (∀ r, r ∈ set → r ∈ held) →
            ∃ t, s.GivesBack t c set := by
  intro s
  have elements : s.occupancy.HoldsElements := holdsElements_run plant clock actions
  have accounts : ∀ c held, s.occupancy.allocated.get? c = some held →
      ∀ r, r ∈ held → r.isBlock = false := by
    intro c held present r member
    refine elements c r (mem_holdings.mpr (.inl ?_))
    rwa [Occupancy.owned, present, Option.getD_some]
  refine ⟨accounts, fun c reservation present r member => ?_, fun c known => ?_⟩
  · exact elements c r (mem_holdings.mpr (.inr (by rwa [reserved_of_get? present])))
  · rw [← (consistent_run plant clock actions).accounts c] at known
    obtain ⟨held, present⟩ := Table.contains_iff.mp known
    refine ⟨held, present, fun set nonempty inside => ?_⟩
    exact givesBack_of_elements present inside
      (fun r member => accounts c held present r (inside r member)) nonempty

theorem gives_back_allocated_ring :
    let actions : List Action := [.register ⟨"v1"⟩ 0,
      .claim ⟨"v1"⟩ [.ofList [.block ⟨0⟩, .block ⟨2⟩]],
      .allocate ⟨"v1"⟩ (.ofList [.block ⟨0⟩, .block ⟨2⟩]), .work, .work, .answer true,
      .answer true, .replace corridor.current]
    ((ofPlant ring).run actions).occupancy.allocated.get? ⟨"v1"⟩ =
        some (.ofList [.point ⟨0⟩, .point ⟨1⟩, .path ⟨1⟩]) ∧
      ((ofPlant ring).run actions).plant.current.defines (.point ⟨1⟩) = true ∧
      ((ofPlant ring).run actions).plant.current.defines (.path ⟨1⟩) = false ∧
      ∃ t, ((ofPlant ring).run actions).GivesBack t ⟨"v1"⟩ (.ofList [.point ⟨1⟩, .path ⟨1⟩]) ∧
        t.occupancy.allocated.get? ⟨"v1"⟩ = some (.ofList [.point ⟨0⟩]) := by
  intro actions
  have known : ((ofPlant ring).run actions).occupancy.registered ⟨"v1"⟩ = true := by decide_cbv
  have granted : ((ofPlant ring).run actions).occupancy.allocated.get? ⟨"v1"⟩ =
      some (.ofList [.point ⟨0⟩, .point ⟨1⟩, .path ⟨1⟩]) := by decide_cbv
  obtain ⟨held, present, returns⟩ := (gives_back_allocated ring .counting actions).2.2 ⟨"v1"⟩ known
  cases granted.symm.trans present
  obtain ⟨t, back⟩ := returns (.ofList [.point ⟨1⟩, .path ⟨1⟩]) (by decide_cbv)
    (OrderedSet.subset_iff.mp (by decide_cbv))
  refine ⟨granted, by decide_cbv, by decide_cbv, t, back, ?_⟩
  rw [back.account, Occupancy.owned, granted]
  decide_cbv

end Scheduler

end TrafficControl
