import TrafficControl.Plant.Versions

namespace TrafficControl

namespace Layout

theorem modify_of_fixed {α : Type} {l : List α} {i : Nat} {f : α → α}
    (fixed : ∀ a, l[i]? = some a → f a = a) : l.modify i f = l := by
  apply List.ext_getElem?
  intro j
  rw [List.getElem?_modify]
  by_cases here : i = j
  · subst here
    cases found : l[i]? with
    | none => rfl
    | some a => simp [fixed a found]
  · cases l[j]? <;> simp [here]

variable {l : Layout} {path : PathId} {locked : Bool}

theorem setLocked_setLocked {first : Bool} :
    (l.setLocked path first).setLocked path locked = l.setLocked path locked := by
  simp only [setLocked, adjustPath, List.modify_modify_eq]
  rfl

theorem setLocked_of_already (already : ∀ p, l.paths[path.index]? = some p → p.locked = locked) :
    l.setLocked path locked = l := by
  have paths : l.paths.modify path.index (fun p => { p with locked }) = l.paths := by
    apply modify_of_fixed
    intro p found
    rw [← already p found]
  simp only [setLocked, adjustPath, paths]

end Layout

namespace Plant

variable {p q : Plant} {path : PathId} {locked : Bool}

theorem eq_of_layout (same : p.layout = q.layout) (spatial : p.spatial = q.spatial) : p = q := by
  obtain ⟨l, index, _, incidence, hi, memberships, hm⟩ := p
  obtain ⟨_, _, _, incidence', hi', memberships', hm'⟩ := q
  cases same
  cases spatial
  cases hi.trans hi'.symm
  cases hm.trans hm'.symm
  rfl

theorem pathLocked_eq_false : p.pathLocked path = false ↔
    ∀ found, p.path? path = some found → found.locked = false := by
  unfold pathLocked
  cases p.path? path <;> simp

theorem withLocked_ok (h : p.withLocked path locked = .ok q) :
    q.layout = p.layout.setLocked path locked := by
  unfold withLocked at h
  split at h
  · cases h
  · cases h
    rfl

theorem spatial_withLocked (h : p.withLocked path locked = .ok q) : q.spatial = p.spatial := by
  unfold withLocked at h
  split at h <;> cases h
  rfl

theorem withLocked_error {fault : PlantFault} (h : p.withLocked path locked = .error fault) :
    p.path? path = none := by
  unfold withLocked at h
  split at h
  · assumption
  · cases h

section Changed

variable (changed : q.layout = p.layout.setLocked path locked)

include changed

theorem point?_locked : q.point? = p.point? := by
  funext id
  rw [point?, changed]
  rfl

theorem defines_point_locked (id : PointId) : q.defines (.point id) = p.defines (.point id) := by
  rw [defines, changed]
  rfl

theorem path?_locked (id : PathId) : q.path? id =
    (p.path? id).map fun found => if id = path then { found with locked } else found := by
  have index : path.index = id.index ↔ id = path :=
    ⟨fun same => by cases id; cases path; exact congrArg Ident.mk same.symm,
      fun same => congrArg Ident.index same.symm⟩
  rw [path?, changed]
  simp only [Layout.setLocked, Layout.adjustPath, List.getElem?_modify, index]
  rfl

end Changed

end Plant

namespace PlantVersions

variable (v : PlantVersions) (path : PathId) (locked : Bool)

def afterLock : PlantVersions :=
  match v.setLocked path locked with
  | .ok next => next
  | .error _ => v

/-- Whether the path was so already, is changed or does not exist, the layout is the one drawn. -/
theorem layout_afterLock :
    (v.afterLock path locked).current.layout = v.current.layout.setLocked path locked := by
  unfold afterLock setLocked
  split
  · rename_i next changed
    split at changed
    · rename_i already
      cases changed
      refine (Layout.setLocked_of_already fun found present => ?_).symm
      have found : v.current.path? path = some found := present
      simpa [found] using already
    · split at changed
      · cases changed
      · rename_i current set
        cases changed
        exact Plant.withLocked_ok set
  · rename_i fault refused
    split at refused
    · cases refused
    · split at refused
      · rename_i fault' missing
        refine (Layout.setLocked_of_already fun found present => ?_).symm
        have none : v.current.path? path = none := Plant.withLocked_error missing
        cases present.symm.trans none
      · cases refused

theorem spatial_afterLock : (v.afterLock path locked).current.spatial = v.current.spatial := by
  unfold afterLock setLocked
  split
  · rename_i changed
    split at changed
    · cases changed
      rfl
    · split at changed <;> cases changed
      rename_i set
      exact Plant.spatial_withLocked set
  · rfl

theorem current_relock (unlocked : v.current.pathLocked path = false) :
    ((v.afterLock path true).afterLock path false).current = v.current := by
  apply Plant.eq_of_layout
  · rw [layout_afterLock, layout_afterLock, Layout.setLocked_setLocked]
    exact Layout.setLocked_of_already fun found present =>
      Plant.pathLocked_eq_false.mp unlocked found present
  · rw [spatial_afterLock, spatial_afterLock]

end PlantVersions

end TrafficControl
