import TrafficControl.Proofs.Route.Kept
import TrafficControl.Transport.Splice

namespace TrafficControl

def Step.anywhere (s : Step) : Step := { s with index := 0 }

@[simp] theorem Step.anywhere_destination (s : Step) : s.anywhere.destination = s.destination := rfl

/-- The lists drive the same steps, whatever their numbers. -/
def SameSteps (l m : List Step) : Prop := l.map Step.anywhere = m.map Step.anywhere

theorem SameSteps.refl (l : List Step) : SameSteps l l := rfl

theorem SameSteps.getElem? {l m : List Step} (same : SameSteps l m) {k : Nat} {s : Step}
    (found : m[k]? = some s) : ∃ t, l[k]? = some t ∧ t.anywhere = s.anywhere := by
  have equal : (l.map Step.anywhere)[k]? = (m.map Step.anywhere)[k]? := by rw [same]
  rw [List.getElem?_map, List.getElem?_map, found, Option.map_some, Option.map_eq_some_iff] at equal
  exact equal

theorem SameSteps.take {l m : List Step} (same : SameSteps l m) (j : Nat) :
    SameSteps (l.take j) (m.take j) := by
  rw [SameSteps, List.map_take, List.map_take, same]

theorem sameSteps_renumber (l : List Step) : SameSteps (renumber l) l := by
  apply List.ext_getElem?
  intro k
  rw [List.getElem?_map, List.getElem?_map, renumber, List.getElem?_mapIdx, Option.map_map]
  rfl

section Splice

variable {old new steps : List Step} {p : PointId} {j : Nat}

theorem spliceSteps_ok (h : spliceSteps old new = .ok steps) :
    ∃ first branch, new.head? = some first ∧
      (old.findIdx? fun s => s.source = first.source) = some branch ∧
        steps = renumber (old.take branch ++ new) := by
  cases new with
  | nil => cases h
  | cons first rest =>
    simp only [spliceSteps] at h
    split at h
    · cases h
    · rename_i branch found
      cases h
      exact ⟨first, branch, rfl, found, rfl⟩

/-- The first steps are kept exactly if none of them starts where the new way starts, given that the
    last of them ends there and that the new way never comes back. -/
theorem spliceSteps_keeps_iff (h : spliceSteps old new = .ok steps)
    (start : ∀ first, new.head? = some first → first.source = p)
    (away : ∀ s ∈ new, s.destination ≠ p) {last : Step} (reached : old[j]? = some last)
    (meets : last.destination = p) :
    SameSteps (steps.take (j + 1)) (old.take (j + 1)) ↔ ∀ s ∈ old.take (j + 1), s.source ≠ p := by
  obtain ⟨first, branch, head, found, rfl⟩ := spliceSteps_ok h
  rw [start first head, List.findIdx?_eq_some_iff_getElem] at found
  obtain ⟨inside, here, before⟩ := found
  have here : old[branch].source = p := of_decide_eq_true here
  have long : (old.take branch).length = branch := List.length_take_of_le (Nat.le_of_lt inside)
  constructor
  · intro same s sent back
    obtain ⟨k, low, rfl⟩ := List.mem_take_iff_getElem.mp sent
    -- the branch is where the vehicle came by before, so the step that led to `p` is lost
    have early : branch ≤ k := by
      apply Nat.le_of_not_lt
      intro less
      have other := before k less
      simp [back] at other
    have last' : (old.take (j + 1))[j]? = some last := by
      rw [List.getElem?_take_of_lt (Nat.lt_succ_self j), reached]
    have drives : SameSteps ((old.take branch ++ new).take (j + 1)) (old.take (j + 1)) :=
      ((sameSteps_renumber _).take _).symm.trans same
    obtain ⟨t, there, equal⟩ := drives.getElem? last'
    rw [List.getElem?_take_of_lt (Nat.lt_succ_self j),
      List.getElem?_append_right (by omega)] at there
    have comes : t.destination = p := by
      rw [← meets, ← t.anywhere_destination, equal, last.anywhere_destination]
    exact away t (List.mem_of_getElem? there) comes
  · intro clear
    have late : j + 1 ≤ branch := by
      apply Nat.le_of_not_lt
      intro less
      have sent : old[branch] ∈ old.take (j + 1) :=
        List.mem_take_iff_getElem.mpr ⟨branch, by omega, rfl⟩
      exact clear _ sent here
    have kept : (old.take branch ++ new).take (j + 1) = old.take (j + 1) := by
      rw [List.take_append_of_le_length (by omega), List.take_take, Nat.min_eq_left late]
    exact kept ▸ (sameSteps_renumber _).take _

end Splice

section Numbers

variable {l l' m m' k old old' new new' steps : List Step}

theorem SameSteps.symm (same : SameSteps l m) : SameSteps m l := Eq.symm same

theorem SameSteps.trans (first : SameSteps l m) (second : SameSteps m k) : SameSteps l k :=
  Eq.trans first second

theorem SameSteps.append (first : SameSteps l l') (second : SameSteps m m') :
    SameSteps (l ++ m) (l' ++ m') := by
  rw [SameSteps, List.map_append, List.map_append, first, second]

theorem renumber_congr (same : SameSteps l m) : renumber l = renumber m := by
  apply List.ext_getElem?
  intro i
  have place : (l.map Step.anywhere)[i]? = (m.map Step.anywhere)[i]? := by rw [same]
  have numbered := congrArg (Option.map fun s : Step => { s with index := i }) place
  rw [List.getElem?_map, List.getElem?_map, Option.map_map, Option.map_map] at numbered
  rw [renumber, renumber, List.getElem?_mapIdx, List.getElem?_mapIdx]
  exact numbered

theorem SameSteps.findIdx? (same : SameSteps l m) (p : PointId) :
    l.findIdx? (fun s => s.source = p) = m.findIdx? (fun s => s.source = p) := by
  have factor (l : List Step) : l.findIdx? (fun s => s.source = p) =
      (l.map Step.anywhere).findIdx? (fun s => s.source = p) := by
    rw [List.findIdx?_map]
    rfl
  rw [factor l, factor m, same]

theorem spliceSteps_congr (olds : SameSteps old old') (news : SameSteps new new') :
    spliceSteps old new = spliceSteps old' new' := by
  cases new with
  | nil =>
    cases List.map_eq_nil_iff.mp (Eq.symm news)
    rfl
  | cons first rest =>
    obtain ⟨first', rest', rfl, meets, -⟩ := List.map_eq_cons_iff.mp (Eq.symm news)
    have source : first'.source = first.source := congrArg (fun s => s.source) meets
    simp only [spliceSteps, source, olds.findIdx? first.source]
    split
    · rfl
    · rw [renumber_congr ((olds.take _).append news)]

theorem spliceSteps_again (h : spliceSteps old new = .ok steps) :
    spliceSteps steps new = .ok steps := by
  obtain ⟨first, branch, head, found, rfl⟩ := spliceSteps_ok h
  obtain ⟨rest, rfl⟩ := List.head?_eq_some_iff.mp head
  rw [spliceSteps_congr (sameSteps_renumber _) (.refl _)]
  obtain ⟨inside, -⟩ := List.findIdx?_eq_some_iff_findIdx_eq.mp found
  have long : (old.take branch).length = branch := List.length_take_of_le (Nat.le_of_lt inside)
  have again : (old.take branch ++ first :: rest).findIdx? (fun s => s.source = first.source) =
      some branch := by
    rw [List.findIdx?_append, List.findIdx?_take, found, long]
    simp [Option.guard, List.findIdx?_cons]
  simp only [spliceSteps, again, List.take_left' long]

theorem getLast?_spliceSteps (h : spliceSteps old new = .ok steps) :
    steps.getLast?.map (·.destination) = new.getLast?.map (·.destination) := by
  obtain ⟨first, branch, head, -, rfl⟩ := spliceSteps_ok h
  obtain ⟨rest, rfl⟩ := List.head?_eq_some_iff.mp head
  rw [renumber, List.getLast?_mapIdx, List.getLast?_append, List.getLast?_cons, Option.some_or]
  rfl

end Numbers

namespace Router

variable {r : Router} {v : Vehicle} {old new spliced : DriveOrder}

theorem splice_router (r : Router) (v : Vehicle) (old new : DriveOrder) :
    (r.splice v old new).2 = r ∨ ∃ p q, (r.splice v old new).2 = (r.cost v p q).2 := by
  simp only [Router.splice]
  split
  · exact .inl rfl
  · split
    · rename_i first last _ _
      refine .inr ⟨first.source, last.destination, ?_⟩
      split <;> (rename_i asked; rw [asked])
    · exact .inl rfl

theorem Sound.splice (sound : r.Sound) (v : Vehicle) (old new : DriveOrder) :
    (r.splice v old new).2.Sound := by
  rcases r.splice_router v old new with same | ⟨p, q, asked⟩
  · rwa [same]
  · rw [asked]
    exact sound.cost v p q

theorem splice_ok (h : (r.splice v old new).1 = .ok spliced) :
    spliceSteps old.steps new.steps = .ok spliced.steps := by
  simp only [Router.splice] at h
  split at h
  · cases h
  · rename_i steps joined
    split at h
    · split at h
      · cases h
      · cases h
        exact joined
    · cases h

end Router

end TrafficControl
