import TrafficControl.Plant.Basic

namespace TrafficControl

namespace Layout

/-- Points have different names, and so have paths; paths lead between points of the layout, and
    every block has members, all of them in the layout. -/
structure WellFormed (l : Layout) : Prop where
  points : (l.points.map (·.name)).Nodup
  paths : (l.paths.map (·.name)).Nodup
  ends : ∀ p ∈ l.paths,
    l.defines (.point p.source) = true ∧ l.defines (.point p.destination) = true
  blocks : ∀ b ∈ l.blocks, (∃ r, r ∈ b.members) ∧ ∀ r, r ∈ b.members → l.defines r = true

/-- The spatial index can keep the points. -/
def Sortable (l : Layout) (spatial : SpatialIndex) : Prop := spatial.keeps l.places = true

/-- The first thing wrong, the order of the points apart. -/
def draftFault? (l : Layout) : Option PlantFault :=
  ((firstRepeated [] (l.points.map (·.name))).map .duplicateName).or
    ((pathFault l.points.length 0 [] l.paths).or (l.blocks.findSome? l.blockFault))

variable {l : Layout} {spatial : SpatialIndex}

theorem fault?_eq : l.fault? spatial = l.draftFault?.or (l.orderFault? spatial) := by
  unfold fault? draftFault?
  cases firstRepeated [] (l.points.map (·.name)) with
  | some name => rfl
  | none =>
    cases pathFault l.points.length 0 [] l.paths with
    | some fault => rfl
    | none => cases l.blocks.findSome? l.blockFault <;> rfl

theorem firstRepeated_eq_none_iff {seen names : List String} :
    firstRepeated seen names = none ↔ names.Nodup ∧ ∀ name ∈ names, name ∉ seen := by
  induction names generalizing seen with
  | nil => simp [firstRepeated]
  | cons name rest ih =>
    rw [firstRepeated]
    split
    · rename_i known
      simp [known]
    · rename_i fresh
      rw [ih, List.nodup_cons]
      constructor
      · rintro ⟨distinct, others⟩
        refine ⟨⟨fun again => others name again List.mem_cons_self, distinct⟩, ?_⟩
        exact List.forall_mem_cons.mpr
          ⟨fresh, fun other listed known => others other listed (List.mem_cons_of_mem _ known)⟩
      · rintro ⟨⟨once, distinct⟩, others⟩
        refine ⟨distinct, fun other listed known => ?_⟩
        rcases List.mem_cons.mp known with rfl | known
        · exact once listed
        · exact others other (List.mem_cons_of_mem _ listed) known

theorem pathFault_eq_none_iff {pointCount next : Nat} {seen : List String} {paths : List Path} :
    pathFault pointCount next seen paths = none ↔
      (∀ p ∈ paths, p.source.index < pointCount ∧ p.destination.index < pointCount) ∧
        firstRepeated seen (paths.map (·.name)) = none := by
  induction paths generalizing next seen with
  | nil => simp [pathFault, firstRepeated]
  | cons p rest ih =>
    rw [pathFault, List.map_cons, firstRepeated, List.forall_mem_cons]
    by_cases source : p.source.index < pointCount
    · by_cases destination : p.destination.index < pointCount
      · by_cases known : p.name ∈ seen
        · simp [source, destination, known]
        · simp [source, destination, known, ih]
      · simp [source, destination]
    · simp [source]

theorem blockFault_eq_none_iff {b : Block} :
    l.blockFault b = none ↔ (∃ r, r ∈ b.members) ∧ ∀ r, r ∈ b.members → l.defines r = true := by
  unfold blockFault
  split
  · rename_i empty
    have nobody := OrderedSet.isEmpty_iff.mp empty
    simp only [reduceCtorEq, false_iff, not_and]
    rintro ⟨r, member⟩
    exact absurd member (nobody r)
  · rename_i inhabited
    have member : ∃ r, r ∈ b.members := by
      rw [OrderedSet.isEmpty_iff, Classical.not_forall_not] at inhabited
      exact inhabited
    simp only [Option.map_eq_none_iff, List.find?_eq_none, Bool.not_eq_true', Bool.not_eq_false,
      member, true_and]
    rfl

theorem orderFault?_eq_none_iff : l.orderFault? spatial = none ↔ l.Sortable spatial := by
  unfold orderFault? Sortable
  split <;> simp_all

theorem sortable_of_isNumber (numbers : ∀ p ∈ l.points, p.position.isNumber = true) :
    l.Sortable spatial := by
  apply spatial.keeps_of_isNumber
  intro q listed
  obtain ⟨p, member, rfl⟩ := List.mem_map.mp listed
  exact numbers p member

theorem sortable_scanning_iff {size : Nat} : l.Sortable (.scanning size) ↔
    l.points.length ≤ size ∨ ∀ p ∈ l.points, p.position.isNumber = true := by
  simp [Sortable, SpatialIndex.scanning, places]

theorem draftFault?_eq_none_iff : l.draftFault? = none ↔ l.WellFormed := by
  simp only [draftFault?, Option.or_eq_none_iff, Option.map_eq_none_iff, firstRepeated_eq_none_iff,
    pathFault_eq_none_iff, List.findSome?_eq_none_iff, blockFault_eq_none_iff, List.not_mem_nil,
    not_false_eq_true, implies_true, and_true]
  constructor
  · rintro ⟨points, ⟨ends, paths⟩, blocks⟩
    exact ⟨points, paths, by simpa [defines] using ends, blocks⟩
  · rintro ⟨points, paths, ends, blocks⟩
    exact ⟨points, ⟨by simpa [defines] using ends, paths⟩, blocks⟩

theorem fault?_eq_none_iff : l.fault? spatial = none ↔ l.WellFormed ∧ l.Sortable spatial := by
  rw [fault?_eq, Option.or_eq_none_iff, draftFault?_eq_none_iff, orderFault?_eq_none_iff]

theorem pathFault_ne_unordered {pointCount next : Nat} {seen : List String} {paths : List Path} :
    pathFault pointCount next seen paths ≠ some .unorderedPoints := by
  induction paths generalizing next seen with
  | nil => simp [pathFault]
  | cons p rest ih =>
    rw [pathFault]
    repeat' split
    · simp
    · simp
    · simp
    · exact ih

theorem draftFault?_ne_unordered : l.draftFault? ≠ some .unorderedPoints := by
  intro h
  rcases Option.or_eq_some_iff.mp h with named | ⟨-, h⟩
  · simp at named
  rcases Option.or_eq_some_iff.mp h with dangling | ⟨-, h⟩
  · exact pathFault_ne_unordered dangling
  obtain ⟨b, -, h⟩ := List.exists_of_findSome?_eq_some h
  unfold blockFault at h
  split at h <;> simp at h

/-- That the points cannot be put in order is said of well-formed layouts only. -/
theorem fault?_eq_unordered_iff :
    l.fault? spatial = some .unorderedPoints ↔ l.WellFormed ∧ ¬ l.Sortable spatial := by
  have order : l.orderFault? spatial = some .unorderedPoints ↔ ¬ l.Sortable spatial := by
    rw [← orderFault?_eq_none_iff]
    unfold orderFault?
    split <;> simp
  rw [fault?_eq, Option.or_eq_some_iff, draftFault?_eq_none_iff, order]
  simp only [draftFault?_ne_unordered, false_or]

end Layout

theorem Plant.wellFormed (p : Plant) : p.layout.WellFormed :=
  (Layout.fault?_eq_none_iff.mp p.sound).1

end TrafficControl
