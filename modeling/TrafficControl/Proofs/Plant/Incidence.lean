import TrafficControl.Plant.Membership
import TrafficControl.Proofs.Plant.WellFormed

namespace TrafficControl

/-- The numbers of the elements that pass a test, in their order. -/
def numbersOf {α : Type} {kind : Kind} (l : List α) (test : α → Bool) : List (Ident kind) :=
  (l.zipIdx.filter fun e => test e.1).map fun e => ⟨e.2⟩

section Numbers

variable {α : Type} {kind : Kind} {l : List α} {test : α → Bool}

theorem mem_numbersOf {id : Ident kind} :
    id ∈ numbersOf l test ↔ ∃ a, l[id.index]? = some a ∧ test a = true := by
  rw [numbersOf, List.mem_map]
  constructor
  · rintro ⟨⟨a, i⟩, member, rfl⟩
    obtain ⟨listed, passes⟩ := List.mem_filter.mp member
    exact ⟨a, List.mk_mem_zipIdx_iff_getElem?.mp listed, passes⟩
  · rintro ⟨a, found, passes⟩
    exact ⟨(a, id.index),
      List.mem_filter.mpr ⟨List.mk_mem_zipIdx_iff_getElem?.mpr found, passes⟩, rfl⟩

theorem numbersOf_ascending :
    (numbersOf l test : List (Ident kind)).Pairwise (·.index < ·.index) := by
  have numbered : (l.zipIdx.map (·.2)).Pairwise (· < ·) := by
    rw [List.zipIdx_map_snd]
    exact List.pairwise_lt_range'
  rw [numbersOf, List.pairwise_map]
  exact (List.pairwise_map.mp numbered).filter _

/-- Elements that are added at the end get new numbers, which come after all others. -/
theorem numbersOf_of_prefix {l m : List α} (extension : l <+: m) (test : α → Bool) :
    ∃ new : List (Ident kind), numbersOf m test = numbersOf l test ++ new ∧
      ∀ id ∈ new, l[id.index]? = none ∧ ∃ a, m[id.index]? = some a := by
  obtain ⟨more, rfl⟩ := extension
  have split : (numbersOf (l ++ more) test : List (Ident kind)) = numbersOf l test ++
      ((more.zipIdx l.length).filter fun e => test e.1).map fun e => ⟨e.2⟩ := by
    simp only [numbersOf, List.zipIdx_append, List.filter_append, List.map_append, Nat.zero_add]
  refine ⟨_, split, fun id listed => ?_⟩
  obtain ⟨a, found, -⟩ := mem_numbersOf.mp (split ▸ List.mem_append_right _ listed)
  obtain ⟨⟨b, i⟩, member, rfl⟩ := List.mem_map.mp listed
  have after := (List.mk_mem_zipIdx_iff_le_and_getElem?_sub.mp (List.mem_filter.mp member).1).1
  exact ⟨List.getElem?_eq_none_iff.mpr after, a, found⟩

end Numbers

namespace Layout

theorem enterPath_getElem? (rows : List (List PathId)) (p : Path) (id : PathId) (k : Nat) :
    (enterPath rows p id)[k]? =
      rows[k]?.map fun row => if p.touches ⟨k⟩ then row ++ [id] else row := by
  have index (point : PointId) : point = ⟨k⟩ ↔ point.index = k :=
    ⟨fun h => h ▸ rfl, fun h => by rw [← h]⟩
  simp only [enterPath, Path.touches, index, Bool.or_eq_true, decide_eq_true_eq]
  split
  · rename_i loop
    simp only [List.getElem?_modify, loop, or_self]
    by_cases here : p.source.index = k <;> cases rows[k]? <;> simp [here]
  · rename_i apart
    have other : ¬ (p.source.index = k ∧ p.destination.index = k) := by
      intro h
      obtain ⟨first, second⟩ := h
      rw [← index] at first second
      exact apart (second.trans first.symm)
    rw [List.getElem?_modify, List.getElem?_modify]
    by_cases first : p.source.index = k <;> by_cases second : p.destination.index = k
    · exact absurd ⟨first, second⟩ other
    all_goals cases rows[k]? <;> simp [first, second]

theorem enterPaths_getElem? (paths : List Path) (next k : Nat) (rows : List (List PathId)) :
    ((paths.zipIdx next).foldl (fun rows (p, i) => enterPath rows p ⟨i⟩) rows)[k]? =
      rows[k]?.map (· ++ ((paths.zipIdx next).filter fun e => e.1.touches ⟨k⟩).map fun e => ⟨e.2⟩) := by
  induction paths generalizing next rows with
  | nil => simp
  | cons p rest ih =>
    rw [List.zipIdx_cons, List.foldl_cons, ih, enterPath_getElem?, Option.map_map]
    congr 1
    funext row
    by_cases touches : p.touches ⟨k⟩
    · simp [touches]
    · simp [touches]

theorem incidence_getElem? (l : Layout) {k : Nat} (known : k < l.points.length) :
    l.incidence[k]? = some (numbersOf l.paths (·.touches ⟨k⟩)) := by
  rw [incidence, enterPaths_getElem?, List.getElem?_map, List.getElem?_eq_getElem known]
  rfl

end Layout

namespace Plant

variable {p : Plant}

theorem incident?_eq {point : PointId} (known : point.index < p.pointCount) :
    p.incident? point = some (numbersOf p.layout.paths (·.touches point)) := by
  rw [incident?, p.incidence_eq, p.layout.incidence_getElem? known]

theorem mem_incident {point : PointId} (known : point.index < p.pointCount) {id : PathId} :
    id ∈ (p.incident? point).getD [] ↔ ∃ path, p.path? id = some path ∧ path.touches point := by
  rw [incident?_eq known, Option.getD_some, mem_numbersOf]
  rfl

theorem blocksListing_eq_numbersOf {r : Resource} :
    p.blocksListing r = numbersOf p.layout.blocks (r ∈ ·.members) := blocksListing_eq

end Plant

end TrafficControl
