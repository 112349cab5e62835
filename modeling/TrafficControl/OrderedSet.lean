namespace TrafficControl

/-- A finite set kept as its elements in ascending order, so that equal sets are equal values. -/
structure OrderedSet (α : Type) [Ord α] where
  toList : List α
  ascending : toList.Pairwise fun a b => compare a b = .lt

namespace OrderedSet

variable {α : Type} [Ord α]

instance [DecidableEq α] : DecidableEq (OrderedSet α) := fun s t =>
  if h : s.toList = t.toList then .isTrue (by cases s; cases t; cases h; rfl)
  else .isFalse fun e => h (e ▸ rfl)

def empty : OrderedSet α := ⟨[], .nil⟩

instance : EmptyCollection (OrderedSet α) := ⟨empty⟩
instance : Inhabited (OrderedSet α) := ⟨empty⟩
instance : Membership α (OrderedSet α) := ⟨fun s a => a ∈ s.toList⟩

instance [DecidableEq α] (a : α) (s : OrderedSet α) : Decidable (a ∈ s) :=
  inferInstanceAs (Decidable (a ∈ s.toList))

def size (s : OrderedSet α) : Nat := s.toList.length

def isEmpty (s : OrderedSet α) : Bool := s.toList.isEmpty

def place (a : α) : List α → List α
  | [] => [a]
  | b :: rest =>
    match compare a b with
    | .lt => a :: b :: rest
    | .eq => a :: rest
    | .gt => b :: place a rest

theorem mem_place [Std.LawfulEqOrd α] {a x : α} {l : List α} :
    x ∈ place a l ↔ x = a ∨ x ∈ l := by
  induction l with
  | nil => simp [place]
  | cons b rest ih =>
    unfold place
    split
    · simp
    · rename_i same
      have := Std.LawfulEqCmp.eq_of_compare same
      subst this
      simp
    · simp only [List.mem_cons, ih]
      exact or_left_comm

theorem place_ascending [Std.TransOrd α] [Std.LawfulEqOrd α] (a : α) {l : List α}
    (h : l.Pairwise fun a b => compare a b = .lt) :
    (place a l).Pairwise fun a b => compare a b = .lt := by
  induction l with
  | nil => simp [place]
  | cons b rest ih =>
    have ⟨below, tail⟩ := List.pairwise_cons.mp h
    unfold place
    split
    · rename_i less
      refine List.pairwise_cons.mpr ⟨fun x member => ?_, h⟩
      rcases List.mem_cons.mp member with rfl | member
      · exact less
      · exact Std.TransCmp.lt_trans less (below x member)
    · rename_i same
      have := Std.LawfulEqCmp.eq_of_compare same
      subst this
      exact h
    · rename_i greater
      refine List.pairwise_cons.mpr ⟨fun x member => ?_, ih tail⟩
      rcases mem_place.mp member with rfl | member
      · exact Std.OrientedCmp.lt_of_gt greater
      · exact below x member

section Lawful

variable [Std.TransOrd α] [Std.LawfulEqOrd α]

def insert (s : OrderedSet α) (a : α) : OrderedSet α :=
  ⟨place a s.toList, place_ascending a s.ascending⟩

def ofList (l : List α) : OrderedSet α := l.foldl insert empty

def union (s t : OrderedSet α) : OrderedSet α := t.toList.foldl insert s

end Lawful

def filter (s : OrderedSet α) (p : α → Bool) : OrderedSet α :=
  ⟨s.toList.filter p, s.ascending.filter p⟩

def erase [DecidableEq α] (s : OrderedSet α) (a : α) : OrderedSet α := s.filter (· ≠ a)

def diff [DecidableEq α] (s t : OrderedSet α) : OrderedSet α := s.filter (· ∉ t)

def subset [DecidableEq α] (s t : OrderedSet α) : Bool := s.toList.all (· ∈ t)

def intersects [DecidableEq α] (s t : OrderedSet α) : Bool := s.toList.any (· ∈ t)

instance : Ord (OrderedSet α) := ⟨fun s t => compare s.toList t.toList⟩

theorem mem_def {s : OrderedSet α} {a : α} : a ∈ s ↔ a ∈ s.toList := Iff.rfl

@[simp] theorem not_mem_empty {a : α} : ¬ a ∈ (∅ : OrderedSet α) := List.not_mem_nil

theorem isEmpty_iff {s : OrderedSet α} : s.isEmpty = true ↔ ∀ a, ¬ a ∈ s := by
  simp only [isEmpty, List.isEmpty_iff, mem_def]
  exact List.eq_nil_iff_forall_not_mem

@[simp] theorem mem_filter {s : OrderedSet α} {p : α → Bool} {x : α} :
    x ∈ s.filter p ↔ x ∈ s ∧ p x = true := List.mem_filter

theorem subset_iff [DecidableEq α] {s t : OrderedSet α} :
    s.subset t = true ↔ ∀ x, x ∈ s → x ∈ t := by
  simp [subset, mem_def]

theorem intersects_iff [DecidableEq α] {s t : OrderedSet α} :
    s.intersects t = true ↔ ∃ x, x ∈ s ∧ x ∈ t := by
  simp [intersects, mem_def]

@[simp] theorem mem_erase [DecidableEq α] {s : OrderedSet α} {a x : α} :
    x ∈ s.erase a ↔ x ∈ s ∧ x ≠ a := by
  simp [erase]

@[simp] theorem mem_diff [DecidableEq α] {s t : OrderedSet α} {x : α} :
    x ∈ s.diff t ↔ x ∈ s ∧ ¬ x ∈ t := by
  simp [diff]

variable [Std.TransOrd α] [Std.LawfulEqOrd α]

theorem ext {s t : OrderedSet α} (h : ∀ a, a ∈ s ↔ a ∈ t) : s = t := by
  obtain ⟨l, hl⟩ := s
  obtain ⟨m, hm⟩ := t
  suffices l = m by subst this; rfl
  simp only [mem_def] at h
  induction l generalizing m with
  | nil =>
    exact (List.eq_nil_iff_forall_not_mem.mpr fun a member =>
      List.not_mem_nil ((h a).mpr member)).symm
  | cons a l ih =>
    cases m with
    | nil => exact absurd ((h a).mp (by simp)) List.not_mem_nil
    | cons b m =>
      have ⟨al, tl⟩ := List.pairwise_cons.mp hl
      have ⟨bm, tm⟩ := List.pairwise_cons.mp hm
      have irrefl : ∀ x : α, compare x x ≠ .lt := fun x => by simp
      have same : a = b := by
        rcases List.mem_cons.mp ((h a).mp (by simp)) with e | am
        · exact e
        · rcases List.mem_cons.mp ((h b).mpr (by simp)) with e | bl
          · exact e.symm
          · exact absurd (Std.TransCmp.lt_trans (al b bl) (bm a am)) (irrefl a)
      subst same
      refine congrArg _ (ih tl m tm fun x => ⟨fun hx => ?_, fun hx => ?_⟩)
      · rcases List.mem_cons.mp ((h x).mp (List.mem_cons_of_mem _ hx)) with rfl | hx'
        · exact absurd (al x hx) (irrefl x)
        · exact hx'
      · rcases List.mem_cons.mp ((h x).mpr (List.mem_cons_of_mem _ hx)) with rfl | hx'
        · exact absurd (bm x hx) (irrefl x)
        · exact hx'

@[simp] theorem mem_insert {s : OrderedSet α} {a x : α} : x ∈ s.insert a ↔ x = a ∨ x ∈ s :=
  mem_place

theorem mem_foldl_insert {l : List α} {s : OrderedSet α} {x : α} :
    x ∈ l.foldl insert s ↔ x ∈ s ∨ x ∈ l := by
  induction l generalizing s with
  | nil => simp
  | cons a l ih =>
    simp only [List.foldl_cons, ih, mem_insert, List.mem_cons]
    grind

@[simp] theorem mem_union {s t : OrderedSet α} {x : α} : x ∈ s.union t ↔ x ∈ s ∨ x ∈ t :=
  mem_foldl_insert

@[simp] theorem mem_ofList {l : List α} {x : α} : x ∈ ofList l ↔ x ∈ l :=
  mem_foldl_insert.trans (by simp [mem_def, empty])

end OrderedSet

end TrafficControl
