namespace TrafficControl

/-- A finite map kept as its entries in ascending order of their keys, so that equal maps are
    equal values. -/
structure Table (κ : Type) [Ord κ] (α : Type) where
  entries : List (κ × α)
  ascending : entries.Pairwise fun a b => compare a.1 b.1 = .lt

namespace Table

variable {κ : Type} [Ord κ] {α : Type}

instance [DecidableEq κ] [DecidableEq α] : DecidableEq (Table κ α) := fun s t =>
  if h : s.entries = t.entries then .isTrue (by cases s; cases t; cases h; rfl)
  else .isFalse fun e => h (e ▸ rfl)

def empty : Table κ α := ⟨[], .nil⟩

instance : EmptyCollection (Table κ α) := ⟨empty⟩
instance : Inhabited (Table κ α) := ⟨empty⟩

def size (t : Table κ α) : Nat := t.entries.length

def keys (t : Table κ α) : List κ := t.entries.map (·.1)

def find (k : κ) : List (κ × α) → Option α
  | [] => none
  | (k', v) :: rest => if compare k k' = .eq then some v else find k rest

def get? (t : Table κ α) (k : κ) : Option α := find k t.entries

def contains (t : Table κ α) (k : κ) : Bool := (t.get? k).isSome

def place (k : κ) (v : α) : List (κ × α) → List (κ × α)
  | [] => [(k, v)]
  | (k', v') :: rest =>
    match compare k k' with
    | .lt => (k, v) :: (k', v') :: rest
    | .eq => (k, v) :: rest
    | .gt => (k', v') :: place k v rest

def filter (t : Table κ α) (p : κ → α → Bool) : Table κ α :=
  ⟨t.entries.filter fun e => p e.1 e.2, t.ascending.filter _⟩

def erase (t : Table κ α) (k : κ) : Table κ α := t.filter fun k' _ => compare k k' ≠ .eq

@[simp] theorem get?_empty {k : κ} : (∅ : Table κ α).get? k = none := rfl

theorem contains_iff {t : Table κ α} {k : κ} : t.contains k = true ↔ ∃ v, t.get? k = some v :=
  Option.isSome_iff_exists

theorem find_of_below {k : κ} {l : List (κ × α)} (h : ∀ e ∈ l, compare k e.1 = .lt) :
    find k l = none := by
  induction l with
  | nil => rfl
  | cons f rest ih =>
    simp only [find, h f (by simp), reduceCtorEq, if_false]
    exact ih fun e member => h e (List.mem_cons_of_mem _ member)

theorem mem_place {k : κ} {v : α} {e : κ × α} {l : List (κ × α)}
    (h : e ∈ place k v l) : e = (k, v) ∨ e ∈ l := by
  induction l with
  | nil => simpa [place] using h
  | cons f rest ih =>
    obtain ⟨k', v'⟩ := f
    unfold place at h
    split at h <;> simp only [List.mem_cons] at h ⊢
    · exact h
    · rcases h with h | h
      · exact .inl h
      · exact .inr (.inr h)
    · rcases h with h | h
      · exact .inr (.inl h)
      · rcases ih h with h | h
        · exact .inl h
        · exact .inr (.inr h)

variable [Std.LawfulEqOrd κ]

theorem find_place_self {k : κ} {v : α} {l : List (κ × α)} : find k (place k v l) = some v := by
  induction l with
  | nil => simp [place, find]
  | cons f rest ih =>
    obtain ⟨k', v'⟩ := f
    unfold place
    split
    · simp [find]
    · simp [find]
    · rename_i greater
      simp [find, greater, ih]

theorem find_place_of_ne {k k' : κ} {v : α} {l : List (κ × α)} (h : k' ≠ k) :
    find k' (place k v l) = find k' l := by
  have apart : compare k' k ≠ .eq := fun e => h (Std.LawfulEqCmp.eq_of_compare e)
  induction l with
  | nil => simp [place, find, apart]
  | cons f rest ih =>
    obtain ⟨j, w⟩ := f
    unfold place
    split
    · simp [find, apart]
    · rename_i same
      have := Std.LawfulEqCmp.eq_of_compare same
      subst this
      simp [find, apart]
    · simp only [find, ih]

theorem mem_of_find {k : κ} {v : α} {l : List (κ × α)} (h : find k l = some v) : (k, v) ∈ l := by
  induction l with
  | nil => cases h
  | cons f rest ih =>
    obtain ⟨k', v'⟩ := f
    simp only [find] at h
    split at h
    · rename_i same
      cases h
      have := Std.LawfulEqCmp.eq_of_compare same
      subst this
      exact List.mem_cons_self
    · exact List.mem_cons_of_mem _ (ih h)

variable [Std.TransOrd κ]

theorem place_ascending (k : κ) (v : α) {l : List (κ × α)}
    (h : l.Pairwise fun a b => compare a.1 b.1 = .lt) :
    (place k v l).Pairwise fun a b => compare a.1 b.1 = .lt := by
  induction l with
  | nil => simp [place]
  | cons f rest ih =>
    obtain ⟨k', v'⟩ := f
    have ⟨below, tail⟩ := List.pairwise_cons.mp h
    unfold place
    split
    · rename_i less
      refine List.pairwise_cons.mpr ⟨fun e member => ?_, h⟩
      rcases List.mem_cons.mp member with rfl | member
      · exact less
      · exact Std.TransCmp.lt_trans less (below e member)
    · rename_i same
      have := Std.LawfulEqCmp.eq_of_compare same
      subst this
      exact List.pairwise_cons.mpr ⟨below, tail⟩
    · rename_i greater
      refine List.pairwise_cons.mpr ⟨fun e member => ?_, ih tail⟩
      rcases mem_place member with rfl | member
      · exact Std.OrientedCmp.lt_of_gt greater
      · exact below e member

def insert (t : Table κ α) (k : κ) (v : α) : Table κ α :=
  ⟨place k v t.entries, place_ascending k v t.ascending⟩

def ofList (l : List (κ × α)) : Table κ α := l.foldl (fun t e => t.insert e.1 e.2) empty

theorem mem_entries {t : Table κ α} {k : κ} {v : α} : (k, v) ∈ t.entries ↔ t.get? k = some v := by
  refine ⟨fun member => ?_, mem_of_find⟩
  obtain ⟨l, ascending⟩ := t
  simp only [get?]
  induction l with
  | nil => cases member
  | cons f rest ih =>
    have ⟨below, tail⟩ := List.pairwise_cons.mp ascending
    obtain ⟨k', v'⟩ := f
    rcases List.mem_cons.mp member with e | member
    · cases e
      simp [find]
    · have less := Std.OrientedCmp.gt_of_lt (below _ member)
      simp only [find, less, reduceCtorEq, if_false]
      exact ih tail member

theorem get?_insert {t : Table κ α} {k k' : κ} {v : α} [Decidable (k' = k)] :
    (t.insert k v).get? k' = if k' = k then some v else t.get? k' := by
  split
  · rename_i same
    subst same
    exact find_place_self
  · rename_i other
    exact find_place_of_ne other

@[simp] theorem get?_insert_self {t : Table κ α} {k : κ} {v : α} :
    (t.insert k v).get? k = some v := find_place_self

theorem get?_insert_of_ne {t : Table κ α} {k k' : κ} {v : α} (h : k' ≠ k) :
    (t.insert k v).get? k' = t.get? k' := find_place_of_ne h

theorem get?_filter {t : Table κ α} {p : κ → α → Bool} {k : κ} :
    (t.filter p).get? k = (t.get? k).filter (p k) := by
  apply Option.ext
  intro v
  rw [← mem_entries, Option.filter_eq_some_iff, ← mem_entries]
  exact List.mem_filter

@[simp] theorem get?_erase_self {t : Table κ α} {k : κ} : (t.erase k).get? k = none := by
  simp only [erase, get?_filter, Std.ReflCmp.compare_self]
  cases t.get? k <;> rfl

theorem get?_erase_of_ne {t : Table κ α} {k k' : κ} (h : k' ≠ k) :
    (t.erase k).get? k' = t.get? k' := by
  have apart : compare k k' ≠ .eq := fun e => h (Std.LawfulEqCmp.eq_of_compare e).symm
  simp only [erase, get?_filter]
  cases t.get? k' <;> simp [Option.filter, apart]

theorem get?_erase {t : Table κ α} {k k' : κ} [Decidable (k' = k)] :
    (t.erase k).get? k' = if k' = k then none else t.get? k' := by
  split
  · rename_i same
    subst same
    exact get?_erase_self
  · rename_i other
    exact get?_erase_of_ne other

theorem ext {s t : Table κ α} (h : ∀ k, s.get? k = t.get? k) : s = t := by
  obtain ⟨l, hl⟩ := s
  obtain ⟨m, hm⟩ := t
  suffices l = m by subst this; rfl
  simp only [get?] at h
  induction l generalizing m with
  | nil =>
    cases m with
    | nil => rfl
    | cons f m =>
      have := h f.1
      simp [find] at this
  | cons e l ih =>
    obtain ⟨k, v⟩ := e
    have ⟨el, tl⟩ := List.pairwise_cons.mp hl
    cases m with
    | nil =>
      have := h k
      simp [find] at this
    | cons f m =>
      obtain ⟨k', v'⟩ := f
      have ⟨fm, tm⟩ := List.pairwise_cons.mp hm
      have same : k = k' := by
        cases order : compare k k' with
        | eq => exact Std.LawfulEqCmp.eq_of_compare order
        | lt =>
          have below : find k m = none :=
            find_of_below fun g member => Std.TransCmp.lt_trans order (fm g member)
          have := h k
          simp [find, order, below] at this
        | gt =>
          have order := Std.OrientedCmp.lt_of_gt order
          have below : find k' l = none :=
            find_of_below fun g member => Std.TransCmp.lt_trans order (el g member)
          have := h k'
          simp [find, order, below] at this
      subst same
      have value := h k
      simp only [find, Std.ReflCmp.compare_self, if_true, Option.some.injEq] at value
      subst value
      refine congrArg _ (ih tl m tm fun j => ?_)
      by_cases order : compare j k = .eq
      · have := Std.LawfulEqCmp.eq_of_compare order
        subst this
        rw [find_of_below el, find_of_below fm]
      · have := h j
        simpa only [find, order, if_false] using this

theorem insert_of_get? {t : Table κ α} {k : κ} {v : α} (h : t.get? k = some v) :
    t.insert k v = t := by
  apply ext
  intro k'
  by_cases same : k' = k
  · rw [same, get?_insert_self, h]
  · exact get?_insert_of_ne same

theorem mem_keys {t : Table κ α} {k : κ} : k ∈ t.keys ↔ ∃ v, t.get? k = some v := by
  simp only [keys, List.mem_map, Prod.exists, exists_and_right, exists_eq_right, mem_entries]

end Table

end TrafficControl
