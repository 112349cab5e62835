import TrafficControl.Proofs.Route.Improving
import TrafficControl.Route.Search

namespace TrafficControl

namespace Labels

variable {n : Network} {source x p : PointId} {s : Labels} {cost : Cost} {a : Arc} {place : Nat}

def isSettled (s : Labels) (p : PointId) : Bool := s.labels[p.index]?.any (·.settled)

theorem lt_of_isSettled (h : s.isSettled p = true) : p.index < s.labels.length := by
  rw [isSettled, Option.any_eq_true] at h
  obtain ⟨l, found, -⟩ := h
  exact (List.getElem?_eq_some_iff.mp found).1

theorem isSettled_improve : (s.improve cost a place).isSettled p = s.isSettled p := by
  simp only [isSettled, label_improve]
  cases s.labels[p.index]? with
  | none => rfl
  | some l =>
    simp only [Option.map_some, Option.any_some]
    split <;> rfl

def mark (s : Labels) (x : PointId) : Labels :=
  { s with labels := s.labels.modify x.index fun l => { l with settled := true } }

theorem label_mark : (s.mark x).labels[p.index]? = s.labels[p.index]?.map fun l =>
    if x = p then { l with settled := true } else l := by
  have index : x.index = p.index ↔ x = p :=
    ⟨fun h => congrArg Ident.mk h, congrArg Ident.index⟩
  simp only [mark, List.getElem?_modify, index]
  by_cases here : x = p <;> cases s.labels[p.index]? <;> simp [here]

@[simp] theorem costTo_mark : (s.mark x).costTo p = s.costTo p := by
  simp only [costTo, label_mark]
  cases s.labels[p.index]? with
  | none => rfl
  | some l =>
    simp only [Option.map_some]
    split <;> rfl

@[simp] theorem via?_mark : (s.mark x).via? p = s.via? p := by
  simp only [via?, label_mark]
  cases s.labels[p.index]? with
  | none => rfl
  | some l =>
    simp only [Option.map_some, Option.bind_some]
    split <;> rfl

theorem isSettled_mark (inside : x.index < s.labels.length) :
    (s.mark x).isSettled p = true ↔ p = x ∨ s.isSettled p = true := by
  simp only [isSettled, label_mark]
  cases found : s.labels[p.index]? with
  | none =>
    have other : ¬ p = x := by
      intro same
      subst same
      rw [List.getElem?_eq_none_iff] at found
      omega
    simp [other]
  | some l =>
    simp only [Option.map_some, Option.any_some, eq_comm (a := p)]
    split
    · rename_i same
      simp [same]
    · rename_i other
      simp [other]

theorem nearestFrom_none {labels : List Label} {next : Nat} {best : Option (PointId × Cost)}
    (h : nearestFrom next best labels = none) :
    best = none ∧ ∀ l ∈ labels, l.settled = false → l.cost = .infinite := by
  induction labels generalizing next best with
  | nil => exact ⟨h, fun l member => absurd member List.not_mem_nil⟩
  | cons l rest ih =>
    simp only [nearestFrom] at h
    split at h
    · cases (ih h).1
    · rename_i passed
      obtain ⟨rfl, others⟩ := ih h
      refine ⟨rfl, fun l' member unsettled => ?_⟩
      rcases List.mem_cons.mp member with rfl | member
      · simpa [unsettled] using passed
      · exact others l' member unsettled

theorem nearestFrom_some {labels : List Label} {next : Nat} {best : Option (PointId × Cost)}
    (h : nearestFrom next best labels = some (x, cost)) :
    (best = some (x, cost) ∨ ∃ k l, labels[k]? = some l ∧ x = ⟨next + k⟩ ∧ l.settled = false ∧
      l.cost = cost ∧ cost ≠ .infinite) ∧
    (∀ b, best = some b → cost ≤ b.2) ∧ ∀ l ∈ labels, l.settled = false → cost ≤ l.cost := by
  induction labels generalizing next best with
  | nil =>
    cases h
    refine ⟨.inl rfl, ?_, fun l member => absurd member List.not_mem_nil⟩
    intro b h
    cases h
    exact Nat.le_refl _
  | cons l rest ih =>
    simp only [nearestFrom] at h
    split at h
    · rename_i taken
      simp only [Bool.and_eq_true, Bool.not_eq_true', decide_eq_true_eq, ne_eq] at taken
      obtain ⟨⟨unsettled, finite⟩, nearer⟩ := taken
      obtain ⟨found, least, others⟩ := ih h
      have low := least _ rfl
      refine ⟨.inr ?_, ?_, ?_⟩
      · rcases found with found | ⟨k, l', listed, rfl, unsettled', rfl, finite'⟩
        · cases found
          exact ⟨0, l, rfl, rfl, unsettled, rfl, finite⟩
        · exact ⟨k + 1, l', listed, by rw [Nat.add_right_comm, Nat.add_assoc], unsettled', rfl, finite'⟩
      · intro b same
        subst same
        have close : l.cost < b.2 := by simpa using nearer
        exact Nat.le_trans low (Nat.le_of_lt close)
      · intro l' member unsettled'
        rcases List.mem_cons.mp member with rfl | member
        · exact low
        · exact others l' member unsettled'
    · rename_i passed
      obtain ⟨found, least, others⟩ := ih h
      refine ⟨?_, least, ?_⟩
      · rcases found with found | ⟨k, l', listed, rfl, unsettled', rfl, finite'⟩
        · exact .inl found
        · exact .inr ⟨k + 1, l', listed, by rw [Nat.add_right_comm, Nat.add_assoc], unsettled',
            rfl, finite'⟩
      · intro l' member unsettled'
        rcases List.mem_cons.mp member with rfl | member
        · by_cases finite : l'.cost = .infinite
          · rw [finite]
            exact Cost.le_infinite cost
          · cases best with
            | none => simp [unsettled', finite] at passed
            | some b =>
              have far : ¬ l'.cost < b.2 := by simpa [unsettled', finite] using passed
              have near := least b rfl
              simp only [Cost.lt_def, Cost.le_def] at far near ⊢
              omega
        · exact others l' member unsettled'

theorem costTo_of_label {l : Label} (found : s.labels[p.index]? = some l) : s.costTo p = l.cost := by
  rw [costTo, found]

theorem nearest?_none (h : s.nearest? = none) (open' : s.isSettled p = false) :
    s.costTo p = .infinite := by
  have others := (nearestFrom_none h).2
  cases found : s.labels[p.index]? with
  | none => rw [costTo, found]
  | some l =>
    rw [costTo_of_label found]
    rw [isSettled, found] at open'
    exact others l (List.mem_of_getElem? found) open'

theorem nearest?_some (h : s.nearest? = some (x, cost)) :
    x.index < s.labels.length ∧ s.isSettled x = false ∧ s.costTo x = cost ∧ cost ≠ .infinite ∧
      ∀ p, s.isSettled p = false → cost ≤ s.costTo p := by
  obtain ⟨found, -, others⟩ := nearestFrom_some h
  rcases found with none | ⟨k, l, listed, rfl, unsettled, rfl, finite⟩
  · cases none
  · rw [Nat.zero_add]
    refine ⟨(List.getElem?_eq_some_iff.mp listed).1, ?_, costTo_of_label listed, finite, ?_⟩
    · rw [isSettled, listed]
      exact unsettled
    · intro p open'
      cases present : s.labels[p.index]? with
      | none =>
        rw [costTo, present]
        exact Cost.le_infinite _
      | some l' =>
        rw [costTo_of_label present]
        rw [isSettled, present] at open'
        exact others l' (List.mem_of_getElem? present) open'

end Labels

end TrafficControl
