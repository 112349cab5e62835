import TrafficControl.Route.Network

namespace TrafficControl

inductive Walk (ok : Arc → Prop) : PointId → List Arc → PointId → Prop
  | stay (p : PointId) : Walk ok p [] p
  | drive {a : Arc} {l : List Arc} {d : PointId} (allowed : ok a) (rest : Walk ok a.target l d) :
      Walk ok a.source (a :: l) d

/-- What arcs cost together, beyond any limit. -/
def driveCost (l : List Arc) : Nat := l.foldr (fun a rest => a.cost.amount + rest) 0

theorem driveCost_cons (a : Arc) (l : List Arc) :
    driveCost (a :: l) = a.cost.amount + driveCost l := rfl

theorem driveCost_concat (l : List Arc) (a : Arc) :
    driveCost (l ++ [a]) = driveCost l + a.cost.amount := by
  induction l with
  | nil => exact Nat.add_comm _ _
  | cons b rest ih =>
    rw [List.cons_append, driveCost_cons, driveCost_cons, ih, Nat.add_assoc]

namespace Walk

variable {ok : Arc → Prop} {s d : PointId} {l : List Arc}

theorem concat (walk : Walk ok s l d) {a : Arc} (allowed : ok a) (meets : a.source = d) :
    Walk ok s (l ++ [a]) a.target := by
  induction walk with
  | stay p =>
    subst meets
    exact .drive allowed (.stay _)
  | drive first _ ih => exact .drive first (ih meets)

theorem mono {ok' : Arc → Prop} (weaker : ∀ a, ok a → ok' a) (walk : Walk ok s l d) :
    Walk ok' s l d := by
  induction walk with
  | stay p => exact .stay p
  | drive allowed _ ih => exact .drive (weaker _ allowed) ih

theorem mem (walk : Walk ok s l d) {a : Arc} (driven : a ∈ l) : ok a := by
  induction walk with
  | stay => cases driven
  | drive allowed _ ih =>
    rcases List.mem_cons.mp driven with rfl | later
    · exact allowed
    · exact ih later

theorem congr {ok' : Arc → Prop} (same : ∀ a, ok a ↔ ok' a) : Walk ok s l d ↔ Walk ok' s l d :=
  ⟨mono fun a => (same a).mp, mono fun a => (same a).mpr⟩

/-- A potential that no arc lifts by more than it costs bounds the cost of a walk from below. -/
theorem potential (φ : PointId → Nat)
    (feasible : ∀ a, ok a → φ a.target ≤ φ a.source + a.cost.amount) (walk : Walk ok s l d) :
    φ d ≤ φ s + driveCost l := by
  induction walk with
  | stay p => exact Nat.le_add_right _ _
  | @drive a l d allowed _ ih =>
    have first := feasible a allowed
    rw [driveCost_cons]
    omega

end Walk

end TrafficControl
