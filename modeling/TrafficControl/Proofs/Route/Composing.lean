import Mathlib
import TrafficControl.Proofs.Route.Directions

namespace TrafficControl

namespace Cost

theorem amount_foldl (a : Cost) (l : List Cost) :
    (l.foldl (· + ·) a).amount = min (a.amount + (l.map amount).sum) limit := by
  induction l generalizing a with
  | nil => exact (Nat.min_eq_left a.amount_le).symm
  | cons b rest ih =>
    rw [List.foldl_cons, ih, amount_add, List.map_cons, List.sum_cons]
    omega

/-- Cutting off at every addition comes to the same as cutting off once. -/
theorem amount_sum (l : List Cost) : (sum l).amount = min (l.map amount).sum limit := by
  rw [sum, amount_foldl, amount_zero, Nat.zero_add]

end Cost

inductive Composition where
  | part (w : Weighing)
  | plus (first second : Composition)
  | total (members : List Composition)

namespace Composition

mutual

def weighing : Composition → Weighing
  | part w => w
  | plus first second => first.weighing.plus second.weighing
  | total members => .total (weighings members)

def weighings : List Composition → List Weighing
  | [] => []
  | c :: rest => c.weighing :: weighings rest

end

mutual

def parts : Composition → List Weighing
  | part w => [w]
  | plus first second => first.parts ++ second.parts
  | total members => partsOf members

def partsOf : List Composition → List Weighing
  | [] => []
  | c :: rest => c.parts ++ partsOf rest

end

/-- What some weighings come to together, however much that is. -/
def exactSum (ws : List Weighing) (p : Path) (d : Direction) (v : Vehicle) : Nat :=
  (ws.map fun w => (w p d v).amount).sum

variable {p : Path} {d : Direction} {v : Vehicle}

theorem exactSum_append {us ws : List Weighing} :
    exactSum (us ++ ws) p d v = exactSum us p d v + exactSum ws p d v := by
  simp only [exactSum, List.map_append, List.sum_append]

theorem amount_total (ws : List Weighing) :
    (Weighing.total ws p d v).amount = min (exactSum ws p d v) Cost.limit := by
  rw [Weighing.total, Cost.amount_sum, List.map_map]
  rfl

mutual

theorem amount_weighing (c : Composition) :
    (c.weighing p d v).amount = min (exactSum c.parts p d v) Cost.limit := by
  cases c with
  | part w =>
    have alone : exactSum [w] p d v = (w p d v).amount := by simp [exactSum]
    rw [weighing, parts, alone]
    exact (Nat.min_eq_left (w p d v).amount_le).symm
  | plus first second =>
    have one := amount_weighing first
    have other := amount_weighing second
    rw [weighing, Weighing.plus, Cost.amount_add, parts, exactSum_append]
    omega
  | total members =>
    rw [weighing, amount_total, parts]
    exact exactSum_weighings members

theorem exactSum_weighings (members : List Composition) :
    min (exactSum (weighings members) p d v) Cost.limit =
      min (exactSum (partsOf members) p d v) Cost.limit := by
  cases members with
  | nil => rfl
  | cons c rest =>
    have first := amount_weighing c
    have later := exactSum_weighings rest
    have split : exactSum (weighings (c :: rest)) p d v =
        (c.weighing p d v).amount + exactSum (weighings rest) p d v := rfl
    rw [split, partsOf, exactSum_append]
    omega

end

theorem weighing_congr {c e : Composition} (same : c.parts.Perm e.parts) :
    c.weighing = e.weighing := by
  funext p d v
  have sums : exactSum c.parts p d v = exactSum e.parts p d v := (same.map _).sum_eq
  apply Cost.ext
  rw [amount_weighing, amount_weighing, sums]

theorem weighing_eq_infinite_iff {c : Composition} :
    c.weighing p d v = .infinite ↔ Cost.limit ≤ exactSum c.parts p d v := by
  rw [← not_iff_not, ← ne_eq, Cost.ne_infinite_iff, amount_weighing]
  omega

theorem weighing_of_infinite {c : Composition} {w : Weighing} (member : w ∈ c.parts)
    (infinite : w p d v = .infinite) : c.weighing p d v = .infinite := by
  rw [weighing_eq_infinite_iff]
  have listed : (w p d v).amount ∈ c.parts.map fun u => (u p d v).amount :=
    List.mem_map_of_mem member
  rw [infinite] at listed
  exact List.le_sum_of_mem listed

end Composition

namespace NetworkScope

def counting (s : NetworkScope) (w : Weighing) : NetworkScope := { s with weighing := w }

def gratis (s : NetworkScope) : NetworkScope := s.counting fun _ _ _ => 0

end NetworkScope

namespace Composition

open Network

variable {s : NetworkScope} {plant : Plant} {c : Composition} {id : PathId} {path : Path}
  {d : Direction}

theorem opens_counting : (s.counting c.weighing).opens plant path d = true ↔
    s.gratis.opens plant path d = true ∧ exactSum c.parts path d s.vehicle < Cost.limit := by
  have free : (0 : Cost) ≠ .infinite := by decide
  have cheap : c.weighing path d s.vehicle ≠ .infinite ↔
      exactSum c.parts path d s.vehicle < Cost.limit := by
    rw [ne_eq, weighing_eq_infinite_iff, Nat.not_le]
  rw [NetworkScope.opens_iff, NetworkScope.opens_iff]
  constructor
  · intro h
    obtain ⟨unlocked, group, allowed, source, target, less⟩ := h
    exact ⟨⟨unlocked, group, allowed, source, target, free⟩, cheap.mp less⟩
  · intro h
    obtain ⟨⟨unlocked, group, allowed, source, target, -⟩, less⟩ := h
    exact ⟨unlocked, group, allowed, source, target, cheap.mpr less⟩

theorem arcOf_counting : (s.counting c.weighing).arcOf id path d =
    { s.gratis.arcOf id path d with cost := .ofNat (exactSum c.parts path d s.vehicle) } := by
  have cost : c.weighing path d s.vehicle = .ofNat (exactSum c.parts path d s.vehicle) :=
    Cost.ext (amount_weighing c)
  simp only [NetworkScope.arcOf, NetworkScope.counting, cost]

/-- However weighings are put together, and in whatever order, the costs are the sum of those of all
    parts, cut off once at the greatest cost: one part that can be infinite makes all infinite. A
    direction that could be driven otherwise has no arc exactly if the sum reaches that limit, and
    an arc with just this sum if not. -/
theorem sums_exactly :
    (∀ (c : Composition) p d v,
        (c.weighing p d v).amount = min (exactSum c.parts p d v) Cost.limit) ∧
      (∀ (ws : List Weighing) p d v,
        (Weighing.total ws p d v).amount = min (exactSum ws p d v) Cost.limit) ∧
      (∀ measures p d v, (Weighing.ofMeasures measures p d v).amount =
        min (exactSum ((Measure.effective measures).map Measure.weigh) p d v) Cost.limit) ∧
      (∀ c e : Composition, c.parts.Perm e.parts → c.weighing = e.weighing) ∧
      (∀ (c : Composition) p d v, ∀ w ∈ c.parts, w p d v = .infinite →
        c.weighing p d v = .infinite) ∧
      ∀ (c : Composition) (s : NetworkScope) plant id path d, plant.path? id = some path →
        ((build (s.counting c.weighing) plant).arcs.filter
            fun a => a.path = id ∧ a.direction = d) =
          if s.gratis.opens plant path d ∧ exactSum c.parts path d s.vehicle < Cost.limit then
            [{ s.gratis.arcOf id path d with cost := .ofNat (exactSum c.parts path d s.vehicle) }]
          else [] := by
  refine ⟨fun c p d v => amount_weighing c, fun ws p d v => amount_total ws,
    fun measures p d v => amount_total _, fun c e => weighing_congr,
    fun c p d v w => weighing_of_infinite, fun c s plant id path d found => ?_⟩
  rw [filter_arcs d found, arcOf_counting]
  simp only [opens_counting]

theorem sums_exactly_siding :
    let s : NetworkScope :=
      { group := "", vehicle := { id := ⟨0⟩, name := "AGV" }, weighing := .total [] }
    let heavy : Weighing := fun _ _ _ => .ofNat (Cost.limit - 30)
    let c : Composition := .plus (.plus (.total []) (.part Measure.hops.weigh))
      (.total [.part Measure.distance.weigh, .part heavy])
    let e : Composition := .total [.part heavy, .plus (.part Measure.distance.weigh)
      (.part Measure.hops.weigh)]
    c.weighing = e.weighing ∧
      ((build (s.counting c.weighing) siding).arcs.filter
        fun a => a.path = ⟨0⟩ ∧ a.direction = .forward) =
          [{ source := ⟨1⟩, target := ⟨0⟩, path := ⟨0⟩, direction := .forward,
             cost := .ofNat (Cost.limit - 19) }] ∧
      ((build (s.counting c.weighing) siding).arcs.filter
        fun a => a.path = ⟨2⟩ ∧ a.direction = .forward) = [] ∧
      ∀ p d v, (Composition.plus c (.part fun _ _ _ => .infinite)).weighing p d v = .infinite := by
  intro s heavy c e
  obtain ⟨-, -, -, order, infinite, arcs⟩ := sums_exactly
  refine ⟨order c e (List.reverse_perm c.parts).symm, ?_, ?_,
    fun p d v => infinite _ p d v (fun _ _ _ => .infinite) (by simp [parts]) rfl⟩
  · rw [arcs c s siding _ _ _ rfl]
    decide +kernel
  · rw [arcs c s siding _ _ _ rfl]
    decide +kernel

end Composition

end TrafficControl
