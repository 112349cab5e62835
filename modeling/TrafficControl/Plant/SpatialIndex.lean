import TrafficControl.Ident
import TrafficControl.Position

namespace TrafficControl

namespace Distance

open Float.Model

/-- Where a number stands: by its kind and sign first, then by its exponent and its mantissa. -/
def rank : UnpackedFloat → Int × Int × Int
  | .infinity .negative => (-2, 0, 0)
  | .finite .negative mantissa exponent _ => (-1, -exponent, -mantissa)
  | .notANumber | .zero _ => (0, 0, 0)
  | .finite .positive mantissa exponent _ => (1, exponent, mantissa)
  | .infinity .positive => (2, 0, 0)

theorem unpacked_lt_iff {a b : UnpackedFloat} : a.lt b = true ↔
    a.isNaN = false ∧ b.isNaN = false ∧
      ((rank a).1 < (rank b).1 ∨ (rank a).1 = (rank b).1 ∧
        ((rank a).2.1 < (rank b).2.1 ∨ (rank a).2.1 = (rank b).2.1 ∧
          (rank a).2.2 < (rank b).2.2)) := by
  rcases a with (_ | _) | _ | _ | ⟨_ | _, m, e, _⟩ <;>
    rcases b with (_ | _) | _ | _ | ⟨_ | _, m', e', _⟩ <;>
      delta UnpackedFloat.lt UnpackedFloat.compare UnpackedFloat.isNaN rank <;>
      dsimp only <;>
      simp [Ordering.then_eq_lt, Ordering.then_eq_gt, Ordering.swap_eq_lt, Int.compare_eq_lt,
        Int.compare_eq_gt, Nat.compare_eq_lt, Nat.compare_eq_gt]
  rfl

variable {a b c : Float}

theorem lt_iff : a < b ↔ a.toModel.unpack.lt b.toModel.unpack = true := decide_eq_true_iff

theorem isNaN_of_lt (less : a < b) : a.isNaN = false := (unpacked_lt_iff.mp (lt_iff.mp less)).1

theorem lt_asymm (less : a < b) : ¬ b < a := by
  rw [lt_iff, unpacked_lt_iff] at *
  omega

theorem lt_or_lt (less : a < c) (number : b.isNaN = false) : a < b ∨ b < c := by
  have unpacked : b.toModel.unpack.isNaN = false := number
  simp only [lt_iff, unpacked_lt_iff] at *
  obtain ⟨first, last, order⟩ := less
  simp only [first, last, unpacked, true_and]
  omega

end Distance

inductive Plant.Nearest where
  | noPoint
  | point (id : PointId)
  /-- Distances that cannot be compared would have to be. -/
  | undecided
deriving DecidableEq, Repr

/-- Something that keeps places in the order of their coordinates and finds the nearest of them,
    with what it promises of places and distances that are numbers. -/
structure SpatialIndex where
  keeps : List Position → Bool
  nearest : List Position → Position → Plant.Nearest
  keeps_of_isNumber {places : List Position} :
    (∀ q ∈ places, q.isNumber = true) → keeps places = true
  noPoint_iff {places : List Position} {position : Position} :
    nearest places position = .noPoint ↔ places = []
  known {places : List Position} {position : Position} {id : PointId} :
    nearest places position = .point id → id.index < places.length
  least {places : List Position} {position : Position} : places ≠ [] →
    (∀ q ∈ places, (position.squaredDistance q).isNaN = false) →
      ∃ id q, nearest places position = .point id ∧ places[id.index]? = some q ∧
        ∀ r ∈ places, ¬ position.squaredDistance r < position.squaredDistance q

namespace SpatialIndex

theorem undecided (index : SpatialIndex) {places : List Position} {position : Position}
    (h : index.nearest places position = .undecided) :
    ∃ q ∈ places, (position.squaredDistance q).isNaN = true := by
  apply Classical.byContradiction
  intro numbers
  have inhabited : places ≠ [] := by
    intro empty
    cases h.symm.trans (index.noPoint_iff.mpr empty)
  obtain ⟨id, -, found, -⟩ := index.least inhabited fun q member =>
    Bool.eq_false_iff.mpr fun nan => numbers ⟨q, member, nan⟩
  cases h.symm.trans found

def nearestFrom (position : Position) (next : Nat) (best : Option (PointId × Float)) :
    List Position → Option (PointId × Float)
  | [] => best
  | q :: rest =>
    let d := position.squaredDistance q
    let nearer := !d.isNaN && best.all fun (_, least) => d < least
    nearestFrom position (next + 1) (if nearer then some (⟨next⟩, d) else best) rest

/-- Of places that are equally near the first is found. Distances that are not numbers are passed
    over as long as there is one that is finite. -/
def scan (places : List Position) (position : Position) : Plant.Nearest :=
  match nearestFrom position 0 none places with
  | some (id, d) =>
    if d.isFinite || places.all fun q => !(position.squaredDistance q).isNaN then .point id
    else .undecided
  | none =>
    match places with
    | [] => .noPoint
    | [_] => .point ⟨0⟩
    | _ => .undecided

variable {position : Position} {places : List Position} {next : Nat}
  {best : Option (PointId × Float)} {id : PointId} {d : Float}

theorem nearestFrom_known (h : nearestFrom position next best places = some (id, d)) :
    best = some (id, d) ∨ ∃ i q, id.index = next + i ∧ places[i]? = some q ∧
      d = position.squaredDistance q := by
  induction places generalizing next best with
  | nil => exact .inl h
  | cons q rest ih =>
    simp only [nearestFrom] at h
    rcases ih h with kept | ⟨i, r, number, found, here⟩
    · split at kept
      · cases kept
        exact .inr ⟨0, q, rfl, rfl, rfl⟩
      · exact .inl kept
    · exact .inr ⟨i + 1, r, by omega, found, here⟩

theorem nearestFrom_least (numbers : ∀ b ∈ best, b.2.isNaN = false)
    (h : nearestFrom position next best places = some (id, d)) :
    (∀ b ∈ best, ¬ b.2 < d) ∧ ∀ q ∈ places, ¬ position.squaredDistance q < d := by
  induction places generalizing next best with
  | nil =>
    subst h
    simp only [Option.mem_some_iff, forall_eq', List.not_mem_nil, false_implies, implies_true,
      and_true]
    exact fun less => Distance.lt_asymm less less
  | cons q rest ih =>
    simp only [nearestFrom] at h
    rw [List.forall_mem_cons]
    split at h
    · rename_i nearer
      simp only [Bool.and_eq_true, Bool.not_eq_true', Option.all_eq_true, decide_eq_true_eq]
        at nearer
      obtain ⟨number, before⟩ := nearer
      obtain ⟨here, later⟩ := ih (by simpa using number) h
      have here := here _ rfl
      refine ⟨fun b kept less => ?_, here, later⟩
      rcases Distance.lt_or_lt less number with less | less
      · exact Distance.lt_asymm less (before b kept)
      · exact here less
    · rename_i farther
      obtain ⟨before, later⟩ := ih numbers h
      refine ⟨before, fun less => farther ?_, later⟩
      simp only [Distance.isNaN_of_lt less, Bool.not_false, Bool.true_and, Option.all_eq_true,
        decide_eq_true_eq]
      exact fun b kept => (Distance.lt_or_lt less (numbers b kept)).resolve_right (before b kept)

theorem isSome_nearestFrom (given : best.isSome = true) :
    (nearestFrom position next best places).isSome = true := by
  induction places generalizing next best with
  | nil => exact given
  | cons q rest ih =>
    apply ih
    split
    · rfl
    · exact given

theorem scan_of_some (found : nearestFrom position 0 none places = some (id, d)) :
    ∃ q, places[id.index]? = some q ∧ d = position.squaredDistance q := by
  rcases nearestFrom_known found with kept | ⟨i, q, number, here, distance⟩
  · cases kept
  · rw [number, Nat.zero_add]
    exact ⟨q, here, distance⟩

theorem scan_known (h : scan places position = .point id) : id.index < places.length := by
  unfold scan at h
  split at h
  · rename_i found
    obtain ⟨q, here, -⟩ := scan_of_some found
    split at h
    · cases h
      exact (List.getElem?_eq_some_iff.mp here).1
    · cases h
  · split at h <;> cases h
    exact Nat.one_pos

theorem scan_noPoint_iff : scan places position = .noPoint ↔ places = [] := by
  unfold scan
  split
  · rename_i found
    obtain ⟨q, here, -⟩ := scan_of_some found
    have inhabited : places ≠ [] := by
      intro empty
      rw [empty] at here
      cases here
    split <;> simp [inhabited]
  · split
    · simp
    · simp
    · rename_i inhabited _
      simp only [reduceCtorEq, false_iff]
      exact inhabited

theorem scan_least (inhabited : places ≠ [])
    (numbers : ∀ q ∈ places, (position.squaredDistance q).isNaN = false) :
    ∃ id q, scan places position = .point id ∧ places[id.index]? = some q ∧
      ∀ r ∈ places, ¬ position.squaredDistance r < position.squaredDistance q := by
  have all : (places.all fun q => !(position.squaredDistance q).isNaN) = true := by
    simpa using numbers
  cases found : nearestFrom position 0 none places with
  | some best =>
    obtain ⟨id, d⟩ := best
    obtain ⟨q, here, rfl⟩ := scan_of_some found
    refine ⟨id, q, ?_, here, (nearestFrom_least (by simp) found).2⟩
    simp only [scan, found, all, Bool.or_true, if_true]
  | none =>
    cases places with
    | nil => exact absurd rfl inhabited
    | cons q rest =>
      have first := numbers q List.mem_cons_self
      simp only [nearestFrom, first, Option.all_none, Bool.not_false, Bool.true_and, if_true]
        at found
      have still := @isSome_nearestFrom position rest 1 (some (⟨0⟩, position.squaredDistance q)) rfl
      rw [found] at still
      cases still

/-- An index that goes through all places. It keeps any that fit into a node of the given size, and
    has to put more than these in order. -/
def scanning (size : Nat) : SpatialIndex where
  keeps places := places.length ≤ size || places.all (·.isNumber)
  nearest := scan
  keeps_of_isNumber numbers := by
    simp only [Bool.or_eq_true, List.all_eq_true]
    exact .inr numbers
  noPoint_iff := scan_noPoint_iff
  known := scan_known
  least := scan_least

def usual : SpatialIndex := scanning 6

end SpatialIndex

end TrafficControl
