import Mathlib
import TrafficControl.Proofs.Route.Arcs

namespace TrafficControl

def Arc.Precedes (a b : Arc) : Prop :=
  a.source.index < b.source.index ∨ a.source = b.source ∧
    (a.path.index < b.path.index ∨
      a.path = b.path ∧ a.direction = .forward ∧ b.direction = .backward)

namespace NetworkScope

/-- Whether the path can be driven that way: it is open, and so are both of its ends, and its cost
    is one that can be said. -/
def opens (s : NetworkScope) (plant : Plant) (path : Path) (d : Direction) : Bool :=
  !path.locked && path.usableBy s.group && path.allows d && s.usable plant (path.start d) &&
    s.usable plant (path.finish d) && s.weighing path d s.vehicle ≠ .infinite

def arcOf (s : NetworkScope) (id : PathId) (path : Path) (d : Direction) : Arc where
  source := path.start d
  target := path.finish d
  path := id
  direction := d
  cost := s.weighing path d s.vehicle

variable {s : NetworkScope} {plant : Plant} {point : PointId} {id : PathId} {path : Path}
  {d : Direction} {a b : Arc}

theorem opens_iff : s.opens plant path d = true ↔ path.locked = false ∧
    path.usableBy s.group = true ∧ path.allows d = true ∧ s.usable plant (path.start d) = true ∧
      s.usable plant (path.finish d) = true ∧ s.weighing path d s.vehicle ≠ .infinite := by
  simp [opens, and_assoc]

theorem drives_arcOf (found : plant.path? id = some path) :
    s.Drives plant (s.arcOf id path d) ↔ s.opens plant path d = true := by
  rw [opens_iff]
  constructor
  · intro drives
    obtain ⟨⟨path', found', unlocked, group, allowed, -⟩, source, target, finite⟩ := drives
    cases found.symm.trans found'
    exact ⟨unlocked, group, allowed, source, target, finite⟩
  · intro h
    obtain ⟨unlocked, group, allowed, source, target, finite⟩ := h
    exact ⟨⟨path, found, unlocked, group, allowed, rfl, rfl, rfl⟩, source, target, finite⟩

theorem Drives.eq_arcOf (drives : s.Drives plant a) (found : plant.path? a.path = some path) :
    a = s.arcOf a.path path a.direction := by
  obtain ⟨⟨path', found', -, -, -, source, target, cost⟩, -, -, -⟩ := drives
  cases found.symm.trans found'
  obtain ⟨source', target', id, d, cost'⟩ := a
  simp only at source target cost
  subst source target cost
  rfl

theorem Drives.unique (first : s.Drives plant a) (second : s.Drives plant b)
    (same : a.path = b.path) (direction : a.direction = b.direction) : a = b := by
  obtain ⟨path, found, -⟩ := first.path
  rw [first.eq_arcOf found, second.eq_arcOf (same ▸ found), same, direction]

theorem directionsFrom_ordered : (s.directionsFrom plant point path).Pairwise
    fun d e => d = .forward ∧ e = .backward := by
  unfold directionsFrom
  split
  · exact .nil
  · apply List.Pairwise.filter
    simp

theorem departures_ordered : (s.departures plant point).Pairwise fun e f =>
    e.1.index < f.1.index ∨ e.1 = f.1 ∧ e.2.2 = .forward ∧ f.2.2 = .backward := by
  unfold departures
  split
  · rename_i usable
    have ascending : ((plant.incident? point).getD []).Pairwise (·.index < ·.index) := by
      rw [Plant.incident?_eq (known_of_usable usable), Option.getD_some]
      exact numbersOf_ascending
    refine List.pairwise_flatMap.mpr
      ⟨fun id _ => ?_, ascending.imp ?_⟩
    · split
      · exact .nil
      · rw [List.pairwise_map]
        exact directionsFrom_ordered.imp fun ways => .inr ⟨rfl, ways⟩
    · -- what comes of different paths is in the order of these
      intro id id' less e first f second
      split at first
      · cases first
      · split at second
        · cases second
        · obtain ⟨d, -, rfl⟩ := List.mem_map.mp first
          obtain ⟨d', -, rfl⟩ := List.mem_map.mp second
          exact .inl less
  · exact .nil

theorem row_ordered :
    ((s.departures plant point).filterMap s.arc?).Pairwise Arc.Precedes := by
  have sources : ∀ a ∈ (s.departures plant point).filterMap s.arc?, a.source = point :=
    fun a member => (mem_row.mp member).2
  have named {e : PathId × Path × Direction} {a : Arc} (arc : s.arc? e = some a) :
      a.path = e.1 ∧ a.direction = e.2.2 := by
    obtain ⟨-, rfl⟩ := arc?_eq_some.mp arc
    exact ⟨rfl, rfl⟩
  have ordered : ((s.departures plant point).filterMap s.arc?).Pairwise fun a b =>
      a.path.index < b.path.index ∨
        a.path = b.path ∧ a.direction = .forward ∧ b.direction = .backward := by
    refine List.pairwise_filterMap.mpr (departures_ordered.imp ?_)
    intro e f before a first b second
    rwa [(named first).1, (named first).2, (named second).1, (named second).2]
  refine ordered.imp_of_mem fun first second before => .inr ⟨?_, before⟩
  rw [sources _ first, sources _ second]

end NetworkScope

namespace Network

variable {s : NetworkScope} {plant : Plant} {n : Network}

theorem arcs_ordered : (build s plant).arcs.Pairwise Arc.Precedes := by
  have source {point : PointId} {a : Arc} (member : a ∈ (s.departures plant point).filterMap s.arc?) :
      a.source = point := (NetworkScope.mem_row.mp member).2
  refine List.pairwise_flatten.mpr ⟨fun row listed => ?_, ?_⟩
  · obtain ⟨point, -, rfl⟩ := List.mem_map.mp listed
    exact NetworkScope.row_ordered
  · rw [build, pointsOf, List.map_map, List.pairwise_map]
    refine List.pairwise_lt_range.imp fun less a first b second => .inl ?_
    rw [source first, source second]
    exact less

theorem arcs_nodup : (build s plant).arcs.Nodup := by
  refine arcs_ordered.imp fun before same => ?_
  subst same
  rcases before with less | ⟨-, less | ⟨-, forward, backward⟩⟩
  · exact Nat.lt_irrefl _ less
  · exact Nat.lt_irrefl _ less
  · cases forward.symm.trans backward

theorem filter_arcs {id : PathId} {path : Path} (d : Direction)
    (found : plant.path? id = some path) :
    ((build s plant).arcs.filter fun a => a.path = id ∧ a.direction = d) =
      if s.opens plant path d then [s.arcOf id path d] else [] := by
  have members (a : Arc) : a ∈ ((build s plant).arcs.filter fun a => a.path = id ∧ a.direction = d) ↔
      s.opens plant path d = true ∧ a = s.arcOf id path d := by
    rw [List.mem_filter, mem_arcs_build, ← NetworkScope.drives_arcOf found, decide_eq_true_eq]
    constructor
    · intro h
      obtain ⟨drives, rfl, rfl⟩ := h
      have same := drives.eq_arcOf found
      exact ⟨same ▸ drives, same⟩
    · intro h
      obtain ⟨drives, rfl⟩ := h
      exact ⟨drives, rfl, rfl⟩
  split
  · rename_i opens
    apply List.perm_singleton.mp
    apply (List.perm_ext_iff_of_nodup (arcs_nodup.filter _) (List.pairwise_singleton _ _)).mpr
    intro a
    rw [members, List.mem_singleton]
    exact and_iff_right opens
  · rename_i shut
    apply List.eq_nil_iff_forall_not_mem.mpr
    intro a member
    exact shut ((members a).mp member).1

def bound (n : Network) (i : Nat) : Nat := (n.rows.take i).flatten.length

theorem bound_succ {i : Nat} {row : List Arc} (found : n.rows[i]? = some row) :
    n.bound (i + 1) = n.bound i + row.length := by
  rw [bound, bound, List.take_add_one, found, Option.toList_some, List.flatten_concat,
    List.length_append]

theorem outRange?_eq {point : PointId} (known : point.index < n.pointCount) :
    n.outRange? point = some (n.bound point.index, n.bound (point.index + 1)) := by
  have starts {i : Nat} (inside : i ≤ n.pointCount) : n.starts[i]? = some (n.bound i) := by
    rw [starts, offsets_getElem? n.rows 0 i inside, Nat.zero_add, bound]
  rw [outRange?, starts (Nat.le_of_lt known), starts known]

theorem source_eq_iff (sound : n.Sound) {point : PointId} (known : point.index < n.pointCount)
    {place : Nat} {a : Arc} (here : n.arcs[place]? = some a) :
    a.source = point ↔ n.bound point.index ≤ place ∧ place < n.bound (point.index + 1) := by
  have found : n.rows[point.index]? = some n.rows[point.index] := List.getElem?_eq_getElem known
  have listed (b : Arc) : (b, place) ∈ n.outArcs point ↔
      n.arcs[place]? = some b ∧ b.source = point := mem_outArcs sound
  simp only [outArcs_eq found, List.mk_mem_zipIdx_iff_le_and_getElem?_sub] at listed
  rw [bound_succ found]
  constructor
  · intro leaves
    obtain ⟨after, inner⟩ := (listed a).mpr ⟨here, leaves⟩
    have inside := (List.getElem?_eq_some_iff.mp inner).1
    exact ⟨after, by unfold bound; omega⟩
  · intro h
    obtain ⟨after, before⟩ := h
    have inside : place - n.bound point.index < n.rows[point.index].length := by omega
    obtain ⟨there, leaves⟩ := (listed _).mp ⟨after, List.getElem?_eq_getElem inside⟩
    cases here.symm.trans there
    exact leaves

/-- A network has one arc for each direction of a path that can be driven, and no others. They are
    listed by the points they leave, then by paths, forward before backward; and the places of those
    that leave a point are a range that begins where the one of the point before it ends. -/
theorem each_direction_once (s : NetworkScope) (plant : Plant) :
    let n := build s plant
    (∀ id path d, plant.path? id = some path →
        (n.arcs.filter fun a => a.path = id ∧ a.direction = d) =
          if s.opens plant path d then [s.arcOf id path d] else []) ∧
      (∀ a ∈ n.arcs, ∃ path, plant.path? a.path = some path) ∧
      n.arcs.Pairwise Arc.Precedes ∧
      n.pointCount = plant.pointCount ∧ n.bound 0 = 0 ∧ n.bound plant.pointCount = n.arcs.length ∧
      (∀ point : PointId, point.index < plant.pointCount →
        n.outRange? point = some (n.bound point.index, n.bound (point.index + 1)) ∧
          n.bound point.index ≤ n.bound (point.index + 1) ∧
          ∀ place a, n.arcs[place]? = some a →
            (a.source = point ↔
              n.bound point.index ≤ place ∧ place < n.bound (point.index + 1))) := by
  intro n
  have count : n.pointCount = plant.pointCount := pointCount_build
  refine ⟨fun id path d found => filter_arcs d found, fun a member => ?_, arcs_ordered, count, rfl,
    ?_, fun point known => ?_⟩
  · obtain ⟨path, found, -⟩ := (mem_arcs_build.mp member).path
    exact ⟨path, found⟩
  · rw [← count, bound, pointCount, List.take_length, arcs]
  · rw [← count] at known
    have found : n.rows[point.index]? = some n.rows[point.index] := List.getElem?_eq_getElem known
    have next := bound_succ found
    exact ⟨outRange?_eq known, by omega, fun place a => source_eq_iff sound_build known⟩

def siding : Plant where
  layout := {
    points := [{ name := "A", position := ⟨0, 0⟩ }, { name := "B", position := ⟨1000, 0⟩ },
      { name := "C", position := ⟨2000, 0⟩ }]
    paths := [
      { name := "A<->B", source := ⟨1⟩, destination := ⟨0⟩, length := 10, backwardVelocity := 1000 },
      { name := "A<->A", source := ⟨0⟩, destination := ⟨0⟩, length := 20, backwardVelocity := 1000 },
      { name := "B-->C", source := ⟨1⟩, destination := ⟨2⟩, length := 30 }] }
  sound := by decide
  incidence := [[⟨0⟩, ⟨1⟩], [⟨0⟩, ⟨2⟩], [⟨2⟩]]
  incidence_eq := by decide
  memberships := ∅
  memberships_eq := by decide

theorem each_direction_once_siding :
    let s : NetworkScope := ⟨"", { id := ⟨0⟩, name := "AGV" }, Measure.distance.weigh, [⟨2⟩]⟩
    ((build s siding).arcs.filter fun a => a.path = ⟨1⟩ ∧ a.direction = .backward) =
        [{ source := ⟨0⟩, target := ⟨0⟩, path := ⟨1⟩, direction := .backward, cost := 20 }] ∧
      ((build s siding).arcs.filter fun a => a.path = ⟨2⟩ ∧ a.direction = .forward) = [] ∧
      (build s siding).outRange? ⟨0⟩ = some (0, 3) ∧ (build s siding).outRange? ⟨1⟩ = some (3, 4) ∧
      (build s siding).outRange? ⟨2⟩ = some (4, 4) := by
  intro s
  obtain ⟨once, -, -, -, -, -, ranges⟩ := each_direction_once s siding
  refine ⟨?_, ?_, (ranges ⟨0⟩ (by decide)).1.trans ?_, (ranges ⟨1⟩ (by decide)).1.trans ?_,
    (ranges ⟨2⟩ (by decide)).1.trans ?_⟩
  · exact (once _ _ _ rfl).trans (by cbv)
  · exact (once _ _ _ rfl).trans (by cbv)
  all_goals cbv

end Network

end TrafficControl
