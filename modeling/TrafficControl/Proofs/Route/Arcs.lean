import TrafficControl.Proofs.Plant.Incidence
import TrafficControl.Proofs.Route.Walk

namespace TrafficControl

/-- The vehicle can drive the arc: it is a direction of a path that is not locked, path and ends are
    open to the vehicle, and its cost is one that can be said. -/
structure NetworkScope.Drives (s : NetworkScope) (plant : Plant) (a : Arc) : Prop where
  path : ∃ path, plant.path? a.path = some path ∧ path.locked = false ∧
    path.usableBy s.group = true ∧ path.allows a.direction = true ∧
    a.source = path.start a.direction ∧ a.target = path.finish a.direction ∧
    a.cost = s.weighing path a.direction s.vehicle
  source : s.usable plant a.source = true
  target : s.usable plant a.target = true
  cost : a.cost ≠ .infinite

namespace NetworkScope

variable {s : NetworkScope} {plant : Plant} {point : PointId}

theorem known_of_usable (h : s.usable plant point = true) : point.index < plant.pointCount := by
  simp only [usable, Bool.and_eq_true, Option.any_eq_true] at h
  obtain ⟨-, q, found, -⟩ := h
  exact (List.getElem?_eq_some_iff.mp found).1

theorem mem_directionsFrom {path : Path} {d : Direction} :
    d ∈ s.directionsFrom plant point path ↔
      (path.locked = false ∧ path.usableBy s.group = true) ∧
      path.start d = point ∧ path.allows d = true ∧ s.usable plant (path.finish d) = true := by
  have both : d ∈ [Direction.forward, Direction.backward] := by cases d <;> simp
  unfold directionsFrom
  split
  · rename_i shut
    have closed : ¬ (path.locked = false ∧ path.usableBy s.group = true) := by
      intro h
      obtain ⟨unlocked, usable⟩ := h
      simp [unlocked, usable] at shut
    simp [closed]
  · rename_i clear
    rw [Bool.not_eq_true, Bool.or_eq_false_iff, Bool.not_eq_false'] at clear
    simp [List.mem_filter, both, clear, and_assoc]

theorem mem_departures {id : PathId} {path : Path} {d : Direction} :
    (id, path, d) ∈ s.departures plant point ↔ plant.path? id = some path ∧
      d ∈ s.directionsFrom plant point path ∧ s.usable plant point = true := by
  unfold departures
  split
  · rename_i usable
    simp only [List.mem_flatMap, Plant.mem_incident (known_of_usable usable), usable, and_true]
    constructor
    · intro h
      obtain ⟨id', -, member⟩ := h
      split at member
      · cases member
      · rename_i found
        obtain ⟨d', away, same⟩ := List.mem_map.mp member
        cases same
        exact ⟨found, away⟩
    · intro h
      obtain ⟨found, away⟩ := h
      refine ⟨id, ⟨path, found, ?_⟩, ?_⟩
      · have start := (mem_directionsFrom.mp away).2.1
        rw [Path.touches, Bool.or_eq_true, decide_eq_true_eq, decide_eq_true_eq]
        cases d
        · exact .inl start
        · exact .inr start
      · simp only [found]
        exact List.mem_map.mpr ⟨d, away, rfl⟩
  · rename_i unusable
    simp [unusable]

theorem arc?_eq_some {id : PathId} {path : Path} {d : Direction} {a : Arc} :
    s.arc? (id, path, d) = some a ↔ s.weighing path d s.vehicle ≠ .infinite ∧
      a = ⟨path.start d, path.finish d, id, d, s.weighing path d s.vehicle⟩ := by
  simp only [arc?]
  split
  · rename_i infinite
    simp [infinite]
  · rename_i finite
    simp only [finite, Option.some.injEq, ne_eq, not_false_eq_true, true_and]
    exact eq_comm

theorem mem_row {a : Arc} :
    a ∈ (s.departures plant point).filterMap s.arc? ↔ s.Drives plant a ∧ a.source = point := by
  rw [List.mem_filterMap]
  constructor
  · intro h
    obtain ⟨⟨id, path, d⟩, leaves, arc⟩ := h
    obtain ⟨found, away, usable⟩ := mem_departures.mp leaves
    obtain ⟨⟨unlocked, group⟩, start, allowed, finish⟩ := mem_directionsFrom.mp away
    obtain ⟨finite, rfl⟩ := arc?_eq_some.mp arc
    subst start
    exact ⟨⟨⟨path, found, unlocked, group, allowed, rfl, rfl, rfl⟩, usable, finish, finite⟩, rfl⟩
  · intro h
    obtain ⟨⟨⟨path, found, unlocked, group, allowed, start, finish, cost⟩, source, target, finite⟩,
      rfl⟩ := h
    refine ⟨(a.path, path, a.direction), mem_departures.mpr ⟨found, ?_, source⟩,
      arc?_eq_some.mpr ⟨cost ▸ finite, ?_⟩⟩
    · exact mem_directionsFrom.mpr ⟨⟨unlocked, group⟩, start.symm, allowed, finish ▸ target⟩
    · rw [← start, ← finish, ← cost]

end NetworkScope

namespace Network

/-- Every row holds arcs that leave its point, and all arcs end at points of the network. -/
structure Sound (n : Network) : Prop where
  leaves : ∀ (i : Nat) (row : List Arc), n.rows[i]? = some row → ∀ a ∈ row, a.source.index = i
  ends : ∀ a ∈ n.arcs, a.target.index < n.pointCount

variable {n : Network}

theorem mem_arcs {a : Arc} :
    a ∈ n.arcs ↔ ∃ (i : Nat) (row : List Arc), n.rows[i]? = some row ∧ a ∈ row := by
  rw [arcs, List.mem_flatten]
  constructor
  · intro h
    obtain ⟨row, listed, member⟩ := h
    obtain ⟨i, found⟩ := List.mem_iff_getElem?.mp listed
    exact ⟨i, row, found, member⟩
  · intro h
    obtain ⟨i, row, found, member⟩ := h
    exact ⟨row, List.mem_of_getElem? found, member⟩

section Build

variable {s : NetworkScope} {plant : Plant}

theorem pointCount_build : (build s plant).pointCount = plant.pointCount := by
  simp [build, pointCount, pointsOf]

theorem rows_build {i : Nat} (known : i < plant.pointCount) :
    (build s plant).rows[i]? = some ((s.departures plant ⟨i⟩).filterMap s.arc?) := by
  simp [build, pointsOf, known]

theorem lt_of_rows_build {i : Nat} {row : List Arc} (found : (build s plant).rows[i]? = some row) :
    i < plant.pointCount := by
  have bound := (List.getElem?_eq_some_iff.mp found).1
  rwa [← pointCount, pointCount_build] at bound

theorem mem_arcs_build {a : Arc} : a ∈ (build s plant).arcs ↔ s.Drives plant a := by
  rw [mem_arcs]
  constructor
  · intro h
    obtain ⟨i, row, found, member⟩ := h
    rw [rows_build (lt_of_rows_build found)] at found
    cases found
    exact (NetworkScope.mem_row.mp member).1
  · intro drives
    have known := NetworkScope.known_of_usable drives.source
    exact ⟨a.source.index, _, rows_build known, NetworkScope.mem_row.mpr ⟨drives, rfl⟩⟩

theorem sound_build : (build s plant).Sound where
  leaves i row found a member := by
    rw [rows_build (lt_of_rows_build found)] at found
    cases found
    rw [(NetworkScope.mem_row.mp member).2]
  ends a member := by
    rw [pointCount_build]
    exact NetworkScope.known_of_usable (mem_arcs_build.mp member).target

end Build

theorem offsets_getElem? (rows : List (List Arc)) (next i : Nat) (bound : i ≤ rows.length) :
    (offsets next rows)[i]? = some (next + (rows.take i).flatten.length) := by
  induction rows generalizing next i with
  | nil =>
    have first : i = 0 := by simpa using bound
    subst first
    rfl
  | cons row rest ih =>
    cases i with
    | zero => simp [offsets]
    | succ i =>
      have inner : i ≤ rest.length := by simpa using bound
      rw [offsets, List.getElem?_cons_succ, ih _ i inner]
      simp [Nat.add_assoc]

theorem outArcs_eq {point : PointId} {row : List Arc} (found : n.rows[point.index]? = some row) :
    n.outArcs point = row.zipIdx (n.rows.take point.index).flatten.length := by
  have bound := (List.getElem?_eq_some_iff.mp found).1
  rw [outArcs, found, starts, offsets_getElem? n.rows 0 point.index (by omega)]
  simp

theorem mem_outArcs (sound : n.Sound) {point : PointId} {a : Arc} {place : Nat} :
    (a, place) ∈ n.outArcs point ↔ n.arcs[place]? = some a ∧ a.source = point := by
  have source {i : Nat} {row : List Arc} (found : n.rows[i]? = some row) (member : a ∈ row) :
      a.source.index = i := sound.leaves i row found a member
  cases found : n.rows[point.index]? with
  | none =>
    have none : n.outArcs point = [] := by rw [outArcs, found]; rfl
    rw [none]
    constructor
    · intro member
      cases member
    · intro h
      obtain ⟨here, rfl⟩ := h
      obtain ⟨i, row, there, member⟩ := mem_arcs.mp (List.mem_of_getElem? here)
      rw [source there member, there] at found
      cases found
  | some row =>
    have split : n.arcs = (n.rows.take point.index).flatten ++ row ++
        (n.rows.drop (point.index + 1)).flatten := by
      obtain ⟨bound, here⟩ := List.getElem?_eq_some_iff.mp found
      rw [arcs, ← List.flatten_concat, ← here, ← List.take_succ_eq_append_getElem bound,
        ← List.flatten_append, List.take_append_drop]
    rw [outArcs_eq found, List.mk_mem_zipIdx_iff_le_and_getElem?_sub, split]
    constructor
    · intro h
      obtain ⟨after, here⟩ := h
      have inside := (List.getElem?_eq_some_iff.mp here).1
      refine ⟨?_, ?_⟩
      · rw [List.getElem?_append_left (by rw [List.length_append]; omega),
          List.getElem?_append_right after, here]
      · have index := source found (List.mem_of_getElem? here)
        exact congrArg Ident.mk index
    · intro h
      obtain ⟨here, rfl⟩ := h
      rw [List.append_assoc] at here
      rcases Nat.lt_or_ge place (n.rows.take a.source.index).flatten.length with before | after
      · rw [List.getElem?_append_left before] at here
        obtain ⟨other, listed, member⟩ := List.mem_flatten.mp (List.mem_of_getElem? here)
        obtain ⟨i, there⟩ := List.mem_iff_getElem?.mp listed
        have low : i < a.source.index := by
          have bound := (List.getElem?_eq_some_iff.mp there).1
          rw [List.length_take] at bound
          omega
        rw [List.getElem?_take_of_lt low] at there
        have same := source there member
        omega
      · refine ⟨after, ?_⟩
        rw [List.getElem?_append_right after] at here
        rcases Nat.lt_or_ge (place - (n.rows.take a.source.index).flatten.length) row.length with
          inside | beyond
        · rwa [List.getElem?_append_left inside] at here
        · rw [List.getElem?_append_right beyond] at here
          obtain ⟨other, listed, member⟩ := List.mem_flatten.mp (List.mem_of_getElem? here)
          obtain ⟨i, there⟩ := List.mem_iff_getElem?.mp listed
          rw [List.getElem?_drop] at there
          have same := source there member
          omega

end Network

end TrafficControl
