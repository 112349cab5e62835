import TrafficControl.Proofs.Plant.Incidence
import TrafficControl.Proofs.Plant.Locking

namespace TrafficControl

inductive Stroke where
  | point (name : String) (position : Position)
  | path (name : String) (source destination : PointId) (length : Nat)
  | twoWayPath (name : String) (source destination : PointId) (length : Nat)
  | block (name : String) (members : ResourceSet)
  | velocities (path : PathId) (forward backward : Nat)
  | penalties (path : PathId) (forward backward : Nat)
  | locked (path : PathId) (locked : Bool)
  | pathGroups (path : PathId) (groups : List String)
  | pointGroups (point : PointId) (groups : List String)

def Stroke.adds : Stroke → Bool
  | .point _ _ => true
  | .path _ _ _ _ => true
  | .twoWayPath _ _ _ _ => true
  | .block _ _ => true
  | _ => false

namespace Layout

def draw (l : Layout) : Stroke → Layout
  | .point name position => l.addPoint name position
  | .path name source destination length => l.addPath name source destination length
  | .twoWayPath name source destination length => l.addTwoWayPath name source destination length
  | .block name members => l.addBlock name members
  | .velocities path forward backward => l.setVelocities path forward backward
  | .penalties path forward backward => l.setPenalties path forward backward
  | .locked path locked => l.setLocked path locked
  | .pathGroups path groups => l.setPathGroups path groups
  | .pointGroups point groups => l.setPointGroups point groups

def drawAll (l : Layout) (strokes : List Stroke) : Layout := strokes.foldl draw l

theorem getElem?_of_prefix {α : Type} {l m : List α} {i : Nat} {a : α} (extension : l <+: m)
    (found : l[i]? = some a) : m[i]? = some a := by
  obtain ⟨more, rfl⟩ := extension
  rw [List.getElem?_append_left (List.getElem?_eq_some_iff.mp found).1]
  exact found

/-- Whatever stands in the one layout stands at the same place in the other. -/
structure Extends (l m : Layout) : Prop where
  points : l.points <+: m.points
  paths : l.paths <+: m.paths
  blocks : l.blocks <+: m.blocks

variable {l m n : Layout}

theorem Extends.refl (l : Layout) : l.Extends l :=
  ⟨List.prefix_refl _, List.prefix_refl _, List.prefix_refl _⟩

theorem Extends.trans (first : l.Extends m) (second : m.Extends n) : l.Extends n where
  points := first.points.trans second.points
  paths := first.paths.trans second.paths
  blocks := first.blocks.trans second.blocks

theorem extends_draw {stroke : Stroke} (adds : stroke.adds = true) : l.Extends (l.draw stroke) := by
  cases stroke with
  | point name position =>
    exact ⟨List.prefix_append .., List.prefix_refl _, List.prefix_refl _⟩
  | path | twoWayPath =>
    exact ⟨List.prefix_refl _, List.prefix_append .., List.prefix_refl _⟩
  | block name members =>
    exact ⟨List.prefix_refl _, List.prefix_refl _, List.prefix_append ..⟩
  | velocities | penalties | locked | pathGroups | pointGroups => cases adds

theorem extends_drawAll {strokes : List Stroke} (adds : ∀ stroke ∈ strokes, stroke.adds = true) :
    l.Extends (l.drawAll strokes) := by
  induction strokes generalizing l with
  | nil => exact .refl l
  | cons stroke rest ih =>
    have first : l.Extends (l.draw stroke) := extends_draw (adds stroke List.mem_cons_self)
    exact first.trans (ih fun other later => adds other (List.mem_cons_of_mem _ later))

end Layout

namespace Plant

variable {p q : Plant} {l : Layout} {spatial : SpatialIndex}

theorem ofLayout?_eq_ok_iff : ofLayout? l spatial = .ok p ↔ p.layout = l ∧ p.spatial = spatial := by
  have built (h : l.fault? spatial = none) :
      ofLayout? l spatial = .ok ⟨l, spatial, h, l.incidence, rfl, l.memberships, rfl⟩ := by
    unfold ofLayout?
    split
    · rename_i fault found
      cases found.symm.trans h
    · rfl
  constructor
  · intro h
    unfold ofLayout? at h
    split at h
    · cases h
    · cases h
      exact ⟨rfl, rfl⟩
  · rintro ⟨rfl, rfl⟩
    rw [built p.sound]
    exact congrArg Except.ok (eq_of_layout rfl rfl)

theorem exists_ofLayout?_iff : (∃ p, ofLayout? l spatial = .ok p) ↔ l.fault? spatial = none := by
  constructor
  · rintro ⟨p, built⟩
    obtain ⟨rfl, rfl⟩ := ofLayout?_eq_ok_iff.mp built
    exact p.sound
  · intro sound
    exact ⟨⟨l, spatial, sound, l.incidence, rfl, l.memberships, rfl⟩,
      ofLayout?_eq_ok_iff.mpr ⟨rfl, rfl⟩⟩

theorem ofLayout?_eq_error_iff {fault : PlantFault} :
    ofLayout? l spatial = .error fault ↔ l.fault? spatial = some fault := by
  unfold ofLayout?
  split
  · rename_i other found
    rw [found, Except.error.injEq, Option.some.injEq]
  · rename_i sound
    constructor
    · intro h
      cases h
    · intro h
      cases sound.symm.trans h

inductive Revision where
  | anew (strokes : List Stroke)
  | lock (path : PathId) (locked : Bool)
  | redraw (strokes : List Stroke)

def revise? (p : Plant) : Revision → Except PlantFault Plant
  | .anew strokes => ofLayout? (Layout.drawAll {} strokes) p.spatial
  | .lock path locked => p.withLocked path locked
  | .redraw strokes => ofLayout? (p.layout.drawAll strokes) p.spatial

/-- The plant after the revisions, of which those that fail leave it as it is. -/
def reviseAll (p : Plant) (revisions : List Revision) : Plant :=
  revisions.foldl (fun p revision => (p.revise? revision).toOption.getD p) p

section Extended

variable (extension : p.layout.Extends q.layout)
include extension

theorem point?_of_extends {id : PointId} {point : Point} (found : p.point? id = some point) :
    q.point? id = some point :=
  Layout.getElem?_of_prefix extension.points found

theorem path?_of_extends {id : PathId} {path : Path} (found : p.path? id = some path) :
    q.path? id = some path :=
  Layout.getElem?_of_prefix extension.paths found

theorem block?_of_extends {id : BlockId} {block : Block} (found : p.block? id = some block) :
    q.block? id = some block :=
  Layout.getElem?_of_prefix extension.blocks found

theorem incident?_of_extends {id : PointId} (known : id.index < p.pointCount) :
    ∃ old new, p.incident? id = some old ∧ q.incident? id = some (old ++ new) ∧
      ∀ path ∈ new, p.path? path = none ∧ ∃ added, q.path? path = some added := by
  have still : id.index < q.pointCount := Nat.lt_of_lt_of_le known extension.points.length_le
  obtain ⟨new, row, fresh⟩ := numbersOf_of_prefix extension.paths (·.touches id)
  exact ⟨_, new, incident?_eq known, (incident?_eq still).trans (congrArg some row), fresh⟩

theorem blocksListing_of_extends (r : Resource) :
    ∃ new, q.blocksListing r = p.blocksListing r ++ new ∧
      ∀ b ∈ new, p.block? b = none ∧ ∃ added, q.block? b = some added := by
  rw [blocksListing_eq_numbersOf, blocksListing_eq_numbersOf]
  exact numbersOf_of_prefix extension.blocks _

end Extended

/-- A plant that has been drawn, locked and drawn further is the one that is built of its own layout,
    whatever was done to it. What is added to it leaves every element where it was, and the paths at
    a point and the blocks that list a resource are the former ones followed by new ones. -/
theorem rebuilds_and_extends (spatial : SpatialIndex) (revisions : List Revision)
    {additions : List Stroke} (adds : ∀ stroke ∈ additions, stroke.adds = true) :
    let p := (empty spatial).reviseAll revisions
    ofLayout? p.layout p.spatial = .ok p ∧
      ∀ q, ofLayout? (p.layout.drawAll additions) p.spatial = .ok q →
        (∀ id point, p.point? id = some point → q.point? id = some point) ∧
        (∀ id path, p.path? id = some path → q.path? id = some path) ∧
        (∀ id block, p.block? id = some block → q.block? id = some block) ∧
        (∀ id, p.defines (.point id) = true →
          ∃ old new, p.incident? id = some old ∧ q.incident? id = some (old ++ new) ∧
            ∀ path ∈ new, p.path? path = none ∧ ∃ added, q.path? path = some added) ∧
        ∀ r, p.defines r = true → ∃ new, q.blocksListing r = p.blocksListing r ++ new ∧
          ∀ b ∈ new, p.block? b = none ∧ ∃ added, q.block? b = some added := by
  intro p
  refine ⟨ofLayout?_eq_ok_iff.mpr ⟨rfl, rfl⟩, fun q built => ?_⟩
  have extension : p.layout.Extends q.layout := by
    rw [(ofLayout?_eq_ok_iff.mp built).1]
    exact Layout.extends_drawAll adds
  refine ⟨?_, ?_, ?_, ?_, ?_⟩
  · intro id point
    exact point?_of_extends extension
  · intro id path
    exact path?_of_extends extension
  · intro id block
    exact block?_of_extends extension
  · intro id known
    exact incident?_of_extends extension (of_decide_eq_true known)
  · intro r known
    exact blocksListing_of_extends extension r

def yard : Plant := (empty .usual).reviseAll [
  .anew [.point "A" ⟨0, 0⟩, .point "B" ⟨1000, 0⟩, .path "A-->B" ⟨0⟩ ⟨1⟩ 1000,
    .block "Gate" (OrderedSet.ofList [.point ⟨0⟩])],
  .lock ⟨0⟩ true, .lock ⟨7⟩ true, .redraw [.path "A-->B" ⟨0⟩ ⟨1⟩ 1000],
  .redraw [.twoWayPath "Loop" ⟨0⟩ ⟨0⟩ 500, .penalties ⟨0⟩ 10 10]]

def annex : List Stroke := [.point "C" ⟨2000, 0⟩, .path "C-->A" ⟨2⟩ ⟨0⟩ 1000,
  .block "Siding" (OrderedSet.ofList [.point ⟨0⟩, .path ⟨2⟩, .block ⟨0⟩])]

theorem rebuilds_and_extends_yard :
    (∀ stroke ∈ annex, stroke.adds = true) ∧ ofLayout? yard.layout yard.spatial = .ok yard ∧
      ∃ q, ofLayout? (yard.layout.drawAll annex) yard.spatial = .ok q ∧
        (∃ new, q.incident? ⟨0⟩ = some ([⟨0⟩, ⟨1⟩] ++ new) ∧ ∀ path ∈ new, yard.path? path = none) ∧
        ∃ new, q.blocksListing (.point ⟨0⟩) = [⟨0⟩] ++ new ∧ ∀ b ∈ new, yard.block? b = none := by
  have adds : ∀ stroke ∈ annex, stroke.adds = true := by decide
  obtain ⟨rebuilt, extended⟩ := rebuilds_and_extends .usual _ adds
  obtain ⟨q, built⟩ : ∃ q, ofLayout? (yard.layout.drawAll annex) yard.spatial = .ok q :=
    exists_ofLayout?_iff.mpr (by decide)
  obtain ⟨-, -, -, incident, listing⟩ := extended q built
  refine ⟨adds, rebuilt, q, built, ?_, ?_⟩
  · obtain ⟨old, new, before, after, fresh⟩ := incident ⟨0⟩ (by decide)
    have loop : yard.incident? ⟨0⟩ = some [⟨0⟩, ⟨1⟩] := by decide
    cases before.symm.trans loop
    exact ⟨new, after, fun path added => (fresh path added).1⟩
  · obtain ⟨new, after, fresh⟩ := listing (.point ⟨0⟩) (by decide)
    have gate : yard.blocksListing (.point ⟨0⟩) = [⟨0⟩] := by decide
    exact ⟨new, gate ▸ after, fun b added => (fresh b added).1⟩

end Plant

end TrafficControl
