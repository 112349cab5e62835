import TrafficControl.Plant.Element
import TrafficControl.Plant.SpatialIndex
import TrafficControl.Table
import TrafficControl.Text.Quoted

namespace TrafficControl

/-- What is drawn of a plant. The number of an element is its place in its list. -/
structure Layout where
  points : List Point := []
  paths : List Path := []
  blocks : List Block := []

inductive PlantFault where
  | duplicateName (name : String)
  | danglingPath (path : PathId) (point : PointId)
  | emptyBlock (name : String)
  | notFound (resource : Resource)
  | unorderedPoints
deriving DecidableEq

namespace PlantFault

def message : PlantFault → String
  | duplicateName name => "duplicate element name " ++ Text.quoted name
  | danglingPath path point =>
    "path " ++ toString path ++ " references unknown point " ++ toString point
  | emptyBlock name => "block " ++ Text.quoted name ++ " has no members"
  | notFound (.point id) => "point " ++ toString id ++ " not found"
  | notFound (.path id) => "path " ++ toString id ++ " not found"
  | notFound (.block id) => "block " ++ toString id ++ " not found"
  | unorderedPoints => "the coordinates of the points have no order"

end PlantFault

namespace Layout

def addPoint (l : Layout) (name : String) (position : Position) : Layout :=
  { l with points := l.points ++ [{ name, position }] }

def addPath (l : Layout) (name : String) (source destination : PointId) (length : Nat) : Layout :=
  { l with paths := l.paths ++ [{ name, source, destination, length }] }

def addTwoWayPath (l : Layout) (name : String) (source destination : PointId) (length : Nat) :
    Layout :=
  { l with paths := l.paths ++ [{ name, source, destination, length, backwardVelocity := 1000 }] }

def addBlock (l : Layout) (name : String) (members : ResourceSet) : Layout :=
  { l with blocks := l.blocks ++ [{ name, members }] }

def adjustPath (l : Layout) (path : PathId) (change : Path → Path) : Layout :=
  { l with paths := l.paths.modify path.index change }

def setVelocities (l : Layout) (path : PathId) (forward backward : Nat) : Layout :=
  l.adjustPath path fun p => { p with forwardVelocity := forward, backwardVelocity := backward }

def setPenalties (l : Layout) (path : PathId) (forward backward : Nat) : Layout :=
  l.adjustPath path fun p => { p with forwardPenalty := forward, backwardPenalty := backward }

def setLocked (l : Layout) (path : PathId) (locked : Bool) : Layout :=
  l.adjustPath path fun p => { p with locked }

def setPathGroups (l : Layout) (path : PathId) (groups : List String) : Layout :=
  l.adjustPath path fun p => { p with groups }

def setPointGroups (l : Layout) (point : PointId) (groups : List String) : Layout :=
  { l with points := l.points.modify point.index fun p => { p with groups } }

def defines (l : Layout) : Resource → Bool
  | .point id => id.index < l.points.length
  | .path id => id.index < l.paths.length
  | .block id => id.index < l.blocks.length

def firstRepeated (seen : List String) : List String → Option String
  | [] => none
  | name :: rest => if name ∈ seen then some name else firstRepeated (name :: seen) rest

def pathFault (pointCount next : Nat) (seen : List String) : List Path → Option PlantFault
  | [] => none
  | p :: rest =>
    if ¬ p.source.index < pointCount then some (.danglingPath ⟨next⟩ p.source)
    else if ¬ p.destination.index < pointCount then some (.danglingPath ⟨next⟩ p.destination)
    else if p.name ∈ seen then some (.duplicateName p.name)
    else pathFault pointCount (next + 1) (p.name :: seen) rest

def blockFault (l : Layout) (b : Block) : Option PlantFault :=
  if b.members.isEmpty then some (.emptyBlock b.name)
  else (b.members.toList.find? fun r => !l.defines r).map .notFound

def places (l : Layout) : List Position := l.points.map (·.position)

def orderFault? (l : Layout) (spatial : SpatialIndex) : Option PlantFault :=
  if spatial.keeps l.places then none else some .unorderedPoints

/-- The first thing wrong: points come before paths, and paths before blocks. The spatial index is
    made last. -/
def fault? (l : Layout) (spatial : SpatialIndex) : Option PlantFault :=
  match firstRepeated [] (l.points.map (·.name)) with
  | some name => some (.duplicateName name)
  | none =>
    match pathFault l.points.length 0 [] l.paths with
    | some fault => some fault
    | none =>
      match l.blocks.findSome? l.blockFault with
      | some fault => some fault
      | none => l.orderFault? spatial

def enterPath (rows : List (List PathId)) (p : Path) (id : PathId) : List (List PathId) :=
  let rows := rows.modify p.source.index (· ++ [id])
  if p.destination = p.source then rows else rows.modify p.destination.index (· ++ [id])

def incidence (l : Layout) : List (List PathId) :=
  l.paths.zipIdx.foldl (fun rows (p, i) => enterPath rows p ⟨i⟩) (l.points.map fun _ => [])

def enterBlock (rows : Table Resource (List BlockId)) (b : Block) (id : BlockId) :
    Table Resource (List BlockId) :=
  b.members.toList.foldl (fun rows r => rows.insert r ((rows.get? r).getD [] ++ [id])) rows

def memberships (l : Layout) : Table Resource (List BlockId) :=
  l.blocks.zipIdx.foldl (fun rows (b, i) => enterBlock rows b ⟨i⟩) ∅

theorem pathFault_modify {n next k : Nat} {seen : List String} {paths : List Path}
    {change : Path → Path} (name : ∀ p, (change p).name = p.name)
    (source : ∀ p, (change p).source = p.source)
    (destination : ∀ p, (change p).destination = p.destination) :
    pathFault n next seen (paths.modify k change) = pathFault n next seen paths := by
  induction paths generalizing k next seen with
  | nil => rw [List.modify_nil]
  | cons p rest ih =>
    cases k with
    | zero => simp only [List.modify_zero_cons, pathFault, name, source, destination]
    | succ k => simp only [List.modify_succ_cons, pathFault, ih]

theorem incidence_fold_modify {k next : Nat} {paths : List Path} {rows : List (List PathId)}
    {change : Path → Path} (source : ∀ p, (change p).source = p.source)
    (destination : ∀ p, (change p).destination = p.destination) :
    ((paths.modify k change).zipIdx next).foldl (fun rows (p, i) => enterPath rows p ⟨i⟩) rows =
      (paths.zipIdx next).foldl (fun rows (p, i) => enterPath rows p ⟨i⟩) rows := by
  induction paths generalizing k next rows with
  | nil => rw [List.modify_nil]
  | cons p rest ih =>
    cases k with
    | zero => simp only [List.modify_zero_cons, List.zipIdx_cons, List.foldl_cons, enterPath,
        source, destination]
    | succ k => simp only [List.modify_succ_cons, List.zipIdx_cons, List.foldl_cons, ih]

theorem blockFault_setLocked {l : Layout} {path : PathId} {locked : Bool} :
    (l.setLocked path locked).blockFault = l.blockFault := by
  funext b
  have same : (l.setLocked path locked).defines = l.defines := by
    funext r
    cases r with
    | point id => rfl
    | path id => simp [defines, setLocked, adjustPath]
    | block id => rfl
  simp only [blockFault, same]

theorem fault?_setLocked {l : Layout} {spatial : SpatialIndex} {path : PathId} {locked : Bool} :
    (l.setLocked path locked).fault? spatial = l.fault? spatial := by
  have order : (l.setLocked path locked).orderFault? spatial = l.orderFault? spatial := rfl
  unfold fault?
  rw [blockFault_setLocked, order]
  simp only [setLocked, adjustPath]
  rw [pathFault_modify] <;> intro p <;> rfl

theorem incidence_setLocked {l : Layout} {path : PathId} {locked : Bool} :
    (l.setLocked path locked).incidence = l.incidence := by
  simp only [incidence, setLocked, adjustPath]
  rw [incidence_fold_modify] <;> intro p <;> rfl

end Layout

end TrafficControl
