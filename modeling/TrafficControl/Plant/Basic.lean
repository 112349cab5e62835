import TrafficControl.Plant.Layout

namespace TrafficControl

/-- A layout without faults, with the indexes that are kept of it. -/
structure Plant where
  layout : Layout
  spatial : SpatialIndex := .usual
  sound : layout.fault? spatial = none
  incidence : List (List PathId)
  incidence_eq : incidence = layout.incidence
  memberships : Table Resource (List BlockId)
  memberships_eq : memberships = layout.memberships

namespace Plant

def ofLayout? (l : Layout) (spatial : SpatialIndex := .usual) : Except PlantFault Plant :=
  match h : l.fault? spatial with
  | some fault => .error fault
  | none => .ok ⟨l, spatial, h, l.incidence, rfl, l.memberships, rfl⟩

def empty (spatial : SpatialIndex := .usual) : Plant where
  layout := {}
  spatial
  sound := by
    have kept : spatial.keeps [] = true := spatial.keeps_of_isNumber fun q none => by cases none
    exact if_pos kept
  incidence := []
  incidence_eq := rfl
  memberships := ∅
  memberships_eq := rfl

instance : Inhabited Plant := ⟨.empty⟩

def pointCount (p : Plant) : Nat := p.layout.points.length

def pathCount (p : Plant) : Nat := p.layout.paths.length

def blockCount (p : Plant) : Nat := p.layout.blocks.length

def isEmpty (p : Plant) : Bool := p.layout.points.isEmpty

def point? (p : Plant) (id : PointId) : Option Point := p.layout.points[id.index]?

def path? (p : Plant) (id : PathId) : Option Path := p.layout.paths[id.index]?

def block? (p : Plant) (id : BlockId) : Option Block := p.layout.blocks[id.index]?

def defines (p : Plant) (r : Resource) : Bool := p.layout.defines r

def pathLocked (p : Plant) (id : PathId) : Bool := (p.path? id).any (·.locked)

def isLocked (p : Plant) : Resource → Bool
  | .path id => p.pathLocked id
  | _ => false

def blocksListing (p : Plant) (r : Resource) : List BlockId := (p.memberships.get? r).getD []

def incident? (p : Plant) (id : PointId) : Option (List PathId) := p.incidence[id.index]?

def withLocked (p : Plant) (path : PathId) (locked : Bool) : Except PlantFault Plant :=
  match p.path? path with
  | none => .error (.notFound (.path path))
  | some _ => .ok {
      layout := p.layout.setLocked path locked
      spatial := p.spatial
      sound := Layout.fault?_setLocked.trans p.sound
      incidence := p.incidence
      incidence_eq := p.incidence_eq.trans Layout.incidence_setLocked.symm
      memberships := p.memberships
      memberships_eq := p.memberships_eq }

def summary (p : Plant) : String :=
  "PlantModel \x7b points: " ++ toString p.pointCount ++ ", paths: " ++ toString p.pathCount ++
    ", blocks: " ++ toString p.blockCount ++ " \x7d"

def nearest (p : Plant) (position : Position) : Nearest :=
  p.spatial.nearest p.layout.places position

end Plant

end TrafficControl
