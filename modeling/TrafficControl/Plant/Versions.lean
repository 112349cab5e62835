import TrafficControl.Plant.Basic

namespace TrafficControl

structure PlantVersions where
  current : Plant := .empty
  generation : Nat := 0

namespace PlantVersions

instance : Inhabited PlantVersions := ⟨{}⟩

/-- Locks or unlocks a path; a path that is so already counts as no change. -/
def setLocked (v : PlantVersions) (path : PathId) (locked : Bool) :
    Except PlantFault PlantVersions :=
  if (v.current.path? path).any (·.locked == locked) then .ok v
  else
    match v.current.withLocked path locked with
    | .error fault => .error fault
    | .ok current => .ok { current, generation := v.generation + 1 }

def replace (v : PlantVersions) (plant : Plant) : PlantVersions :=
  { current := plant, generation := v.generation + 1 }

end PlantVersions

end TrafficControl
