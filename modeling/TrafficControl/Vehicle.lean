import TrafficControl.Ident
import TrafficControl.Text.Blank

namespace TrafficControl

inductive Direction where
  | forward
  | backward
deriving DecidableEq, Repr, Inhabited

instance : ToString Direction where
  toString
    | .forward => "forward"
    | .backward => "backward"

/-- What routing knows of a vehicle. Velocities are in millimetres per second. -/
structure Vehicle where
  id : VehicleId
  name : String
  group : Option String := none
  forwardVelocity : Nat := 1000
  backwardVelocity : Nat := 1000
deriving DecidableEq, Repr

namespace Vehicle

def velocity (v : Vehicle) : Direction → Nat
  | .forward => v.forwardVelocity
  | .backward => v.backwardVelocity

def groupOr (v : Vehicle) (default : String) : String :=
  match v.group with
  | none => default
  | some group =>
    let trimmed := Text.trim group
    if trimmed.isEmpty then default else trimmed

end Vehicle

end TrafficControl
