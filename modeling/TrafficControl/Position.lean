import TrafficControl.Decimal.Tenths

namespace TrafficControl

/-- A place in the flat frame of the plant, in millimetres. -/
structure Position where
  x : Float
  y : Float
deriving BEq, Inhabited

namespace Position

def isNumber (p : Position) : Bool := !p.x.isNaN && !p.y.isNaN

def squaredDistance (a b : Position) : Float :=
  let dx := b.x - a.x
  let dy := b.y - a.y
  dx * dx + dy * dy

def distance (a b : Position) : Float := (a.squaredDistance b).sqrt

instance : ToString Position :=
  ⟨fun p => "(" ++ Decimal.tenths p.x ++ ", " ++ Decimal.tenths p.y ++ ")"⟩

end Position

end TrafficControl
