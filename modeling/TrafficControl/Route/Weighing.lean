import TrafficControl.Cost
import TrafficControl.Plant.Element
import TrafficControl.Settings

namespace TrafficControl

abbrev Weighing := Path → Direction → Vehicle → Cost

/-- Milliseconds at the lower of the two velocity limits; standing still takes for ever. -/
def Weighing.travelTime : Weighing := fun p d v =>
  let velocity := min (p.velocity d) (v.velocity d)
  if velocity = 0 then .infinite
  else Cost.ofNat ((Cost.ofNat (p.length * 1000)).amount / velocity)

def Measure.weigh : Measure → Weighing
  | .distance => fun p _ _ => .ofNat p.length
  | .travelTime => .travelTime
  | .hops => fun _ _ _ => 1
  | .penalties => fun p d _ => .ofNat (p.penalty d)

namespace Weighing

def plus (first second : Weighing) : Weighing := fun p d v => first p d v + second p d v

def total (parts : List Weighing) : Weighing := fun p d v => Cost.sum (parts.map fun w => w p d v)

end Weighing

def Measure.effective (measures : List Measure) : List Measure :=
  if measures.isEmpty then [.distance] else measures

def Weighing.ofMeasures (measures : List Measure) : Weighing :=
  .total ((Measure.effective measures).map Measure.weigh)

end TrafficControl
