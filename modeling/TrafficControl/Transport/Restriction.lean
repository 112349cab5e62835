import TrafficControl.Plant.Basic
import TrafficControl.Settings
import TrafficControl.Transport.Order

namespace TrafficControl

def Step.refresh (s : Step) (p : Plant) : Step :=
  { s with locked := (p.path? s.path).all (·.locked) }

def refreshLocks (p : Plant) (orders : List DriveOrder) : List DriveOrder :=
  orders.map fun o => o.mapSteps fun steps => steps.map (·.refresh p)

def containsLocked (orders : List DriveOrder) : Bool :=
  orders.any fun o => o.steps.any (·.locked)

/-- Decides step by step what a vehicle may still execute. Once it was refused a step, it is refused
    all that follow. -/
structure ExecutionTest where
  fallback : Fallback
  source : PointId
  allowed : Bool := true
deriving DecidableEq, Repr

namespace ExecutionTest

def permits (t : ExecutionTest) (s : Step) : Bool :=
  match t.fallback with
  | .pauseImmediately => s.source ≠ t.source
  | .pauseAtPathLock => !s.locked
  | .ignorePathLocks => true

def test (t : ExecutionTest) (s : Step) : ExecutionTest :=
  { t with allowed := t.allowed && t.permits s }

def markSteps (t : ExecutionTest) : List Step → List Step × ExecutionTest
  | [] => ([], t)
  | s :: rest =>
    let t := t.test s
    let (marked, final) := t.markSteps rest
    ({ s with allowed := t.allowed } :: marked, final)

def markOrders (t : ExecutionTest) : List DriveOrder → List DriveOrder
  | [] => []
  | o :: rest =>
    let (marked, t) := t.markSteps o.steps
    o.mapSteps (fun _ => marked) :: t.markOrders rest

end ExecutionTest

/-- Marks what a vehicle may execute of a plan that cannot be replaced. A plan without locked steps
    stays as it is. -/
def restrict (fallback : Fallback) (source : PointId) (orders : List DriveOrder) :
    List DriveOrder :=
  if fallback = .ignorePathLocks || !containsLocked orders then orders
  else ExecutionTest.markOrders { fallback, source } orders

end TrafficControl
