namespace TrafficControl

inductive SearchMethod where
  | dijkstra
  | bellmanFord
deriving DecidableEq, Repr

inductive Measure where
  | distance
  | travelTime
  | hops
  | penalties
deriving DecidableEq, Repr

instance : ToString SearchMethod where
  toString
    | .dijkstra => "Dijkstra"
    | .bellmanFord => "BellmanFord"

instance : ToString Measure where
  toString
    | .distance => "Distance"
    | .travelTime => "TravelTime"
    | .hops => "Hops"
    | .penalties => "ExplicitPenalties"

structure RouterSettings where
  method : SearchMethod := .dijkstra
  defaultGroup : String := ""
  /-- The measures that are added up; none at all means the distance. -/
  measures : List Measure := [.distance]
deriving DecidableEq, Repr

inductive Fallback where
  | pauseImmediately
  | pauseAtPathLock
  | ignorePathLocks
deriving DecidableEq, Repr

instance : ToString Fallback where
  toString
    | .pauseImmediately => "PauseImmediately"
    | .pauseAtPathLock => "PauseAtPathLock"
    | .ignorePathLocks => "IgnorePathLocks"

structure Settings where
  router : RouterSettings := {}
  fallback : Fallback := .pauseAtPathLock
  workerName : String := "tc-allocator"
deriving DecidableEq, Repr

end TrafficControl
