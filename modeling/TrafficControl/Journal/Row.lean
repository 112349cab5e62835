import TrafficControl.Allocation.Dialogue

namespace TrafficControl

inductive EventKind where
  | claimed
  | allocated
  | deferred
  | failed
  | released
deriving DecidableEq, Repr

instance : ToString EventKind where
  toString
    | .claimed => "claimed"
    | .allocated => "allocated"
    | .deferred => "deferred"
    | .failed => "failed"
    | .released => "released"

namespace Event

def kind : Event → EventKind
  | claimed _ _ => .claimed
  | allocated _ _ => .allocated
  | deferred _ _ => .deferred
  | failed _ _ => .failed
  | released _ _ => .released

def client : Event → ClientId
  | claimed client _ => client
  | allocated client _ => client
  | deferred client _ => client
  | failed client _ => client
  | released client _ => client

def resourcesText : Event → String
  | claimed _ claims => String.intercalate ";" (claims.map ResourceSet.display)
  | allocated _ request => request.display
  | deferred _ request => request.display
  | failed _ request => request.display
  | released _ resources => resources.display

def count : Event → Nat
  | claimed _ claims => claims.length
  | allocated _ request => request.size
  | deferred _ request => request.size
  | failed _ request => request.size
  | released _ resources => resources.size

end Event

structure EventRow where
  serial : Nat
  /-- The milliseconds since the recording began. -/
  elapsed : Nat
  kind : EventKind
  client : String
  resources : String
  count : Nat
deriving DecidableEq, Repr

structure OccupancyRow where
  elapsed : Nat
  client : String
  resource : String
deriving DecidableEq, Repr

namespace EventRow

def ofEvent (serial elapsed : Nat) (event : Event) : EventRow where
  serial
  elapsed
  kind := event.kind
  client := event.client.name
  resources := event.resourcesText
  count := event.count

def header : List String := ["seq", "elapsed_ms", "event", "client", "resources", "count"]

def fields (r : EventRow) : List String :=
  [toString r.serial, toString r.elapsed, toString r.kind, r.client, r.resources, toString r.count]

end EventRow

namespace OccupancyRow

def ofAllocations (elapsed : Nat) (t : Table ClientId ResourceSet) : List OccupancyRow :=
  t.entries.flatMap fun (client, held) =>
    held.toList.map fun r => { elapsed, client := client.name, resource := toString r }

def header : List String := ["elapsed_ms", "client", "resource"]

def fields (r : OccupancyRow) : List String := [toString r.elapsed, r.client, r.resource]

end OccupancyRow

end TrafficControl
