import TrafficControl.Allocation.Refusal
import TrafficControl.Plant.Membership

namespace TrafficControl

/-- Resources set aside for a client until they are prepared. -/
structure Reservation where
  request : ResourceSet
  /-- The points and paths that the request comes to. -/
  expanded : ResourceSet
deriving DecidableEq

inductive Availability where
  | available
  | busy (resource : Resource)
  | locked (resource : Resource)
deriving DecidableEq

inductive Commit where
  | allocated (request : ResourceSet)
  | stale (reservation : Reservation)
deriving DecidableEq

/-- What every client has claimed, asked for and holds. -/
structure Occupancy where
  claims : Table ClientId (List ResourceSet) := ∅
  allocated : Table ClientId ResourceSet := ∅
  /-- Who holds a resource, be it allocated or reserved. -/
  holders : Table Resource ClientId := ∅
  deferred : Table ClientId ResourceSet := ∅
  reservations : Table ClientId Reservation := ∅
deriving DecidableEq

namespace Occupancy

instance : Inhabited Occupancy := ⟨{}⟩

def registered (o : Occupancy) (client : ClientId) : Bool := o.claims.contains client

def register? (o : Occupancy) (client : ClientId) : Option Occupancy :=
  if o.registered client then none
  else some { o with
    claims := o.claims.insert client []
    allocated := o.allocated.insert client ∅ }

def vacate (holders : Table Resource ClientId) (resources : ResourceSet) :
    Table Resource ClientId :=
  holders.filter fun r _ => r ∉ resources

def unregister? (o : Occupancy) (client : ClientId) : Option (ResourceSet × Occupancy) :=
  if o.registered client then
    let held := (o.allocated.get? client).getD ∅
    let freed := match o.reservations.get? client with
      | some reservation => held.union reservation.expanded
      | none => held
    some (freed, {
      claims := o.claims.erase client
      allocated := o.allocated.erase client
      holders := vacate o.holders freed
      deferred := o.deferred.erase client
      reservations := o.reservations.erase client })
  else none

def setClaims (o : Occupancy) (client : ClientId) (claims : List ResourceSet) : Occupancy :=
  { o with claims := o.claims.insert client claims }

def claimHead? (o : Occupancy) (client : ClientId) : Option ResourceSet :=
  (o.claims.get? client).bind (·.head?)

def holder? (o : Occupancy) (r : Resource) : Option ClientId := o.holders.get? r

def allocations (o : Occupancy) : Table ClientId ResourceSet :=
  o.allocated.filter fun _ held => !held.isEmpty

def heldByOther (o : Occupancy) (client : ClientId) (r : Resource) : Bool :=
  (o.holder? r).any (· ≠ client)

/-- What keeps the client from taking a resource: another client holds it, or holds something in a
    block around it. -/
def obstacle? (o : Occupancy) (p : Plant) (client : ClientId) (r : Resource) : Option Resource :=
  if o.heldByOther client r then some r
  else (p.enclosing r).findSome? fun b => (p.zone b).toList.find? (o.heldByOther client)

def availability (o : Occupancy) (p : Plant) (client : ClientId) (expanded : ResourceSet) :
    Availability :=
  match expanded.toList.find? p.isLocked with
  | some r => .locked r
  | none =>
    match expanded.toList.findSome? (o.obstacle? p client) with
    | some r => .busy r
    | none => .available

def defer (o : Occupancy) (client : ClientId) (request : ResourceSet) : Occupancy :=
  { o with deferred := o.deferred.insert client request }

def withoutDeferred (o : Occupancy) (client : ClientId) : Occupancy :=
  { o with deferred := o.deferred.erase client }

def reserve (o : Occupancy) (client : ClientId) (reservation : Reservation) : Occupancy :=
  { o with
    holders := reservation.expanded.toList.foldl (fun h r => h.insert r client) o.holders
    deferred := o.deferred.erase client
    reservations := o.reservations.insert client reservation }

def staleReservation? (o : Occupancy) (client : ClientId) : Option Reservation :=
  (o.reservations.get? client).filter fun reservation =>
    o.claimHead? client ≠ some reservation.request

def cancelStale (o : Occupancy) (client : ClientId) : Option Reservation × Occupancy :=
  match o.staleReservation? client with
  | none => (none, o)
  | some reservation => (some reservation, { o with
      holders := vacate o.holders reservation.expanded
      reservations := o.reservations.erase client })

/-- Makes the client's reservation an allocation and its request no longer a claim; gives it up if
    the request is not the next claim. -/
def commit (o : Occupancy) (client : ClientId) : Option Commit × Occupancy :=
  match o.cancelStale client with
  | (some reservation, o) => (some (.stale reservation), o)
  | (none, o) =>
    match o.reservations.get? client with
    | none => (none, o)
    | some reservation => (some (.allocated reservation.request), { o with
        claims := match o.claims.get? client with
          | some claims => o.claims.insert client claims.tail
          | none => o.claims
        allocated := o.allocated.insert client
          (((o.allocated.get? client).getD ∅).union reservation.expanded)
        reservations := o.reservations.erase client })

/-- Frees resources that the client holds, all of them or none. A set that the plant does not
    define in full stands for itself. -/
def release (o : Occupancy) (p : Plant) (client : ClientId) (resources : ResourceSet) :
    Except Refusal (ResourceSet × Occupancy) :=
  let freed := match p.expand resources with
    | .ok expanded => expanded
    | .error _ => resources
  match o.allocated.get? client with
  | none => .error (.unknownClient client)
  | some held =>
    if freed.subset held then
      .ok (freed, { o with
        allocated := o.allocated.insert client (held.diff freed)
        holders := vacate o.holders freed })
    else .error (.notAllocated client resources)

end Occupancy

end TrafficControl
