import TrafficControl.Allocation.Agenda
import TrafficControl.Allocation.Dialogue
import TrafficControl.Plant.Versions

namespace TrafficControl

/-- Hands out the resources of a plant to clients that claim them. What clients ask for becomes a
    command; the work on commands is described apart. Clients may call at any time, also while
    that work waits for an answer. Each call is a single step, from what it changes to what it tells
    and the command that it gives: runs are made of whole calls and of commands that are worked on,
    and nothing happens between the parts of one call. -/
structure Scheduler where
  plant : PlantVersions
  occupancy : Occupancy := {}
  agenda : Agenda := {}
  clients : Table ClientId Handle := ∅
  hooks : List HookId := []
  worker : Bool := false
  phase : Phase := .idle
  journal : List Signal := []

namespace Scheduler

def ofPlant (plant : PlantVersions) (clock : Clock := .counting) : Scheduler :=
  { plant, agenda := { clock } }

instance : Inhabited Scheduler := ⟨ofPlant {}⟩

def emit (s : Scheduler) (signal : Signal) : Scheduler :=
  { s with journal := s.journal ++ [signal] }

def tell (s : Scheduler) (event : Event) : Scheduler := s.emit (.told event)

def push (s : Scheduler) (task : Task) (client : ClientId) : Scheduler :=
  { s with agenda := s.agenda.push task client }

def register (s : Scheduler) (client : ClientId) (handle : Handle) : Except Refusal Scheduler :=
  match s.occupancy.register? client with
  | none => .error (.duplicateClient client)
  | some occupancy => .ok { s with occupancy, clients := s.clients.insert client handle }

def unregister (s : Scheduler) (client : ClientId) : Except Refusal Scheduler :=
  match s.occupancy.unregister? client with
  | none => .error (.unknownClient client)
  | some (freed, occupancy) =>
    let s := { s with
      occupancy
      clients := s.clients.erase client
      agenda := s.agenda.purge client }
    .ok (if freed.isEmpty then s
      else (s.tell (.released client freed)).push (.released freed) client)

def claimFault? (p : Plant) (client : ClientId) (set : ResourceSet) : Option Refusal :=
  if set.isEmpty then some (.emptyResourceSet client)
  else
    match p.expand set with
    | .error unknown => some (.unknownResource unknown)
    | .ok _ => none

/-- Replaces the claims of a client. A reservation that was made for another claim than the new
    first one is given up, and its request waits to be tried again. -/
def claim (s : Scheduler) (client : ClientId) (claims : List ResourceSet) :
    Except Refusal Scheduler :=
  match claims.findSome? (claimFault? s.plant.current client) with
  | some refusal => .error refusal
  | none =>
    if s.occupancy.registered client then
      match (s.occupancy.setClaims client claims).cancelStale client with
      | (none, occupancy) => .ok ({ s with occupancy }.tell (.claimed client claims))
      | (some cancelled, occupancy) =>
        let s := { s with occupancy := occupancy.defer client cancelled.request }
        .ok ((s.tell (.claimed client claims)).push (.released cancelled.expanded) client)
    else .error (.unknownClient client)

def claims (s : Scheduler) (client : ClientId) : Except Refusal (List ResourceSet) :=
  match s.occupancy.claims.get? client with
  | some claims => .ok claims
  | none => .error (.unknownClient client)

def allocate (s : Scheduler) (client : ClientId) (request : ResourceSet) :
    Except Refusal Scheduler :=
  if request.isEmpty then .error (.emptyResourceSet client)
  else if ¬ s.occupancy.registered client then .error (.unknownClient client)
  else if s.occupancy.claimHead? client ≠ some request then .error (.notClaimHead client request)
  else .ok (s.push (.allocate request) client)

def release (s : Scheduler) (client : ClientId) (resources : ResourceSet) :
    Except Refusal Scheduler :=
  if resources.isEmpty then .error (.emptyResourceSet client)
  else
    match s.occupancy.release s.plant.current client resources with
    | .error refusal => .error refusal
    | .ok (freed, occupancy) =>
      .ok (({ s with occupancy }.tell (.released client freed)).push (.released freed) client)

def preparationChanged (s : Scheduler) : Scheduler :=
  s.occupancy.reservations.entries.foldl
    (fun s (client, reservation) => s.push (.check reservation.request) client) s

def addHook (s : Scheduler) (hook : HookId) : Scheduler := { s with hooks := s.hooks ++ [hook] }

def setLocked (s : Scheduler) (path : PathId) (locked : Bool) : Except PlantFault Scheduler :=
  match s.plant.setLocked path locked with
  | .error fault => .error fault
  | .ok plant => .ok { s with plant }

def replacePlant (s : Scheduler) (plant : Plant) : Scheduler :=
  { s with plant := s.plant.replace plant }

def start (s : Scheduler) : Except Refusal Scheduler :=
  if s.worker then .error .alreadyRunning else .ok { s with worker := true }

def isRunning (s : Scheduler) : Bool := s.worker && !s.agenda.closed

def shutdown (s : Scheduler) : Scheduler :=
  { s with agenda := s.agenda.close, worker := false }

end Scheduler

end TrafficControl
