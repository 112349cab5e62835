import TrafficControl.Allocation.Scheduler

namespace TrafficControl

namespace Scheduler

def await (s : Scheduler) (phase : Phase) : Scheduler :=
  match phase.call? with
  | some call => { s.emit (.called call) with phase }
  | none => { s with phase }

/-- Makes the notices known one after the other, up to the first one that somebody has to be called
    about. -/
def deliver (s : Scheduler) : List Notice → Scheduler
  | [] => s.await .idle
  | .allocated client request :: rest =>
    let s := s.tell (.allocated client request)
    match s.clients.get? client with
    | some handle => s.await (.granting client handle request rest)
    | none => s.deliver rest
  | .failed client request :: rest =>
    let s := s.tell (.failed client request)
    match s.clients.get? client with
    | some handle => s.await (.denying client handle request rest)
    | none => s.deliver rest
  | .deferred client request :: rest => (s.tell (.deferred client request)).deliver rest
  | .prepare client request :: rest =>
    match s.hooks with
    | hook :: later => s.await (.preparing client request hook later rest)
    | [] => s.deliver rest

/-- Decides on a request: it fails if it is not the next claim or cannot be met on this plant, it
    waits if another client is in its way, and its resources are reserved otherwise. -/
def attempt (s : Scheduler) (client : ClientId) (request : ResourceSet) : List Notice × Scheduler :=
  let o := s.occupancy
  let p := s.plant.current
  if ¬ o.registered client then ([], s)
  else if o.claimHead? client ≠ some request then ([.failed client request], s)
  else
    match p.expand request with
    | .error _ => ([.failed client request], s)
    | .ok expanded =>
      match o.availability p client expanded with
      | .locked _ => ([.failed client request], s)
      | .busy _ => ([.deferred client request], { s with occupancy := o.defer client request })
      | .available =>
        let s := { s with occupancy := o.reserve client { request, expanded } }
        ([.prepare client request], s.push (.check request) client)

def retryDeferred (s : Scheduler) : Scheduler :=
  s.occupancy.deferred.keys.foldl (fun s client => s.push .retry client) s

def retry (s : Scheduler) (client : ClientId) : List Notice × Scheduler :=
  match s.occupancy.deferred.get? client with
  | none => ([], s)
  | some request =>
    { s with occupancy := s.occupancy.withoutDeferred client }.attempt client request

/-- Works on a new request. It fails if another one of the client has its resources reserved; one
    that waits fails in its favour. -/
def consider (s : Scheduler) (client : ClientId) (request : ResourceSet) :
    List Notice × Scheduler :=
  match s.occupancy.reservations.get? client with
  | some reservation =>
    if reservation.request = request then ([], s) else ([.failed client request], s)
  | none =>
    let superseded := (s.occupancy.deferred.get? client).filter (· ≠ request)
    let (notices, s) :=
      { s with occupancy := s.occupancy.withoutDeferred client }.attempt client request
    (superseded.toList.map (.failed client) ++ notices, s)

def confirm (s : Scheduler) (check : Check) (hooksReady : Bool) : Scheduler :=
  match check.handle with
  | some handle => s.await (.confirming check handle hooksReady)
  | none => s.await .idle

def inquire (s : Scheduler) (check : Check) : List HookId → Scheduler
  | [] => s.confirm check true
  | hook :: later => s.await (.asking check hook later)

def check (s : Scheduler) (client : ClientId) (request : ResourceSet) : Scheduler :=
  match s.occupancy.reservations.get? client with
  | none => s
  | some reservation =>
    if reservation.request = request then
      s.inquire { client, reservation, handle := s.clients.get? client } s.hooks
    else s

def settle (s : Scheduler) (check : Check) : Scheduler :=
  if s.occupancy.reservations.get? check.client ≠ some check.reservation then s.await .idle
  else
    match s.occupancy.commit check.client with
    | (none, occupancy) => { s with occupancy }.await .idle
    | (some (.allocated request), occupancy) =>
      { s with occupancy }.deliver [.allocated check.client request]
    | (some (.stale reservation), occupancy) =>
      ({ s with occupancy }.push (.released reservation.expanded) check.client).deliver
        [.failed check.client reservation.request]

def process (s : Scheduler) (c : Command) : Scheduler :=
  match c.task with
  | .released _ => s.retryDeferred
  | .retry =>
    let (notices, s) := s.retry c.client
    s.deliver notices
  | .check request => s.check c.client request
  | .allocate request =>
    let (notices, s) := s.consider c.client request
    s.deliver notices

def processNext? (s : Scheduler) : Option Scheduler :=
  if s.phase ≠ .idle then none
  else
    match s.agenda.pop? with
    | none => none
    | some (first, agenda) => some ({ s with agenda }.process first)

def workNext? (s : Scheduler) : Option Scheduler :=
  if s.isRunning then s.processNext? else none

def workOff : Nat → Scheduler → List Command × Scheduler
  | 0, s => ([], s)
  | limit + 1, s =>
    match s.agenda.pop?, s.processNext? with
    | some (first, _), some next =>
      let (rest, s) := workOff limit next
      (first :: rest, s)
    | _, _ => ([], s)

/-- Goes on after the answer to the call that was waiting. Only questions care about the answer. -/
def resume (s : Scheduler) (ready : Bool) : Scheduler :=
  match s.phase with
  | .idle => s
  | .asking check _ later => if ready then s.inquire check later else s.confirm check false
  | .confirming check _ hooksReady =>
    if hooksReady && ready then s.settle check else s.await .idle
  | .preparing client request _ later notices =>
    match later with
    | hook :: later => s.await (.preparing client request hook later notices)
    | [] => s.deliver notices
  | .granting _ _ _ notices => s.deliver notices
  | .denying _ _ _ notices => s.deliver notices

end Scheduler

end TrafficControl
