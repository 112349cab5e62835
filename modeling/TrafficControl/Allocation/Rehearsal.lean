import TrafficControl.Allocation.Processing
import TrafficControl.Journal.Csv

namespace TrafficControl

/-- Something that is done with a scheduler. Clients and hooks come with scripts: of the lists of
    acts for an occasion, the first is for the first time, and so on. -/
inductive Act where
  | register (client : ClientId) (plain ready : Bool) (onGranted onDenied onAsked : List (List Act))
  | unregister (client : ClientId)
  | claim (client : ClientId) (claims : List ResourceSet)
  | claims (client : ClientId)
  | allocate (client : ClientId) (request : ResourceSet)
  | allocateHead (client : ClientId)
  | release (client : ClientId) (resources : ResourceSet)
  | releaseAll (client : ClientId)
  | preparationChanged
  | addHook (isOpen silent : Bool) (only : Option ResourceSet)
      (onPrepare onAsked : List (List Act))
  | setHook (hook : HookId) (isOpen : Bool)
  | setClient (client : ClientId) (ready : Bool)
  | lock (path : PathId) (locked : Bool)
  | replace (layout : Layout)
  | start
  | isRunning
  | shutdown
  | recordOccupancy
  | eventCount

mutual

def Act.weight : Act → Nat
  | .register _ _ _ onGranted onDenied onAsked =>
    1 + scriptWeight onGranted + scriptWeight onDenied + scriptWeight onAsked
  | .addHook _ _ _ onPrepare onAsked => 1 + scriptWeight onPrepare + scriptWeight onAsked
  | _ => 1

def actsWeight : List Act → Nat
  | [] => 0
  | a :: rest => a.weight + actsWeight rest

def scriptWeight : List (List Act) → Nat
  | [] => 0
  | acts :: rest => actsWeight acts + scriptWeight rest

end

inductive ActResult where
  | done
  | refused (refusal : Refusal)
  | faulty (fault : PlantFault)
  | sets (sets : List ResourceSet)
  | truth (value : Bool)
  | count (n : Nat)
  | generation (n : Nat)
  | noHead
  | nothing
  | absent

structure Actor where
  client : ClientId
  plain : Bool
  ready : Bool
  onGranted : List (List Act)
  onDenied : List (List Act)
  onAsked : List (List Act)

/-- A hook that plays its scripts. It is ready when it is open, or when it looks after some
    resources only and the request has none of them. -/
structure Gate where
  isOpen : Bool
  silent : Bool
  only : Option ResourceSet
  onPrepare : List (List Act)
  onAsked : List (List Act)

def Actor.next (a : Actor) (call : Call) : List Act × Actor :=
  if a.plain then ([], a)
  else
    match call with
    | .granted _ _ _ => (a.onGranted.head?.getD [], { a with onGranted := a.onGranted.tail })
    | .denied _ _ _ => (a.onDenied.head?.getD [], { a with onDenied := a.onDenied.tail })
    | _ => (a.onAsked.head?.getD [], { a with onAsked := a.onAsked.tail })

def Gate.next (g : Gate) : Call → List Act × Gate
  | .prepare _ _ _ =>
    if g.silent then ([], g)
    else (g.onPrepare.head?.getD [], { g with onPrepare := g.onPrepare.tail })
  | _ => (g.onAsked.head?.getD [], { g with onAsked := g.onAsked.tail })

inductive Entry where
  | signal (signal : Signal)
  | result (result : ActResult)

structure Rehearsal where
  scheduler : Scheduler
  actors : List Actor := []
  gates : List Gate := []
  observed : Bool := true
  recorder : Option (Recorder CsvJournal) := none
  transcript : List Entry := []
  reported : Nat := 0
  heard : Nat := 0

instance : ToString Signal where
  toString
    | .told event =>
      toString event.kind ++ " " ++ toString event.client ++ " " ++ event.resourcesText
    | .called (.granted _ client request) => "ok " ++ toString client ++ " " ++ request.display
    | .called (.denied _ client request) => "fail " ++ toString client ++ " " ++ request.display
    | .called (.clientReady _ client request) =>
      "client-ready? " ++ toString client ++ " " ++ request.display
    | .called (.prepare hook client request) =>
      "prepare hook" ++ toString hook ++ " " ++ toString client ++ " " ++ request.display
    | .called (.hookReady hook client request) =>
      "hook" ++ toString hook ++ "-ready? " ++ toString client ++ " " ++ request.display

namespace Rehearsal

def audible (r : Rehearsal) : Signal → Bool
  | .told _ => r.observed
  | .called (.clientReady handle _ _) => (r.actors[handle]?).all (!·.plain)
  | .called (.prepare hook _ _) => (r.gates[hook]?).all (!·.silent)
  | .called _ => true

def hear (r : Rehearsal) (signal : Signal) : Rehearsal :=
  if ¬ r.audible signal then r
  else { r with
    transcript := r.transcript ++ [.signal signal]
    recorder := match signal with
      | .told event => r.recorder.map (·.record 0 event)
      | .called _ => r.recorder }

def follow (r : Rehearsal) (s : Scheduler) : Rehearsal :=
  { (s.journal.drop r.heard).foldl hear r with scheduler := s, heard := s.journal.length }

def attempt (r : Rehearsal) : Except Refusal Scheduler → ActResult × Rehearsal
  | .ok s => (.done, r.follow s)
  | .error refusal => (.refused refusal, r)

def setReady (client : ClientId) (ready : Bool) (actors : List Actor) : List Actor :=
  let fits := fun a : Actor => a.client = client && !a.plain
  match actors.reverse.findIdx? fits with
  | none => actors
  | some i => (actors.reverse.modify i fun a => { a with ready }).reverse

def perform (r : Rehearsal) (act : Act) : ActResult × Rehearsal :=
  let s := r.scheduler
  match act with
  | .register client plain ready onGranted onDenied onAsked =>
    match s.register client r.actors.length with
    | .error refusal => (.refused refusal, r)
    | .ok s =>
      let actor : Actor := { client, plain, ready, onGranted, onDenied, onAsked }
      (.done, { r with actors := r.actors ++ [actor] }.follow s)
  | .unregister client => r.attempt (s.unregister client)
  | .claim client claims => r.attempt (s.claim client claims)
  | .claims client =>
    match s.claims client with
    | .error refusal => (.refused refusal, r)
    | .ok claims => (.sets claims, r)
  | .allocate client request => r.attempt (s.allocate client request)
  | .allocateHead client =>
    match s.claims client with
    | .error refusal => (.refused refusal, r)
    | .ok [] => (.noHead, r)
    | .ok (head :: _) => r.attempt (s.allocate client head)
  | .release client resources => r.attempt (s.release client resources)
  | .releaseAll client =>
    match s.occupancy.allocations.get? client with
    | none => (.nothing, r)
    | some held => r.attempt (s.release client held)
  | .preparationChanged => (.done, r.follow s.preparationChanged)
  | .addHook isOpen silent only onPrepare onAsked =>
    let hook := r.gates.length
    let gate : Gate := { isOpen, silent, only, onPrepare, onAsked }
    (.count hook, { r with gates := r.gates ++ [gate] }.follow (s.addHook hook))
  | .setHook hook isOpen =>
    (.done, { r with gates := r.gates.modify hook fun g => { g with isOpen } })
  | .setClient client ready => (.done, { r with actors := setReady client ready r.actors })
  | .lock path locked =>
    match s.setLocked path locked with
    | .error fault => (.faulty fault, r)
    | .ok s => (.generation s.plant.generation, r.follow s)
  | .replace layout =>
    match Plant.ofLayout? layout with
    | .error fault => (.faulty fault, r)
    | .ok plant =>
      let s := s.replacePlant plant
      (.generation s.plant.generation, r.follow s)
  | .start => r.attempt s.start
  | .isRunning => (.truth s.isRunning, r)
  | .shutdown => (.done, r.follow s.shutdown)
  | .recordOccupancy =>
    (.done, { r with recorder := r.recorder.map (·.recordOccupancy 0 s.occupancy.allocations) })
  | .eventCount =>
    match r.recorder with
    | some recorder => (.count recorder.eventCount, r)
    | none => (.absent, r)

def play (r : Rehearsal) (acts : List Act) : Rehearsal :=
  acts.foldl (fun r act =>
    let (result, r) := r.perform act
    { r with transcript := r.transcript ++ [.result result] }) r

def react (r : Rehearsal) (call : Call) : Rehearsal :=
  match call with
  | .prepare hook _ _ | .hookReady hook _ _ =>
    match r.gates[hook]? with
    | none => r
    | some gate =>
      let (acts, gate) := gate.next call
      { r with gates := r.gates.set hook gate }.play acts
  | .clientReady handle _ _ | .granted handle _ _ | .denied handle _ _ =>
    match r.actors[handle]? with
    | none => r
    | some actor =>
      let (acts, actor) := actor.next call
      { r with actors := r.actors.set handle actor }.play acts

def ready (r : Rehearsal) : Call → Bool
  | .hookReady hook _ request =>
    (r.gates[hook]?).any fun g => g.isOpen || g.only.any (!request.intersects ·)
  | .clientReady handle _ _ => (r.actors[handle]?).any fun a => a.plain || a.ready
  | _ => true

def answer (r : Rehearsal) (call : Call) : Rehearsal :=
  let r := r.react call
  r.follow (r.scheduler.resume (r.ready call))

def drain (nextCommand? : Scheduler → Option Scheduler) : Nat → Rehearsal → Nat × Rehearsal
  | 0, r => (0, r)
  | fuel + 1, r =>
    match r.scheduler.phase.call? with
    | some call => drain nextCommand? fuel (r.answer call)
    | none =>
      match nextCommand? r.scheduler with
      | none => (0, r)
      | some s =>
        let (count, r) := drain nextCommand? fuel (r.follow s)
        (count + 1, r)

def actsLeft (r : Rehearsal) : Nat :=
  r.actors.foldr (fun a rest =>
      scriptWeight a.onGranted + scriptWeight a.onDenied + scriptWeight a.onAsked + rest) 0 +
    r.gates.foldr (fun g rest => scriptWeight g.onPrepare + scriptWeight g.onAsked + rest) 0

/-- More than there can be to do. An act adds at most one command for every client; a command leads
    to at most two more for every client, and to a call or two for every hook. -/
def bound (r : Rehearsal) : Nat :=
  let acts := r.actsLeft
  let clients := r.actors.length + acts + 1
  let hooks := r.gates.length + acts + 1
  (r.scheduler.agenda.size + acts * clients + 1) * (2 * clients + 2) * (2 * hooks + 6)

def run (r : Rehearsal) : Nat × Rehearsal := drain Scheduler.processNext? r.bound r

def work (r : Rehearsal) : Rehearsal := (drain Scheduler.workNext? r.bound r).2

def report (r : Rehearsal) : List Entry × Rehearsal :=
  (r.transcript.drop r.reported, { r with reported := r.transcript.length })

end Rehearsal

end TrafficControl
