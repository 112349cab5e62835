import TrafficControl.Resource

namespace TrafficControl

inductive Task where
  | released (resources : ResourceSet)
  | retry
  | check (request : ResourceSet)
  | allocate (request : ResourceSet)
deriving DecidableEq

namespace Task

/-- Work of a lower number is done first, so that what is given up is free before anything new is
    handed out. -/
def priority : Task → Nat
  | released _ => 2
  | retry => 3
  | check _ => 4
  | allocate _ => 5

def name : Task → String
  | released _ => "AllocationsReleased"
  | retry => "RetryAllocates"
  | check _ => "CheckAllocationsPrepared"
  | allocate _ => "Allocate"

def resources? : Task → Option ResourceSet
  | released resources => some resources
  | retry => none
  | check request => some request
  | allocate request => some request

end Task

structure Command where
  task : Task
  client : ClientId
  created : Nat
  serial : Nat
deriving DecidableEq

namespace Command

instance : Ord Command where
  compare := compareLex (compareOn fun c => c.task.priority) <|
    compareLex (compareOn Command.created) <|
    compareLex (compareOn Command.client) (compareOn Command.serial)

instance : ToString Command := ⟨fun c => c.task.name ++ "[" ++ toString c.client ++ "]"⟩

end Command

/-- The instants at which commands are given one after the other. Time may stand still between two
    of them, but it does not go back. -/
structure Clock where
  instant : Nat → Nat
  forward (n : Nat) : instant n ≤ instant (n + 1)

namespace Clock

def counting : Clock := ⟨fun n => n, Nat.le_succ⟩

theorem instant_le (clock : Clock) {m n : Nat} (le : m ≤ n) :
    clock.instant m ≤ clock.instant n := by
  induction le with
  | refl => exact Nat.le_refl _
  | step _ ih => exact Nat.le_trans ih (clock.forward _)

end Clock

/-- The commands that wait to be worked on, the first to work on at the head. -/
structure Agenda where
  clock : Clock := .counting
  pending : List Command := []
  nextSerial : Nat := 0
  closed : Bool := false

inductive Turn where
  | closed
  | nothing
  | command (first : Command) (rest : Agenda)

namespace Agenda

instance : Inhabited Agenda := ⟨{}⟩

def place (c : Command) : List Command → List Command
  | [] => [c]
  | d :: rest => if compare c d = .lt then c :: d :: rest else d :: place c rest

def pushAt (a : Agenda) (now : Nat) (task : Task) (client : ClientId) : Agenda :=
  { a with
    pending := place { task, client, created := now, serial := a.nextSerial } a.pending
    nextSerial := a.nextSerial + 1 }

def push (a : Agenda) (task : Task) (client : ClientId) : Agenda :=
  a.pushAt (a.clock.instant a.nextSerial) task client

def pop? (a : Agenda) : Option (Command × Agenda) :=
  match a.pending with
  | [] => none
  | first :: rest => some (first, { a with pending := rest })

def take (a : Agenda) : Turn :=
  if a.closed then .closed
  else
    match a.pop? with
    | none => .nothing
    | some (first, rest) => .command first rest

def purge (a : Agenda) (client : ClientId) : Agenda :=
  { a with pending := a.pending.filter fun c => c.client ≠ client }

def close (a : Agenda) : Agenda := { a with closed := true }

def size (a : Agenda) : Nat := a.pending.length

def isEmpty (a : Agenda) : Bool := a.pending.isEmpty

end Agenda

end TrafficControl
