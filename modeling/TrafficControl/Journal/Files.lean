import TrafficControl.Journal.Recorder

namespace TrafficControl

/-- A file that records are written to. What it has taken may wait until it is flushed. -/
class RecordFile (φ : Type) where
  write : φ → List String → Except JournalFault Unit × φ
  flush : φ → Except JournalFault Unit × φ

def RecordFile.writeAll {φ : Type} [RecordFile φ] (f : φ) :
    List (List String) → Except JournalFault Unit × φ
  | [] => (.ok (), f)
  | record :: rest =>
    match write f record with
    | (.ok _, f) => writeAll f rest
    | (.error fault, f) => (.error fault, f)

structure Journal (φ : Type) where
  events : φ
  occupancy : φ
  finished : Bool := false
deriving DecidableEq, Repr

namespace Journal

variable {φ : Type} [RecordFile φ]

def create (events occupancy : φ) : Except JournalFault (Journal φ) :=
  match RecordFile.write events EventRow.header with
  | (.error fault, _) => .error fault
  | (.ok _, events) =>
    match RecordFile.write occupancy OccupancyRow.header with
    | (.error fault, _) => .error fault
    | (.ok _, occupancy) => .ok { events, occupancy }

def writeEvent (j : Journal φ) (row : EventRow) : Except JournalFault Unit × Journal φ :=
  let (outcome, events) := RecordFile.write j.events row.fields
  (outcome, { j with events })

def writeOccupancy (j : Journal φ) (rows : List OccupancyRow) :
    Except JournalFault Unit × Journal φ :=
  let (outcome, occupancy) := RecordFile.writeAll j.occupancy (rows.map OccupancyRow.fields)
  (outcome, { j with occupancy })

/-- Flushes both files the first time, the second one only if the first one is flushed. -/
def finish (j : Journal φ) : Except JournalFault Unit × Journal φ :=
  if j.finished then (.ok (), j)
  else
    match RecordFile.flush j.events with
    | (.error fault, events) => (.error fault, { j with finished := true, events })
    | (.ok _, events) =>
      let (outcome, occupancy) := RecordFile.flush j.occupancy
      (outcome, { finished := true, events, occupancy })

instance : Sink (Journal φ) := ⟨writeEvent, writeOccupancy, finish⟩

end Journal

end TrafficControl
