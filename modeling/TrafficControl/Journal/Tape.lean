import TrafficControl.Journal.Recorder

namespace TrafficControl

inductive TapeEntry where
  | event (row : EventRow)
  | occupancy (row : OccupancyRow)
  | finished
deriving DecidableEq, Repr

/-- A sink in memory on which chosen calls fail. -/
structure Tape where
  entries : List TapeEntry := []
  calls : Nat := 0
  failing : List Nat := []
deriving DecidableEq, Repr

namespace Tape

def call (t : Tape) (name : String) (entries : List TapeEntry) : Except JournalFault Unit × Tape :=
  let number := t.calls + 1
  if number ∈ t.failing then
    (.error (.io (name ++ " " ++ toString number)), { t with calls := number })
  else (.ok (), { t with calls := number, entries := t.entries ++ entries })

instance : Sink Tape where
  writeEvent t row := t.call "event" [.event row]
  writeOccupancy t rows := t.call "occupancy" (rows.map .occupancy)
  finish t := t.call "finish" [.finished]

end Tape

end TrafficControl
