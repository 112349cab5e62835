import TrafficControl.Journal.Row

namespace TrafficControl

inductive JournalFault where
  | io (text : String)
  | csv (text : String)
deriving DecidableEq, Repr

def JournalFault.message : JournalFault → String
  | io text => "I/O error: " ++ text
  | csv text => "CSV write error: " ++ text

/-- Something that rows can be written to. Every call can fail. -/
class Sink (σ : Type) where
  writeEvent : σ → EventRow → Except JournalFault Unit × σ
  writeOccupancy : σ → List OccupancyRow → Except JournalFault Unit × σ
  finish : σ → Except JournalFault Unit × σ

/-- Writes down what a scheduler tells. The scheduler never learns of faults; the first one is
    kept. -/
structure Recorder (σ : Type) where
  sink : σ
  eventCount : Nat := 0
  fault? : Option JournalFault := none

namespace Recorder

variable {σ : Type} [Sink σ]

def keep (r : Recorder σ) (outcome : Except JournalFault Unit × σ) : Recorder σ :=
  match outcome with
  | (.ok _, sink) => { r with sink }
  | (.error fault, sink) => { r with sink, fault? := some (r.fault?.getD fault) }

def record (r : Recorder σ) (elapsed : Nat) (event : Event) : Recorder σ :=
  { r with eventCount := r.eventCount + 1 }.keep
    (Sink.writeEvent r.sink (.ofEvent r.eventCount elapsed event))

def recordOccupancy (r : Recorder σ) (elapsed : Nat) (t : Table ClientId ResourceSet) :
    Recorder σ :=
  r.keep (Sink.writeOccupancy r.sink (OccupancyRow.ofAllocations elapsed t))

def finish (r : Recorder σ) : Recorder σ := r.keep (Sink.finish r.sink)

def takeFault (r : Recorder σ) : Option JournalFault × Recorder σ :=
  (r.fault?, { r with fault? := none })

end Recorder

end TrafficControl
