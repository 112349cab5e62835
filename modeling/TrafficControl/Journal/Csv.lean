import TrafficControl.Journal.Files
import TrafficControl.Text.Record

namespace TrafficControl

/-- A file of records. What is written waits in a buffer until the file is flushed or the buffer has
    no room for more. -/
structure CsvFile where
  stored : Array UInt8 := #[]
  buffered : Array UInt8 := #[]
  flushes : Nat := 0
  failing : List Nat := []
deriving DecidableEq, Repr

namespace CsvFile

def capacity : Nat := 8192

def put (f : CsvFile) (piece : List UInt8) : CsvFile :=
  if f.buffered.size + piece.length ≤ capacity then { f with buffered := f.buffered ++ piece }
  else { f with stored := f.stored ++ f.buffered, buffered := piece.toArray }

def write (f : CsvFile) (record : List String) : CsvFile :=
  (Text.recordPieces record).foldl put f

def flush (f : CsvFile) : Except JournalFault Unit × CsvFile :=
  let flushes := f.flushes + 1
  if flushes ∈ f.failing then (.error (.io "flush"), { f with flushes })
  else (.ok (), { f with flushes, stored := f.stored ++ f.buffered, buffered := #[] })

def expecting (f : CsvFile) (success : Bool) : CsvFile :=
  { f with failing := if success then [] else [f.flushes + 1] }

/-- What the file holds. A character of which the last bytes are missing shows as U+FFFD. -/
def text (f : CsvFile) : String :=
  let bytes : ByteArray := ⟨f.stored⟩
  match String.fromUTF8? bytes with
  | some text => text
  | none =>
    let whole := [1, 2, 3].findSome? fun cut =>
      String.fromUTF8? (bytes.extract 0 (bytes.size - cut))
    whole.getD "" ++ "\uFFFD"

instance : RecordFile CsvFile where
  write f record := (.ok (), f.write record)
  flush := flush

end CsvFile

abbrev CsvJournal := Journal CsvFile

namespace CsvJournal

def create (present : Bool) : Except JournalFault CsvJournal :=
  if present then Journal.create {} {}
  else .error (.csv "No such file or directory (os error 2)")

def writeEvent (j : CsvJournal) (row : EventRow) : CsvJournal := (Journal.writeEvent j row).2

def writeOccupancy (j : CsvJournal) (rows : List OccupancyRow) : CsvJournal :=
  (Journal.writeOccupancy j rows).2

def finish (j : CsvJournal) (eventsTaken occupancyTaken : Bool) :
    Except JournalFault Unit × CsvJournal :=
  Journal.finish { j with
    events := j.events.expecting eventsTaken
    occupancy := j.occupancy.expecting occupancyTaken }

def close (j : CsvJournal) : CsvJournal :=
  { j with events := j.events.flush.2, occupancy := j.occupancy.flush.2 }

end CsvJournal

end TrafficControl
