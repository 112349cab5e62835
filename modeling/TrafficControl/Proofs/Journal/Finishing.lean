import Mathlib.Data.List.Basic
import TrafficControl.Journal.Csv

namespace TrafficControl

/-- A file that loses nothing of what it has taken, and stores it when it is flushed, or before. -/
class ReliableFile (φ : Type) [RecordFile φ] where
  /-- The records were taken; they are stored, or they wait. -/
  Taken : φ → List (List String) → Prop
  /-- The records are in the file itself. -/
  Stored : φ → List (List String) → Prop
  taken_write {f : φ} {records : List (List String)} (record : List String) :
    Taken f records → (RecordFile.write f record).1 = .ok () →
      Taken (RecordFile.write f record).2 (records ++ [record])
  taken_refused {f : φ} {records : List (List String)} (record : List String) :
    Taken f records → (RecordFile.write f record).1 ≠ .ok () →
      Taken (RecordFile.write f record).2 records
  taken_flush {f : φ} {records : List (List String)} :
    Taken f records → Taken (RecordFile.flush f).2 records
  stored_flush {f : φ} {records : List (List String)} :
    Taken f records → (RecordFile.flush f).1 = .ok () → Stored (RecordFile.flush f).2 records
  stored_write {f : φ} {records : List (List String)} (record : List String) :
    Stored f records → Stored (RecordFile.write f record).2 records

def RecordFile.accepted {φ : Type} [RecordFile φ] (f : φ) : List (List String) → List (List String)
  | [] => []
  | record :: rest =>
    match write f record with
    | (.ok _, f) => record :: accepted f rest
    | (.error _, _) => []

inductive JournalPart where
  | events
  | occupancy

def JournalPart.header : JournalPart → List String
  | events => EventRow.header
  | occupancy => OccupancyRow.header

inductive JournalCall where
  | event (row : EventRow)
  | occupancy (rows : List OccupancyRow)
  | finish

def JournalCall.records : JournalCall → JournalPart → List (List String)
  | .event row, .events => [row.fields]
  | .occupancy rows, .occupancy => rows.map OccupancyRow.fields
  | _, _ => []

@[simp] theorem JournalCall.records_finish (p : JournalPart) : finish.records p = [] := by
  cases p <;> rfl

open ReliableFile (Taken Stored)

section Writing

variable {φ : Type} [RecordFile φ] [ReliableFile φ] {f : φ} {records written : List (List String)}

theorem taken_writeAll (taken : Taken f records) :
    Taken (RecordFile.writeAll f written).2 (records ++ RecordFile.accepted f written) := by
  induction written generalizing f records with
  | nil => rwa [RecordFile.accepted, List.append_nil]
  | cons record rest ih =>
    rcases write : RecordFile.write f record with ⟨fault | _, g⟩
    · have refused := ReliableFile.taken_refused record taken (by simp [write])
      simp only [RecordFile.writeAll, RecordFile.accepted, write, List.append_nil] at refused ⊢
      exact refused
    · have step := ReliableFile.taken_write record taken (by rw [write])
      rw [write] at step
      simpa only [RecordFile.writeAll, RecordFile.accepted, write, List.append_assoc,
        List.singleton_append] using ih step

theorem stored_writeAll (stored : Stored f records) :
    Stored (RecordFile.writeAll f written).2 records := by
  induction written generalizing f with
  | nil => exact stored
  | cons record rest ih =>
    have step := ReliableFile.stored_write record stored
    rcases write : RecordFile.write f record with ⟨fault | _, g⟩
    · simpa only [RecordFile.writeAll, write] using step
    · rw [write] at step
      simpa only [RecordFile.writeAll, write] using ih step

end Writing

namespace Journal

variable {φ : Type} [RecordFile φ]

def file (j : Journal φ) : JournalPart → φ
  | .events => j.events
  | .occupancy => j.occupancy

def call (j : Journal φ) : JournalCall → Except JournalFault Unit × Journal φ
  | .event row => j.writeEvent row
  | .occupancy rows => j.writeOccupancy rows
  | .finish => j.finish

def run (j : Journal φ) (calls : List JournalCall) : Journal φ :=
  calls.foldl (fun j c => (j.call c).2) j

def accepted (j : Journal φ) (p : JournalPart) : List JournalCall → List (List String)
  | [] => []
  | c :: rest =>
    RecordFile.accepted (j.file p) (c.records p) ++ (j.call c).2.accepted p rest

/-- The journal was not finished before; or it was, with success the first time, and has taken
    nothing since. -/
def Settled (j : Journal φ) (calls : List JournalCall) : Prop :=
  .finish ∉ calls ∨ ∃ done later, calls = done ++ .finish :: later ∧ .finish ∉ done ∧
    (j.run done).finish.1 = .ok () ∧ ∀ p, (j.run done).finish.2.accepted p later = []

variable {j : Journal φ} {c : JournalCall} {p : JournalPart} {calls : List JournalCall}

theorem run_append (done later : List JournalCall) :
    j.run (done ++ later) = (j.run done).run later := List.foldl_append

theorem accepted_append (done later : List JournalCall) :
    j.accepted p (done ++ later) = j.accepted p done ++ (j.run done).accepted p later := by
  induction done generalizing j with
  | nil => rfl
  | cons c rest ih =>
    rw [List.cons_append, accepted, accepted, ih, List.append_assoc]
    rfl

theorem create_eq_ok {events occupancy : φ} : create events occupancy = .ok j ↔
    (RecordFile.write events EventRow.header).1 = .ok () ∧
      (RecordFile.write occupancy OccupancyRow.header).1 = .ok () ∧
      j = { events := (RecordFile.write events EventRow.header).2
            occupancy := (RecordFile.write occupancy OccupancyRow.header).2 } := by
  unfold create
  rcases RecordFile.write events EventRow.header with ⟨fault | _, events⟩
  · simp
  · rcases RecordFile.write occupancy OccupancyRow.header with ⟨fault | _, occupancy⟩
    · simp
    · simp [eq_comm]

theorem file_call (writes : c ≠ .finish) :
    (j.call c).2.file p = (RecordFile.writeAll (j.file p) (c.records p)).2 := by
  cases c with
  | finish => exact absurd rfl writes
  | event row =>
    cases p with
    | occupancy => rfl
    | events =>
      simp only [call, writeEvent, file, JournalCall.records, RecordFile.writeAll]
      split <;> simp_all
  | occupancy rows => cases p <;> rfl

theorem finished_call : (j.call c).2.finished = true ↔ j.finished = true ∨ c = .finish := by
  cases c with
  | event row => simp [call, writeEvent]
  | occupancy rows => simp [call, writeOccupancy]
  | finish =>
    refine iff_of_true ?_ (.inr rfl)
    simp only [call, finish]
    split
    · assumption
    · split <;> rfl

theorem finish_of_finished (finished : j.finished = true) : j.finish = (.ok (), j) :=
  if_pos finished

theorem finish_eq_ok (fresh : j.finished = false) : j.finish.1 = .ok () ↔
    (RecordFile.flush j.events).1 = .ok () ∧ (RecordFile.flush j.occupancy).1 = .ok () := by
  simp only [finish, fresh, Bool.false_eq_true, if_false]
  split <;> simp_all

theorem file_finish_of_ok (fresh : j.finished = false) (success : j.finish.1 = .ok ()) :
    j.finish.2.file p = (RecordFile.flush (j.file p)).2 := by
  obtain ⟨events, -⟩ := (finish_eq_ok fresh).mp success
  simp only [finish, fresh, Bool.false_eq_true, if_false]
  split
  · simp_all
  · cases p <;> simp_all [file]

theorem file_finish : j.finish.2.file p = j.file p ∨
    j.finish.2.file p = (RecordFile.flush (j.file p)).2 := by
  unfold finish
  split
  · exact .inl rfl
  · split
    · rename_i fault events flush
      cases p with
      | events => exact .inr (congrArg Prod.snd flush).symm
      | occupancy => exact .inl rfl
    · rename_i events flush
      cases p with
      | events => exact .inr (congrArg Prod.snd flush).symm
      | occupancy => exact .inr rfl

section Keeping

variable [ReliableFile φ] {records : List (List String)}

theorem taken_finish (taken : Taken (j.file p) records) : Taken (j.finish.2.file p) records := by
  rcases file_finish (j := j) (p := p) with same | flushed
  · exact same ▸ taken
  · exact flushed ▸ ReliableFile.taken_flush taken

theorem taken_call (taken : Taken (j.file p) records) :
    Taken ((j.call c).2.file p) (records ++ RecordFile.accepted (j.file p) (c.records p)) := by
  by_cases writes : c = .finish
  · subst writes
    rw [JournalCall.records_finish, RecordFile.accepted, List.append_nil]
    exact taken_finish taken
  · rw [file_call writes]
    exact taken_writeAll taken

theorem taken_run (taken : Taken (j.file p) records) (calls : List JournalCall) :
    Taken ((j.run calls).file p) (records ++ j.accepted p calls) := by
  induction calls generalizing j records with
  | nil => rwa [accepted, List.append_nil]
  | cons c rest ih =>
    rw [accepted, ← List.append_assoc]
    exact ih (taken_call taken)

theorem stored_finish (taken : Taken (j.file p) records) (fresh : j.finished = false)
    (success : j.finish.1 = .ok ()) : Stored (j.finish.2.file p) records := by
  obtain ⟨events, occupancy⟩ := (finish_eq_ok fresh).mp success
  rw [file_finish_of_ok fresh success]
  cases p with
  | events => exact ReliableFile.stored_flush taken events
  | occupancy => exact ReliableFile.stored_flush taken occupancy

end Keeping

theorem fresh_create {events occupancy : φ} (begun : create events occupancy = .ok j) :
    j.finished = false := by
  rw [(create_eq_ok.mp begun).2.2]

theorem taken_create [ReliableFile φ] {events occupancy : φ}
    (begun : create events occupancy = .ok j) (new : Taken events []) (new' : Taken occupancy [])
    (p : JournalPart) : Taken (j.file p) [p.header] := by
  obtain ⟨first, second, rfl⟩ := create_eq_ok.mp begun
  cases p with
  | events => exact ReliableFile.taken_write _ new first
  | occupancy => exact ReliableFile.taken_write _ new' second

theorem finished_run : (j.run calls).finished = true ↔ j.finished = true ∨ .finish ∈ calls := by
  induction calls generalizing j with
  | nil => simp [run]
  | cons c rest ih =>
    have step : j.run (c :: rest) = (j.call c).2.run rest := rfl
    rw [step, ih, finished_call, List.mem_cons, or_assoc, eq_comm (a := c)]

theorem fresh_run (fresh : j.finished = false) (unfinished : .finish ∉ calls) :
    (j.run calls).finished = false := by
  rw [Bool.eq_false_iff, ne_eq, finished_run, fresh]
  simpa using unfinished

theorem run_finish (done later : List JournalCall) :
    j.run (done ++ .finish :: later) = (j.run done).finish.2.run later := run_append _ _

theorem accepted_finish (done later : List JournalCall) :
    j.accepted p (done ++ .finish :: later) =
      j.accepted p done ++ (j.run done).finish.2.accepted p later := by
  rw [accepted_append, accepted, JournalCall.records_finish]
  rfl

theorem finished_finish : j.finish.2.finished = true :=
  finished_call (c := .finish).mpr (.inr rfl)

theorem stored_run [ReliableFile φ] {records : List (List String)} (finished : j.finished = true)
    (stored : Stored (j.file p) records) (calls : List JournalCall) :
    Stored ((j.run calls).file p) records := by
  induction calls generalizing j with
  | nil => exact stored
  | cons c rest ih =>
    refine ih (finished_call.mpr (.inl finished)) ?_
    by_cases writes : c = .finish
    · subst writes
      simpa only [call, finish_of_finished finished] using stored
    · rw [file_call writes]
      exact stored_writeAll stored

theorem Settled.stored [ReliableFile φ] (settled : j.Settled calls) (fresh : j.finished = false)
    (taken : Taken (j.file p) [p.header]) (success : (j.run calls).finish.1 = .ok ()) :
    Stored ((j.run calls).finish.2.file p) (p.header :: j.accepted p calls) := by
  rcases settled with unfinished | ⟨done, later, rfl, unfinished, first, nothing⟩
  · exact stored_finish (taken_run taken calls) (fresh_run fresh unfinished) success
  · have stored := stored_finish (taken_run taken done) (fresh_run fresh unfinished) first
    have last := stored_run finished_finish stored later
    rw [accepted_finish, nothing p, List.append_nil, run_finish,
      finish_of_finished (finished_run.mpr (.inl finished_finish))]
    exact last

end Journal

namespace Text

def line (record : List String) : List UInt8 := (recordPieces record).flatten

def lines (records : List (List String)) : List UInt8 := records.flatMap line

end Text

namespace CsvFile

def contents (f : CsvFile) : List UInt8 := f.stored.toList ++ f.buffered.toList

variable {f : CsvFile} {piece : List UInt8} {record : List String}

theorem contents_put : (f.put piece).contents = f.contents ++ piece := by
  unfold put
  split <;> simp [contents]

theorem stored_put : f.stored.toList <+: (f.put piece).stored.toList := by
  unfold put
  split
  · exact List.prefix_rfl
  · exact ⟨f.buffered.toList, by simp⟩

theorem flush_congr {g : CsvFile} (flushes : g.flushes = f.flushes)
    (failing : g.failing = f.failing) : g.flush.1 = f.flush.1 := by
  simp only [flush, flushes, failing]
  split <;> rfl

theorem flush_put : (f.put piece).flush.1 = f.flush.1 := by
  unfold put
  split <;> exact flush_congr rfl rfl

theorem contents_write : (f.write record).contents = f.contents ++ Text.line record := by
  rw [write, Text.line]
  induction Text.recordPieces record generalizing f with
  | nil => simp
  | cons piece rest ih =>
    rw [List.foldl_cons, ih, contents_put, List.flatten_cons, List.append_assoc]

theorem stored_write : f.stored.toList <+: (f.write record).stored.toList := by
  rw [write]
  induction Text.recordPieces record generalizing f with
  | nil => exact List.prefix_rfl
  | cons piece rest ih => exact stored_put.trans ih

theorem flush_write : (f.write record).flush.1 = f.flush.1 := by
  rw [write]
  induction Text.recordPieces record generalizing f with
  | nil => rfl
  | cons piece rest ih => exact ih.trans flush_put

theorem waits_write : (f.write record).buffered ≠ #[] := by
  rw [write, Text.recordPieces, List.foldl_append, List.foldl_cons, List.foldl_nil, put]
  split <;> simp

theorem contents_flush : f.flush.2.contents = f.contents := by
  simp only [flush]
  split <;> simp [contents]

theorem flush_eq_ok : f.flush.1 = .ok () ↔ f.flushes + 1 ∉ f.failing := by
  simp only [flush]
  split <;> simp_all

theorem stored_flush (success : f.flush.1 = .ok ()) : f.flush.2.stored.toList = f.contents := by
  simp only [flush, if_neg (flush_eq_ok.mp success), contents, Array.toList_append]

theorem buffered_flush (failure : f.flush.1 ≠ .ok ()) : f.flush.2.buffered = f.buffered := by
  rw [ne_eq, flush_eq_ok, not_not] at failure
  simp only [flush, if_pos failure]

theorem stored_eq_iff {bytes : List UInt8} (taken : f.contents = bytes) :
    f.stored.toList = bytes ↔ f.buffered = #[] := by
  subst taken
  simp [contents]

instance : ReliableFile CsvFile where
  Taken f records := f.contents = Text.lines records
  Stored f records := Text.lines records <+: f.stored.toList
  taken_write {f records} record taken _ := by
    change (f.write record).contents = _
    rw [contents_write, taken, Text.lines, Text.lines, List.flatMap_append, List.flatMap_singleton]
  taken_refused _ _ refused := absurd rfl refused
  taken_flush taken := contents_flush.trans taken
  stored_flush {f records} taken success := by
    have all : f.flush.2.stored.toList = Text.lines records := (stored_flush success).trans taken
    exact all ▸ List.prefix_rfl
  stored_write _ stored := stored.trans stored_write

theorem waits_writeAll {f : CsvFile} {written : List (List String)}
    (waits : written ≠ [] ∨ f.buffered ≠ #[]) :
    (RecordFile.writeAll f written).2.buffered ≠ #[] := by
  induction written generalizing f with
  | nil => exact waits.resolve_left (absurd rfl)
  | cons record rest ih => exact ih (.inr waits_write)

theorem accepted_eq {f : CsvFile} {written : List (List String)} :
    RecordFile.accepted f written = written := by
  induction written generalizing f with
  | nil => rfl
  | cons record rest ih => exact congrArg (record :: ·) ih

theorem flush_writeAll {f : CsvFile} {written : List (List String)} :
    (RecordFile.writeAll f written).2.flush.1 = f.flush.1 := by
  induction written generalizing f with
  | nil => rfl
  | cons record rest ih => exact ih.trans flush_write

end CsvFile

namespace Journal

variable {j : Journal CsvFile} {c : JournalCall} {p : JournalPart} {calls : List JournalCall}
variable {failing failing' : List Nat}

theorem flush_create (begun : create { failing } { failing := failing' } = .ok j) :
    (j.events.flush.1 = .ok () ↔ 1 ∉ failing) ∧ (j.occupancy.flush.1 = .ok () ↔ 1 ∉ failing') := by
  obtain ⟨-, -, rfl⟩ := create_eq_ok.mp begun
  simp only [RecordFile.write, CsvFile.flush_write, CsvFile.flush_eq_ok, Nat.zero_add, and_self]

theorem waits_create (begun : create { failing } { failing := failing' } = .ok j)
    (p : JournalPart) : (j.file p).buffered ≠ #[] := by
  obtain ⟨-, -, rfl⟩ := create_eq_ok.mp begun
  cases p <;> exact CsvFile.waits_write

theorem accepted_csv : j.accepted p calls = calls.flatMap (·.records p) := by
  induction calls generalizing j with
  | nil => rfl
  | cons c rest ih => rw [accepted, CsvFile.accepted_eq, ih, List.flatMap_cons]

theorem waits_run (quiet : j.finished = true ∨ .finish ∉ calls)
    (waits : (j.file p).buffered ≠ #[]) : ((j.run calls).file p).buffered ≠ #[] := by
  induction calls generalizing j with
  | nil => exact waits
  | cons c rest ih =>
    by_cases writes : c = .finish
    · subst writes
      have finished := quiet.resolve_right (by simp)
      refine ih (.inl finished_finish) ?_
      simpa only [call, finish_of_finished finished] using waits
    · refine ih ?_ ?_
      · exact quiet.imp (fun finished => finished_call.mpr (.inl finished))
          fun unfinished => List.not_mem_of_not_mem_cons unfinished
      · rw [file_call writes]
        exact CsvFile.waits_writeAll (.inr waits)

theorem flush_run (unfinished : .finish ∉ calls) :
    ((j.run calls).file p).flush.1 = (j.file p).flush.1 := by
  induction calls generalizing j with
  | nil => rfl
  | cons c rest ih =>
    rw [List.mem_cons, not_or] at unfinished
    have step : ((j.call c).2.file p).flush.1 = (j.file p).flush.1 := by
      rw [file_call (Ne.symm unfinished.1)]
      exact CsvFile.flush_writeAll
    exact (ih unfinished.2).trans step

theorem finish_run_eq_ok (fresh : j.finished = false) (calls : List JournalCall) :
    (j.run calls).finish.1 = .ok () ↔
      .finish ∈ calls ∨ j.events.flush.1 = .ok () ∧ j.occupancy.flush.1 = .ok () := by
  by_cases finished : .finish ∈ calls
  · rw [finish_of_finished (finished_run.mpr (.inr finished))]
    exact iff_of_true rfl (.inl finished)
  · have events : (j.run calls).events.flush.1 = j.events.flush.1 :=
      flush_run (p := .events) finished
    have occupancy : (j.run calls).occupancy.flush.1 = j.occupancy.flush.1 :=
      flush_run (p := .occupancy) finished
    rw [or_iff_right finished, ← events, ← occupancy]
    exact finish_eq_ok (fresh_run fresh finished)

theorem accepted_nil_of_stored (finished : j.finished = true) (calls : List JournalCall)
    (stored : ((j.run calls).file p).buffered = #[]) : j.accepted p calls = [] := by
  induction calls generalizing j with
  | nil => rfl
  | cons c rest ih =>
    have finished' : (j.call c).2.finished = true := finished_call.mpr (.inl finished)
    rw [accepted, ih finished' stored, List.append_nil]
    by_contra some
    have writes : c ≠ .finish := by
      rintro rfl
      exact some (by rw [JournalCall.records_finish]; rfl)
    rw [CsvFile.accepted_eq] at some
    refine waits_run (.inl finished') ?_ stored
    rw [file_call writes]
    exact CsvFile.waits_writeAll (.inl some)

theorem finish_ok_of_stored (fresh : j.finished = false) (waits : ∀ p, (j.file p).buffered ≠ #[])
    (stored : ∀ p, (j.finish.2.file p).buffered = #[]) : j.finish.1 = .ok () := by
  by_contra failure
  -- what a flush does not take goes on waiting
  have lost {p : JournalPart} (failure : (RecordFile.flush (j.file p)).1 ≠ .ok ()) : False := by
    rcases file_finish (j := j) (p := p) with same | flushed
    · exact waits p (same ▸ stored p)
    · exact waits p ((CsvFile.buffered_flush failure).symm.trans (flushed ▸ stored p))
  rw [finish_eq_ok fresh, not_and_or] at failure
  exact failure.elim (lost (p := .events)) (lost (p := .occupancy))

theorem settled_of_stored (fresh : j.finished = false) (waits : ∀ p, (j.file p).buffered ≠ #[])
    (stored : ∀ p, ((j.run calls).finish.2.file p).buffered = #[]) : j.Settled calls := by
  by_cases unfinished : .finish ∈ calls
  · obtain ⟨done, later, rfl, first⟩ := List.eq_append_cons_of_mem unfinished
    rw [run_finish, finish_of_finished (finished_run.mpr (.inl finished_finish))] at stored
    have waits p := waits_run (.inr first) (waits p)
    refine .inr ⟨done, later, rfl, first, ?_, ?_⟩
    · refine finish_ok_of_stored (fresh_run fresh first) waits fun p => ?_
      by_contra waiting
      exact waits_run (.inl finished_finish) waiting (stored p)
    · exact fun p => accepted_nil_of_stored finished_finish later (stored p)
  · exact .inl unfinished

theorem lines_stored_iff (fresh : j.finished = false) (taken : ∀ p, Taken (j.file p) [p.header])
    (waits : ∀ p, (j.file p).buffered ≠ #[]) (success : (j.run calls).finish.1 = .ok ()) :
    (∀ p, ((j.run calls).finish.2.file p).stored.toList =
      Text.lines (p.header :: calls.flatMap (·.records p))) ↔ j.Settled calls := by
  have all p : ((j.run calls).finish.2.file p).contents =
      Text.lines (p.header :: calls.flatMap (·.records p)) :=
    accepted_csv (j := j) ▸ taken_finish (taken_run (taken p) calls)
  constructor
  · intro stored
    exact settled_of_stored fresh waits fun p => (CsvFile.stored_eq_iff (all p)).mp (stored p)
  · intro settled p
    have stored : Text.lines (p.header :: j.accepted p calls) <+:
        ((j.run calls).finish.2.file p).stored.toList := settled.stored fresh (taken p) success
    have least : ((j.run calls).finish.2.file p).stored.toList <+:
        Text.lines (p.header :: calls.flatMap (·.records p)) := ⟨_, all p⟩
    rw [accepted_csv] at stored
    exact least.sublist.antisymm stored.sublist

/-- If a journal is finished with success, it has stored all that it has taken, provided that it
    was not finished before, or with success and has taken nothing since. With files that have a
    buffer this is so in no other case, and a journal that was finished before is always finished
    with success. -/
theorem stored_iff_settled (calls : List JournalCall) :
    (∀ (φ : Type) [RecordFile φ] [ReliableFile φ] (events occupancy : φ) (j : Journal φ),
      Taken events [] → Taken occupancy [] → create events occupancy = .ok j →
      (j.run calls).finish.1 = .ok () → j.Settled calls → ∀ p,
        Stored ((j.run calls).finish.2.file p) (p.header :: j.accepted p calls)) ∧
    ∀ failing failing' : List Nat, ∃ j : Journal CsvFile,
      create { failing } { failing := failing' } = .ok j ∧
      ((j.run calls).finish.1 = .ok () ↔ .finish ∈ calls ∨ 1 ∉ failing ∧ 1 ∉ failing') ∧
      ((j.run calls).finish.1 = .ok () →
        ((∀ p, ((j.run calls).finish.2.file p).stored.toList =
          Text.lines (p.header :: calls.flatMap (·.records p))) ↔ j.Settled calls)) := by
  refine ⟨?_, fun failing failing' => ?_⟩
  · intro φ _ _ events occupancy j new new' begun success settled p
    exact settled.stored (fresh_create begun) (taken_create begun new new' p) success
  · have begun : create (φ := CsvFile) { failing } { failing := failing' } = .ok _ :=
      create_eq_ok.mpr ⟨rfl, rfl, rfl⟩
    have fresh := fresh_create begun
    have flushes := flush_create begun
    refine ⟨_, begun, ?_, lines_stored_iff fresh (taken_create begun rfl rfl) (waits_create begun)⟩
    rw [finish_run_eq_ok fresh, flushes.1, flushes.2]

theorem stored_iff_settled_row :
    let row := EventRow.ofEvent 0 10 (.claimed ⟨"v1"⟩ [.ofList [.point ⟨0⟩]])
    let calls : List JournalCall := [.event row, .finish]
    ∃ j : Journal CsvFile, create {} {} = .ok j ∧ j.Settled calls ∧
      (j.run calls).finish.1 = .ok () ∧
      ∀ p, Stored ((j.run calls).finish.2.file p) (p.header :: j.accepted p calls) ∧
        ((j.run calls).finish.2.file p).stored.toList =
          Text.lines (p.header :: calls.flatMap (·.records p)) := by
  intro row calls
  obtain ⟨reliable, buffered⟩ := stored_iff_settled calls
  obtain ⟨j, begun, outcome, stored⟩ := buffered [] []
  obtain ⟨-, first⟩ := stored_iff_settled [.event row]
  obtain ⟨i, begun', outcome', -⟩ := first [] []
  cases begun.symm.trans begun'
  have success := outcome.mpr (.inl (by simp [calls]))
  have settled : j.Settled calls :=
    .inr ⟨[_], [], rfl, by simp, outcome'.mpr (.inr (by simp)), fun _ => rfl⟩
  exact ⟨j, begun, settled, success, fun p =>
    ⟨reliable CsvFile _ _ j rfl rfl begun success settled p, (stored success).mpr settled p⟩⟩

/-- A row that is written between two attempts to finish is not stored, although both succeed. -/
theorem not_stored_between :
    let row := EventRow.ofEvent 0 10 (.claimed ⟨"v1"⟩ [.ofList [.point ⟨0⟩]])
    ∃ j : Journal CsvFile, create {} {} = .ok j ∧ j.finish.1 = .ok () ∧
      (j.run [.finish, .event row]).finish.1 = .ok () ∧
      j.accepted .events [.finish, .event row] = [row.fields] ∧
      (j.run [.finish, .event row]).finish.2.events.stored.toList ≠
        Text.lines [EventRow.header, row.fields] := by
  intro row
  have begun : create (φ := CsvFile) {} {} = .ok _ := create_eq_ok.mpr ⟨rfl, rfl, rfl⟩
  have flushes := flush_create begun
  have success calls := (finish_run_eq_ok (fresh_create begun) calls).mpr
    (.inr ⟨flushes.1.mpr (by simp), flushes.2.mpr (by simp)⟩)
  refine ⟨_, begun, success [], success _, accepted_csv, fun stored => ?_⟩
  have taken := taken_run (taken_create begun rfl rfl .events) [.finish, .event row]
  rw [finish_of_finished (finished_run.mpr (.inr (by simp)))] at stored
  have empty := (CsvFile.stored_eq_iff taken).mp stored
  have nothing := accepted_nil_of_stored finished_finish [.event row] empty
  exact List.cons_ne_nil _ _ (accepted_csv.symm.trans nothing)

end Journal

end TrafficControl
