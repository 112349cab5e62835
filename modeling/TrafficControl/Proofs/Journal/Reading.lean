import Mathlib
import TrafficControl.Journal.Tape

namespace TrafficControl

namespace Text

def parts (sep : Char) (l : List Char) : List (List Char) :=
  if l.isEmpty then [] else l.splitOn sep

def within (l : List Char) : List Char := l.tail.dropLast

theorem within_eq {a b : Char} {l : List Char} : within (a :: (l ++ [b])) = l := by
  simp [within]

theorem mem_intercalate {sep : List Char} {ls : List (List Char)} {c : Char}
    (member : c ∈ sep.intercalate ls) : c ∈ sep ∨ ∃ l ∈ ls, c ∈ l := by
  induction ls with
  | nil => simp at member
  | cons l rest ih =>
    cases rest with
    | nil => exact .inr ⟨l, List.mem_cons_self, by simpa using member⟩
    | cons next rest =>
      rw [List.intercalate_cons_cons, List.mem_append, List.mem_append] at member
      rcases member with (here | between) | later
      · exact .inr ⟨l, List.mem_cons_self, here⟩
      · exact .inl between
      · rcases ih later with between | ⟨other, listed, there⟩
        · exact .inl between
        · exact .inr ⟨other, List.mem_cons_of_mem _ listed, there⟩

theorem filter_intercalate {p : Char → Bool} {sep : List Char} {ls : List (List Char)}
    (kept : ∀ l ∈ ls, ∀ c ∈ l, p c = true) :
    (sep.intercalate ls).filter p = (sep.filter p).intercalate ls := by
  induction ls with
  | nil => simp
  | cons l rest ih =>
    obtain ⟨here, later⟩ := List.forall_mem_cons.mp kept
    cases rest with
    | nil => simpa using here
    | cons next rest =>
      rw [List.intercalate_cons_cons, List.intercalate_cons_cons, List.filter_append,
        List.filter_append, ih later, List.filter_eq_self.mpr here]

theorem parts_intercalate {sep : Char} {ls : List (List Char)}
    (apart : ∀ l ∈ ls, l ≠ [] ∧ sep ∉ l) : parts sep ([sep].intercalate ls) = ls := by
  cases ls with
  | nil => rfl
  | cons l rest =>
    have inhabited : ([sep].intercalate (l :: rest)).isEmpty = false := by
      have first := (apart l List.mem_cons_self).1
      cases rest <;> simp [first]
    rw [parts, inhabited]
    exact List.splitOn_intercalate sep (fun l listed => (apart l listed).2) (by simp)

theorem mapM_read {α β : Type} {read : β → Option α} {write : α → β} {l : List α}
    (back : ∀ a ∈ l, read (write a) = some a) : (l.map write).mapM read = some l := by
  induction l with
  | nil => rfl
  | cons a rest ih =>
    obtain ⟨here, later⟩ := List.forall_mem_cons.mp back
    rw [List.map_cons, List.mapM_cons, here, ih later]
    rfl

end Text

open Text

namespace Resource

def kind : Resource → Kind
  | point _ => .point
  | path _ => .path
  | block _ => .block

def read? (l : List Char) : Option Resource := do
  let number ← (String.ofList (within (l.dropWhile (· ≠ '(')))).toNat?
  match String.ofList (l.takeWhile (· ≠ '(')) with
  | "PointId" => some (point ⟨number⟩)
  | "PathId" => some (path ⟨number⟩)
  | "BlockId" => some (block ⟨number⟩)
  | _ => none

variable {r : Resource}

theorem toList_toString :
    (toString r).toList = r.kind.label.toList ++ '(' :: (r.index.repr.toList ++ [')']) := by
  have shown : toString r = r.kind.label ++ "(" ++ r.index.repr ++ ")" := by
    cases r <;> rfl
  rw [shown]
  simp [String.toList_append]

theorem isAlpha_of_mem_label {kind : Kind} {c : Char} (member : c ∈ kind.label.toList) :
    c.isAlpha = true := by
  have letters : kind.label.toList.all Char.isAlpha = true := by
    cases kind <;> decide
  exact List.all_eq_true.mp letters c member

theorem isDigit_of_mem_repr {n : Nat} {c : Char} (member : c ∈ n.repr.toList) :
    c.isDigit = true := by
  rw [Nat.toList_repr] at member
  exact Nat.isDigit_of_mem_toDigits (by decide) (by decide) member

theorem read?_toString : read? (toString r).toList = some r := by
  have before : ∀ c ∈ r.kind.label.toList, decide (c ≠ '(') = true := by
    intro c member
    refine decide_eq_true fun same => ?_
    subst same
    cases isAlpha_of_mem_label member
  have digits : within ('(' :: (r.index.repr.toList ++ [')'])) = r.index.repr.toList := within_eq
  unfold read?
  rw [toList_toString, List.dropWhile_append_of_pos before, List.takeWhile_append_of_pos before,
    List.dropWhile_cons_of_neg (by decide), List.takeWhile_cons_of_neg (by decide), digits,
    List.append_nil, String.ofList_toList, String.ofList_toList, Nat.toNat?_repr]
  cases r <;> rfl

theorem toString_ne_nil : (toString r).toList ≠ [] := by
  rw [toList_toString]
  simp

/-- Nothing in the text of a resource could be taken for something between resources. -/
theorem not_mem_toString {sep : Char} (separates : sep ∈ [',', ' ', ';']) :
    sep ∉ (toString r).toList := by
  have other : sep.isAlpha = false ∧ sep.isDigit = false ∧ sep ≠ '(' ∧ sep ≠ ')' := by
    simp only [List.mem_cons, List.not_mem_nil, or_false] at separates
    rcases separates with rfl | rfl | rfl <;> decide
  rw [toList_toString, List.mem_append, List.mem_cons, List.mem_append, List.mem_singleton]
  rintro (letter | opening | digit | closing)
  · cases other.1.symm.trans (isAlpha_of_mem_label letter)
  · exact other.2.2.1 opening
  · cases other.2.1.symm.trans (isDigit_of_mem_repr digit)
  · exact other.2.2.2 closing

end Resource

namespace ResourceSet

def read? (l : List Char) : Option ResourceSet :=
  ((parts ',' (within (l.filter (· ≠ ' ')))).mapM Resource.read?).map OrderedSet.ofList

variable {s : ResourceSet}

theorem toList_display : s.display.toList =
    '\x7b' :: ([',', ' '].intercalate (s.toList.map fun r => (toString r).toList) ++ ['\x7d']) := by
  simp [display, String.toList_append, String.toList_intercalate, Function.comp_def]

theorem read?_display : read? s.display.toList = some s := by
  have plain : ∀ l ∈ s.toList.map fun r => (toString r).toList, ∀ c ∈ l, decide (c ≠ ' ') = true := by
    intro l listed c member
    obtain ⟨r, -, rfl⟩ := List.mem_map.mp listed
    refine decide_eq_true fun blank => ?_
    exact Resource.not_mem_toString (by simp) (blank ▸ member)
  have apart : ∀ l ∈ s.toList.map fun r => (toString r).toList, l ≠ [] ∧ ',' ∉ l := by
    intro l listed
    obtain ⟨r, -, rfl⟩ := List.mem_map.mp listed
    exact ⟨Resource.toString_ne_nil, Resource.not_mem_toString (by simp)⟩
  have filtered : s.display.toList.filter (· ≠ ' ') =
      '\x7b' :: ([','].intercalate (s.toList.map fun r => (toString r).toList) ++ ['\x7d']) := by
    rw [toList_display, List.filter_cons_of_pos (by decide), List.filter_append,
      filter_intercalate plain]
    rfl
  have same : OrderedSet.ofList s.toList = s := OrderedSet.ext fun r => OrderedSet.mem_ofList
  rw [read?, filtered, within_eq, parts_intercalate apart, mapM_read fun r _ => Resource.read?_toString,
    Option.map_some, same]

theorem display_ne_nil : s.display.toList ≠ [] := by
  rw [toList_display]
  exact List.cons_ne_nil _ _

theorem not_mem_display : ';' ∉ s.display.toList := by
  intro member
  rw [toList_display, List.mem_cons, List.mem_append, List.mem_singleton] at member
  rcases member with first | within | last
  · cases first
  · rcases mem_intercalate within with between | ⟨l, listed, there⟩
    · revert between
      decide
    · obtain ⟨r, -, rfl⟩ := List.mem_map.mp listed
      exact Resource.not_mem_toString (by simp) there
  · cases last

end ResourceSet

namespace Event

def sets : Event → List ResourceSet
  | claimed _ claims => claims
  | allocated _ request => [request]
  | deferred _ request => [request]
  | failed _ request => [request]
  | released _ resources => [resources]

def readSets? (text : String) : Option (List ResourceSet) :=
  (parts ';' text.toList).mapM ResourceSet.read?

theorem resourcesText_eq (e : Event) :
    e.resourcesText = String.intercalate ";" (e.sets.map ResourceSet.display) := by
  cases e <;> simp [resourcesText, sets]

theorem readSets?_resourcesText (e : Event) : readSets? e.resourcesText = some e.sets := by
  have apart : ∀ l ∈ e.sets.map fun s => s.display.toList, l ≠ [] ∧ ';' ∉ l := by
    intro l listed
    obtain ⟨s, -, rfl⟩ := List.mem_map.mp listed
    exact ⟨ResourceSet.display_ne_nil, ResourceSet.not_mem_display⟩
  have written : e.resourcesText.toList =
      [';'].intercalate (e.sets.map fun s => s.display.toList) := by
    rw [resourcesText_eq, String.toList_intercalate, List.map_map]
    rfl
  rw [readSets?, written, parts_intercalate apart, mapM_read fun s _ => ResourceSet.read?_display]

def ofSets? (client : ClientId) : EventKind → List ResourceSet → Option Event
  | .claimed, claims => some (claimed client claims)
  | .allocated, [request] => some (allocated client request)
  | .deferred, [request] => some (deferred client request)
  | .failed, [request] => some (failed client request)
  | .released, [resources] => some (released client resources)
  | _, _ => none

theorem ofSets?_sets (e : Event) : ofSets? e.client e.kind e.sets = some e := by
  cases e <;> rfl

theorem resourcesText_eq_iff {e f : Event} : e.resourcesText = f.resourcesText ↔ e.sets = f.sets := by
  constructor
  · intro same
    have read := readSets?_resourcesText e
    rw [same, readSets?_resourcesText f] at read
    exact (Option.some.inj read).symm
  · intro same
    rw [resourcesText_eq, resourcesText_eq, same]

example (client : ClientId) : (claimed client []).resourcesText = "" ∧
    (claimed client [∅, ∅]).resourcesText = "\x7b\x7d;\x7b\x7d" := ⟨rfl, rfl⟩

end Event

def EventKind.read? (text : String) : Option EventKind :=
  [claimed, allocated, deferred, failed, released].find? fun kind => toString kind = text

theorem EventKind.read?_toString (kind : EventKind) : read? (toString kind) = some kind := by
  cases kind <;> decide

namespace EventRow

def read? : List String → Option (Nat × Nat × Event)
  | [serial, elapsed, kind, client, resources, _] => do
    let event ← Event.ofSets? ⟨client⟩ (← EventKind.read? kind) (← Event.readSets? resources)
    return (← serial.toNat?, ← elapsed.toNat?, event)
  | _ => none

theorem read?_fields (serial elapsed : Nat) (e : Event) :
    read? (ofEvent serial elapsed e).fields = some (serial, elapsed, e) := by
  simp only [fields, ofEvent, read?, EventKind.read?_toString, Event.readSets?_resourcesText,
    Nat.toString_eq_repr, Nat.toNat?_repr]
  have same := Event.ofSets?_sets e
  simp [same]

end EventRow

def TapeEntry.read? : TapeEntry → Option (Nat × Nat × Event)
  | event row => EventRow.read? row.fields
  | _ => none

namespace Recorder

def recordAll {σ : Type} [Sink σ] (r : Recorder σ) (log : List (Nat × Event)) : Recorder σ :=
  log.foldl (fun r e => r.record e.1 e.2) r

variable {r : Recorder Tape}

theorem record_tape (elapsed : Nat) (e : Event) :
    let next := r.record elapsed e
    next.eventCount = r.eventCount + 1 ∧ next.sink.calls = r.sink.calls + 1 ∧
      next.sink.failing = r.sink.failing ∧
      next.sink.entries.filterMap TapeEntry.read? = r.sink.entries.filterMap TapeEntry.read? ++
        if r.sink.calls + 1 ∈ r.sink.failing then [] else [(r.eventCount, elapsed, e)] := by
  have read : TapeEntry.read? (.event (.ofEvent r.eventCount elapsed e)) =
      some (r.eventCount, elapsed, e) := EventRow.read?_fields ..
  simp only [record, Sink.writeEvent, Tape.call]
  by_cases fails : r.sink.calls + 1 ∈ r.sink.failing
  · simp [fails, keep]
  · simp [fails, keep, read]

theorem recordAll_tape (log : List (Nat × Event)) (together : r.sink.calls = r.eventCount) :
    (r.recordAll log).sink.entries.filterMap TapeEntry.read? =
      r.sink.entries.filterMap TapeEntry.read? ++
        ((log.zipIdx r.eventCount).filter fun e => e.2 + 1 ∉ r.sink.failing).map
          fun e => (e.2, e.1.1, e.1.2) := by
  induction log generalizing r with
  | nil => simp [recordAll]
  | cons e rest ih =>
    obtain ⟨count, calls, failing, entries⟩ := record_tape (r := r) e.1 e.2
    have later := ih (r := r.record e.1 e.2) (by rw [calls, count, together])
    rw [entries, count, failing] at later
    have unfolded : r.recordAll (e :: rest) = (r.record e.1 e.2).recordAll rest := rfl
    rw [unfolded, later, List.zipIdx_cons, List.append_assoc, together]
    by_cases fails : r.eventCount + 1 ∈ r.sink.failing
    · simp [fails]
    · simp [fails]

end Recorder

/-- The text that is written of resources tells which they are: the claimed sets in their order, or
    the one set. So each row reads back as the event that it was written for, and a log as the events
    that were recorded, but for those that could not be written. -/
theorem log_reads_back :
    (∀ c d as bs, (Event.claimed c as).resourcesText = (Event.claimed d bs).resourcesText ↔
        as = bs) ∧
      (∀ c d s t, (Event.allocated c s).resourcesText = (Event.allocated d t).resourcesText ↔
        s = t) ∧
      (∀ c d s t, (Event.deferred c s).resourcesText = (Event.deferred d t).resourcesText ↔
        s = t) ∧
      (∀ c d s t, (Event.failed c s).resourcesText = (Event.failed d t).resourcesText ↔ s = t) ∧
      (∀ c d s t, (Event.released c s).resourcesText = (Event.released d t).resourcesText ↔
        s = t) ∧
      (∀ serial elapsed e,
        EventRow.read? (EventRow.ofEvent serial elapsed e).fields = some (serial, elapsed, e)) ∧
      ∀ (failing : List Nat) (log : List (Nat × Event)),
        (Recorder.recordAll { sink := ({ failing } : Tape) } log).sink.entries.filterMap
            TapeEntry.read? =
          (log.zipIdx.filter fun e => e.2 + 1 ∉ failing).map fun e => (e.2, e.1.1, e.1.2) := by
  have single (s t : ResourceSet) : [s] = [t] ↔ s = t := by simp
  refine ⟨fun _ _ _ _ => Event.resourcesText_eq_iff, ?_, ?_, ?_, ?_, EventRow.read?_fields,
    fun failing log => ?_⟩
  case refine_5 =>
    rw [Recorder.recordAll_tape log rfl]
    rfl
  all_goals
    intro c d s t
    exact Event.resourcesText_eq_iff.trans (single s t)

end TrafficControl
