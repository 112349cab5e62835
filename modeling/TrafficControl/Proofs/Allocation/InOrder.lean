import Mathlib
import TrafficControl.Proofs.Allocation.Dealings
import TrafficControl.Proofs.Allocation.Precedence

namespace TrafficControl

namespace Command

/-- By priority, then by instant, then by client, then in the order in which they were given. -/
def Precedes (c d : Command) : Prop :=
  c.task.priority < d.task.priority ∨ c.task.priority = d.task.priority ∧
    (c.created < d.created ∨ c.created = d.created ∧
      (compare c.client d.client = .lt ∨ c.client = d.client ∧ c.serial < d.serial))

def Alike (c d : Command) : Prop := c.client = d.client ∧ c.task.name = d.task.name

variable {c d : Command}

theorem compare_eq_lt_iff : compare c d = .lt ↔ c.Precedes d := by
  change compareLex _ _ c d = .lt ↔ _
  simp only [compareLex, compareOn, Ordering.then_eq_lt, Std.compare_eq_iff_eq,
    Nat.compare_eq_lt, Precedes]

theorem serial_eq_of_compare_eq (same : compare c d = .eq) : c.serial = d.serial := by
  change compareLex _ _ c d = .eq at same
  simp only [compareLex, compareOn, Ordering.then_eq_eq, Std.compare_eq_iff_eq] at same
  exact same.2.2.2

theorem precedes_of_isLE (low : (compare c d).isLE = true) (other : c.serial ≠ d.serial) :
    c.Precedes d := by
  rw [← compare_eq_lt_iff]
  cases order : compare c d with
  | lt => rfl
  | eq => exact absurd (serial_eq_of_compare_eq order) other
  | gt =>
    rw [order] at low
    cases low

theorem Precedes.asymm (first : c.Precedes d) : ¬ d.Precedes c := by
  have swap : compare d c = (compare c d).swap := Std.OrientedCmp.eq_swap
  rw [← compare_eq_lt_iff] at first ⊢
  rw [swap, first]
  decide

theorem priority_eq_of_name_eq {t u : Task} (same : t.name = u.name) : t.priority = u.priority := by
  cases t <;> cases u <;> first | rfl | simp [Task.name] at same

theorem Precedes.serial_lt (first : c.Precedes d) (alike : c.Alike d)
    (clock : d.serial < c.serial → d.created ≤ c.created) (other : c.serial ≠ d.serial) :
    c.serial < d.serial := by
  have rank := priority_eq_of_name_eq alike.2
  have self : compare c.client d.client = .eq := Std.compare_eq_iff_eq.mpr alike.1
  unfold Precedes at first
  simp only [self, reduceCtorEq, false_or] at first
  omega

end Command

inductive AgendaAction where
  | push (now : Nat) (task : Task) (client : ClientId)
  | pop
  | purge (client : ClientId)

/-- An agenda with all that came to it and left it. -/
structure AgendaHistory where
  agenda : Agenda := {}
  pushed : List Command := []
  popped : List Command := []
  purged : List Command := []

namespace AgendaHistory

def next (h : AgendaHistory) : AgendaAction → AgendaHistory
  | .push now task client => { h with
      agenda := h.agenda.pushAt now task client
      pushed := h.pushed ++ [{ task, client, created := now, serial := h.agenda.nextSerial }] }
  | .pop =>
    match h.agenda.pop? with
    | none => h
    | some (first, rest) => { h with agenda := rest, popped := h.popped ++ [first] }
  | .purge client => { h with
      agenda := h.agenda.purge client
      purged := h.purged ++ h.agenda.pending.filter fun c => c.client = client }

def run (h : AgendaHistory) (actions : List AgendaAction) : AgendaHistory := actions.foldl next h

variable {h : AgendaHistory}

theorem run_cons (a : AgendaAction) (rest : List AgendaAction) :
    h.run (a :: rest) = (h.next a).run rest := rfl

theorem next_pop_none (none : h.agenda.pop? = none) : h.next .pop = h := by
  simp only [next, none]

theorem next_pop {first : Command} {rest : Agenda} (pop : h.agenda.pop? = some (first, rest)) :
    h.next .pop = { h with agenda := rest, popped := h.popped ++ [first] } := by
  simp only [next, pop]

/-- Nothing is lost or put in twice, and what is pending is in order. -/
structure Faithful (h : AgendaHistory) : Prop where
  numbered : h.pushed.map Command.serial = List.range h.agenda.nextSerial
  balance : h.pushed.Perm (h.popped ++ (h.purged ++ h.agenda.pending))
  ordered : h.agenda.Ordered

def Timely (h : AgendaHistory) : Prop := h.pushed.Pairwise fun c d => c.created ≤ d.created

theorem Faithful.nodup (faithful : h.Faithful) :
    (h.pushed.map Command.serial).Nodup := by
  rw [faithful.numbered]
  exact List.nodup_range

theorem Faithful.serial_ne (faithful : h.Faithful) :
    (h.popped ++ (h.purged ++ h.agenda.pending)).Pairwise fun c d => c.serial ≠ d.serial := by
  have distinct := (faithful.balance.map Command.serial).nodup_iff.mp faithful.nodup
  exact List.pairwise_map.mp distinct

theorem Faithful.serial_lt (faithful : h.Faithful) {c : Command}
    (member : c ∈ h.popped ++ (h.purged ++ h.agenda.pending)) : c.serial < h.agenda.nextSerial := by
  have listed : c.serial ∈ h.pushed.map Command.serial :=
    List.mem_map_of_mem (faithful.balance.mem_iff.mpr member)
  rw [faithful.numbered] at listed
  exact List.mem_range.mp listed

theorem Faithful.next (faithful : h.Faithful) (a : AgendaAction) : (h.next a).Faithful := by
  obtain ⟨numbered, balance, ordered⟩ := faithful
  cases a with
  | push now task client =>
    refine ⟨?_, ?_, Agenda.ordered_place ordered⟩
    · simp only [AgendaHistory.next, Agenda.pushAt, List.map_append, numbered, List.range_succ]
      rfl
    · simp only [AgendaHistory.next, Agenda.pushAt]
      generalize (Command.mk task client now h.agenda.nextSerial) = command
      have placed := Agenda.place_perm command h.agenda.pending
      have last : (h.pushed ++ [command]).Perm (command :: h.pushed) :=
        List.perm_append_singleton ..
      have middle : (command :: (h.popped ++ (h.purged ++ h.agenda.pending))).Perm
          (h.popped ++ (h.purged ++ command :: h.agenda.pending)) := by
        rw [← List.append_assoc, ← List.append_assoc]
        exact List.perm_middle.symm
      exact (last.trans ((balance.cons command).trans middle)).trans
        ((placed.symm.append_left _).append_left _)
  | pop =>
    simp only [AgendaHistory.next]
    split
    · exact ⟨numbered, balance, ordered⟩
    · rename_i first rest pop
      obtain ⟨pending, same⟩ := Agenda.pop?_eq_some.mp pop
      have serial : rest.nextSerial = h.agenda.nextSerial := by rw [same]
      refine ⟨serial ▸ numbered, ?_, (ordered.pop pop).1⟩
      rw [pending] at balance
      refine balance.trans ?_
      simp only [List.append_assoc]
      refine List.Perm.append_left _ ?_
      exact List.perm_middle
  | purge client =>
    refine ⟨numbered, balance.trans ?_, ordered.purge client⟩
    have parted := List.filter_append_perm (fun c : Command => c.client = client) h.agenda.pending
    simp only [AgendaHistory.next, Agenda.purge, List.append_assoc, decide_not]
    exact ((parted.symm.append_left _).append_left _)

theorem Faithful.run (faithful : h.Faithful) (actions : List AgendaAction) :
    (h.run actions).Faithful := by
  induction actions generalizing h with
  | nil => exact faithful
  | cons a rest ih => exact ih (faithful.next a)

theorem faithful_empty : Faithful {} := ⟨rfl, .refl _, List.Pairwise.nil⟩

/-- Being alike, the first one was pushed first. -/
def InTurn (c d : Command) : Prop := c.Alike d → c.serial < d.serial

theorem Faithful.distinct (faithful : h.Faithful) :
    h.agenda.pending.Pairwise fun c d => c.serial ≠ d.serial :=
  faithful.serial_ne.sublist ((List.sublist_append_right ..).trans (List.sublist_append_right ..))

theorem Faithful.precedes (faithful : h.Faithful) :
    h.agenda.pending.Pairwise Command.Precedes :=
  (List.Pairwise.and faithful.ordered faithful.distinct).imp
    fun both => Command.precedes_of_isLE both.1 both.2

theorem Faithful.created_le (faithful : h.Faithful) (timely : h.Timely) {c d : Command}
    (first : c ∈ h.pushed) (second : d ∈ h.pushed) (older : c.serial < d.serial) :
    c.created ≤ d.created := by
  obtain ⟨i, inside, rfl⟩ := List.mem_iff_getElem.mp first
  obtain ⟨j, inside', rfl⟩ := List.mem_iff_getElem.mp second
  have serial (k : Nat) (known : k < h.pushed.length) : h.pushed[k].serial = k := by
    have mapped : (h.pushed.map Command.serial)[k]? = some h.pushed[k].serial := by
      rw [List.getElem?_map, List.getElem?_eq_getElem known, Option.map_some]
    rw [faithful.numbered] at mapped
    obtain ⟨_, same⟩ := List.getElem?_eq_some_iff.mp mapped
    rw [← same, List.getElem_range]
  rw [serial i inside, serial j inside'] at older
  exact List.pairwise_iff_getElem.mp timely i j inside inside' older

theorem Faithful.inTurn (faithful : h.Faithful) (timely : h.Timely) :
    h.agenda.pending.Pairwise InTurn := by
  have both := faithful.precedes.and faithful.distinct
  refine both.imp_of_mem fun {c d} first second both alike => ?_
  have known {e : Command} (member : e ∈ h.agenda.pending) : e ∈ h.pushed :=
    faithful.balance.mem_iff.mpr (List.mem_append_right _ (List.mem_append_right _ member))
  exact both.1.serial_lt alike
    (faithful.created_le timely (known second) (known first)) both.2

theorem timely_of_next {a : AgendaAction} (timely : (h.next a).Timely) : h.Timely := by
  cases a with
  | push now task client => exact List.Pairwise.sublist (List.sublist_append_left ..) timely
  | pop =>
    simp only [AgendaHistory.next] at timely
    split at timely <;> exact timely
  | purge client => exact timely

def turns (h : AgendaHistory) : List Command := h.popped ++ h.agenda.pending

theorem inTurn_next (faithful : h.Faithful) (before : h.Timely → h.turns.Pairwise InTurn)
    (a : AgendaAction) (timely : (h.next a).Timely) : (h.next a).turns.Pairwise InTurn := by
  have before := before (timely_of_next timely)
  cases a with
  | push now task client =>
    obtain ⟨popped, -, across⟩ := List.pairwise_append.mp before
    have inTurn := (faithful.next (.push now task client)).inTurn timely
    refine List.pairwise_append.mpr ⟨popped, inTurn, fun c gone d waiting alike => ?_⟩
    rcases Agenda.mem_place.mp waiting with rfl | waiting
    · exact faithful.serial_lt (List.mem_append_left _ gone)
    · exact across c gone d waiting alike
  | pop =>
    simp only [AgendaHistory.next]
    split
    · exact before
    · rename_i first rest pop
      rw [turns, (Agenda.pop?_eq_some.mp pop).1] at before
      rwa [turns, List.append_assoc]
  | purge client => exact before.sublist (.append (.refl _) List.filter_sublist)

theorem inTurn_run {h : AgendaHistory} (faithful : h.Faithful)
    (start : h.Timely → h.turns.Pairwise InTurn) (actions : List AgendaAction) :
    (h.run actions).Timely → (h.run actions).turns.Pairwise InTurn := by
  induction actions generalizing h with
  | nil => exact start
  | cons a rest ih => exact ih (faithful.next a) (inTurn_next faithful start a)

theorem Faithful.sublist_pushed (faithful : h.Faithful) (ordered : h.turns.Pairwise InTurn)
    (client : ClientId) (name : String) :
    (h.turns.filter fun c => c.client = client ∧ c.task.name = name).Sublist
      (h.pushed.filter fun c => c.client = client ∧ c.task.name = name) := by
  have antisymm : Std.Antisymm fun c d : Command => c.serial < d.serial :=
    ⟨fun _ _ less more => absurd more (Nat.lt_asymm less)⟩
  refine List.sublist_of_subperm_of_pairwise
    (r := fun c d : Command => c.serial < d.serial) ?_ ?_ ?_
  · have kept : h.turns.Sublist (h.popped ++ (h.purged ++ h.agenda.pending)) :=
      .append (.refl _) (List.sublist_append_right ..)
    exact (kept.filter _).subperm.trans (faithful.balance.symm.filter _).subperm
  · refine (ordered.filter _).imp_of_mem fun {c d} first second turn => turn ?_
    have one := (List.mem_filter.mp first).2
    have other := (List.mem_filter.mp second).2
    simp only [decide_eq_true_eq] at one other
    exact ⟨one.1.trans other.1.symm, one.2.trans other.2.symm⟩
  · have rising : (h.pushed.map Command.serial).Pairwise (· < ·) := by
      rw [faithful.numbered]
      exact List.pairwise_lt_range
    exact (List.pairwise_map.mp rising).filter _

/-- A run of a heap of commands that may be laid out in any way at any time. What is taken from it
    is some command that no other one precedes. -/
inductive HeapRuns : List Command → Nat → List AgendaAction → List Command → List Command → Prop
  | done (l : List Command) (serial : Nat) : HeapRuns l serial [] [] l
  | push {l l' l'' popped : List Command} {serial now : Nat} {task : Task} {client : ClientId}
      {rest : List AgendaAction} (added : l'.Perm (⟨task, client, now, serial⟩ :: l))
      (later : HeapRuns l' (serial + 1) rest popped l'') :
      HeapRuns l serial (.push now task client :: rest) popped l''
  | pop {l l' l'' popped : List Command} {serial : Nat} {first : Command}
      {rest : List AgendaAction} (taken : l.Perm (first :: l'))
      (top : ∀ c ∈ l', ¬ c.Precedes first) (later : HeapRuns l' serial rest popped l'') :
      HeapRuns l serial (.pop :: rest) (first :: popped) l''
  | nothing {l'' popped : List Command} {serial : Nat} {rest : List AgendaAction}
      (later : HeapRuns [] serial rest popped l'') :
      HeapRuns [] serial (.pop :: rest) popped l''
  | purge {l l' l'' popped : List Command} {serial : Nat} {client : ClientId}
      {rest : List AgendaAction} (kept : l'.Perm (l.filter fun c => c.client ≠ client))
      (later : HeapRuns l' serial rest popped l'') :
      HeapRuns l serial (.purge client :: rest) popped l''

theorem perm_of_top (faithful : h.Faithful) {l' : List Command} {first : Command}
    (taken : h.agenda.pending.Perm (first :: l')) (top : ∀ c ∈ l', ¬ c.Precedes first) :
    ∃ rest, h.agenda.pop? = some (first, rest) ∧ l'.Perm rest.pending := by
  have ordered := faithful.precedes
  cases pending : h.agenda.pending with
  | nil =>
    rw [pending] at taken
    exact absurd taken.length_eq (by simp)
  | cons c rest =>
    rw [pending] at taken ordered
    have same : c = first := by
      rcases List.mem_cons.mp (taken.mem_iff.mp List.mem_cons_self) with same | below
      · exact same
      · rcases List.mem_cons.mp (taken.mem_iff.mpr List.mem_cons_self) with same | above
        · exact same.symm
        · exact absurd ((List.pairwise_cons.mp ordered).1 first above) (top c below)
    subst same
    refine ⟨{ h.agenda with pending := rest }, ?_, (taken.cons_inv).symm⟩
    simp only [Agenda.pop?, pending]

theorem HeapRuns.same {l l' popped : List Command} {serial : Nat} {actions : List AgendaAction}
    (runs : HeapRuns l serial actions popped l') {h : AgendaHistory} (faithful : h.Faithful)
    (held : l.Perm h.agenda.pending) (count : serial = h.agenda.nextSerial) :
    (h.run actions).popped = h.popped ++ popped ∧ l'.Perm (h.run actions).agenda.pending := by
  induction runs generalizing h with
  | done => exact ⟨(List.append_nil _).symm, held⟩
  | @push l _ _ _ serial now task client rest added _ ih =>
    subst count
    exact ih (faithful.next (.push now task client))
      (added.trans ((held.cons _).trans (Agenda.place_perm _ _).symm)) rfl
  | @pop l _ _ popped serial first rest taken top _ ih =>
    obtain ⟨agenda, pop, perm⟩ := perm_of_top faithful (held.symm.trans taken) top
    have next : agenda.nextSerial = h.agenda.nextSerial := by rw [(Agenda.pop?_eq_some.mp pop).2]
    have kept := next_pop pop ▸ faithful.next .pop
    have reached := ih kept perm (count.trans next.symm)
    rw [List.append_assoc] at reached
    rw [run_cons, next_pop pop]
    exact reached
  | nothing _ ih =>
    have empty := Agenda.pop?_eq_none.mpr (List.nil_perm.mp held)
    rw [run_cons, next_pop_none empty]
    exact ih faithful held count
  | @purge l _ _ _ serial client rest kept _ ih =>
    exact ih (faithful.next (.purge client)) (kept.trans (held.filter _)) count

theorem Faithful.heapRuns (faithful : h.Faithful) (actions : List AgendaAction) :
    ∃ popped, (h.run actions).popped = h.popped ++ popped ∧
      HeapRuns h.agenda.pending h.agenda.nextSerial actions popped
        (h.run actions).agenda.pending := by
  induction actions generalizing h with
  | nil => exact ⟨[], (List.append_nil _).symm, .done ..⟩
  | cons a rest ih =>
    obtain ⟨popped, appended, runs⟩ := ih (faithful.next a)
    cases a with
    | push now task client => exact ⟨popped, appended, .push (Agenda.place_perm ..) runs⟩
    | pop =>
      rw [run_cons]
      cases pop : h.agenda.pop? with
      | none =>
        have empty := Agenda.pop?_eq_none.mp pop
        rw [next_pop_none pop] at appended runs ⊢
        rw [empty] at runs ⊢
        exact ⟨popped, appended, .nothing runs⟩
      | some taken =>
        obtain ⟨first, agenda⟩ := taken
        obtain ⟨pending, same⟩ := Agenda.pop?_eq_some.mp pop
        have next : agenda.nextSerial = h.agenda.nextSerial := by rw [same]
        have before := faithful.precedes
        rw [pending] at before
        have top := (List.pairwise_cons.mp before).1
        rw [next_pop pop] at appended runs ⊢
        rw [next] at runs
        refine ⟨first :: popped, by rw [appended, List.append_assoc]; rfl, ?_⟩
        exact .pop (pending ▸ .refl _) (fun c left => (top c left).asymm) runs
    | purge client => exact ⟨popped, appended, .purge (.refl _) runs⟩

/-- Whatever is pushed, popped and dropped in whatever order, every command that was pushed was
    either popped or dropped or is pending, once. A client's commands are dropped and no others.
    What is popped precedes all that is left, and there is nothing to pop only if nothing is
    pending; so a heap gives the same commands in the same order, whatever its layout. Unless a
    clock goes back, commands of one client and one kind have their turn in the order in which they
    were pushed. -/
theorem popped_in_order (actions : List AgendaAction) :
    let h := run {} actions
    h.pushed.Perm (h.popped ++ (h.purged ++ h.agenda.pending)) ∧ h.pushed.Nodup ∧
      (∀ client c, c ∈ (h.agenda.purge client).pending ↔
        c ∈ h.agenda.pending ∧ c.client ≠ client) ∧
      (h.agenda.pop? = none ↔ h.agenda.pending = []) ∧
      (∀ first rest, h.agenda.pop? = some (first, rest) →
        h.agenda.pending.Perm (first :: rest.pending) ∧ ∀ c ∈ rest.pending, first.Precedes c) ∧
      HeapRuns [] 0 actions h.popped h.agenda.pending ∧
      (∀ popped left, HeapRuns [] 0 actions popped left →
        popped = h.popped ∧ left.Perm h.agenda.pending) ∧
      (h.Timely → ∀ client name,
        ((h.popped ++ h.agenda.pending).filter fun c =>
            c.client = client ∧ c.task.name = name).Sublist
          (h.pushed.filter fun c => c.client = client ∧ c.task.name = name)) := by
  intro h
  have faithful : h.Faithful := faithful_empty.run actions
  obtain ⟨popped, appended, runs⟩ := faithful_empty.heapRuns actions
  have all : h.popped = popped := appended
  refine ⟨faithful.balance, .of_map _ faithful.nodup, fun client c => ?_, Agenda.pop?_eq_none,
    fun first rest pop => ?_, all ▸ runs, fun popped left runs => ?_, fun timely client name => ?_⟩
  · simp [Agenda.purge]
  · have pending := (Agenda.pop?_eq_some.mp pop).1
    have before := faithful.precedes
    rw [pending] at before ⊢
    exact ⟨.refl _, (List.pairwise_cons.mp before).1⟩
  · obtain ⟨same, perm⟩ := runs.same faithful_empty (.refl _) rfl
    exact ⟨same.symm, perm⟩
  · exact faithful.sublist_pushed
      (inTurn_run faithful_empty (fun _ => .nil) actions timely) client name

theorem popped_in_order_crowd :
    let actions : List AgendaAction := [.push 5 (.allocate ∅) ⟨"v2"⟩, .push 5 (.allocate ∅) ⟨"v1"⟩,
      .push 5 .retry ⟨"v1"⟩, .pop, .push 7 (.allocate ∅) ⟨"v2"⟩, .push 7 (.allocate ∅) ⟨"v1"⟩, .pop,
      .purge ⟨"v1"⟩, .pop]
    (∀ popped left, HeapRuns [] 0 actions popped left →
        popped.map Command.serial = [2, 1, 0] ∧ left.map Command.serial = [3]) ∧
      ((run {} actions).agenda.pending.filter fun c =>
        c.client = ⟨"v2"⟩ ∧ c.task.name = "Allocate").Sublist
          ((run {} actions).pushed.filter fun c =>
            c.client = ⟨"v2"⟩ ∧ c.task.name = "Allocate") := by
  intro actions
  obtain ⟨-, -, -, -, -, -, heap, order⟩ := popped_in_order actions
  have popped : (run {} actions).popped.map Command.serial = [2, 1, 0] := by cbv
  have left : (run {} actions).agenda.pending.map Command.serial = [3] := by cbv
  have timely : (run {} actions).Timely := by
    have instants : (run {} actions).pushed.map Command.created = [5, 5, 5, 7, 7] := by cbv
    have rising : ((run {} actions).pushed.map Command.created).Pairwise (· ≤ ·) := by
      rw [instants]
      decide
    exact List.pairwise_map.mp rising
  refine ⟨fun taken rest runs => ?_, ?_⟩
  · obtain ⟨rfl, perm⟩ := heap taken rest runs
    have same := perm.map Command.serial
    rw [left] at same
    exact ⟨popped, List.perm_singleton.mp same⟩
  · have sublist := order timely ⟨"v2"⟩ "Allocate"
    rw [List.filter_append] at sublist
    exact (List.sublist_append_right ..).trans sublist

end AgendaHistory

structure Agenda.Stamped (a : Agenda) : Prop where
  created : ∀ c ∈ a.pending, c.created = a.clock.instant c.serial
  serial : ∀ c ∈ a.pending, c.serial < a.nextSerial
  distinct : a.pending.Pairwise fun c d => c.serial ≠ d.serial

namespace Agenda.Stamped

variable {a : Agenda}

theorem push (stamped : a.Stamped) (task : Task) (client : ClientId) :
    (a.push task client).Stamped := by
  refine ⟨fun c member => ?_, fun c member => ?_, ?_⟩
  · rcases mem_place.mp member with rfl | member
    · rfl
    · exact stamped.created c member
  · rcases mem_place.mp member with rfl | member
    · exact Nat.lt_succ_self _
    · exact Nat.lt_succ_of_lt (stamped.serial c member)
  · refine ((place_perm _ a.pending).pairwise_iff fun {c d} other => other.symm).mpr ?_
    exact List.pairwise_cons.mpr
      ⟨fun c member => (Nat.ne_of_lt (stamped.serial c member)).symm, stamped.distinct⟩

theorem sublist (stamped : a.Stamped) {l : List Command} (sub : l.Sublist a.pending) :
    Stamped { a with pending := l } where
  created c member := stamped.created c (sub.subset member)
  serial c member := stamped.serial c (sub.subset member)
  distinct := stamped.distinct.sublist sub

theorem pop (stamped : a.Stamped) {first : Command} {rest : Agenda}
    (taken : a.pop? = some (first, rest)) : rest.Stamped := by
  obtain ⟨pending, same⟩ := pop?_eq_some.mp taken
  rw [same]
  exact stamped.sublist (pending ▸ List.sublist_cons_self ..)

/-- As the clock does not go back, commands that are alike are pending in the order in which they were
    given. -/
theorem inTurn (stamped : a.Stamped) (ordered : a.Ordered) :
    a.pending.Pairwise AgendaHistory.InTurn := by
  have both := List.Pairwise.and ordered stamped.distinct
  refine both.imp_of_mem fun {c d} first second both alike => ?_
  refine (Command.precedes_of_isLE both.1 both.2).serial_lt alike (fun older => ?_) both.2
  rw [stamped.created c first, stamped.created d second]
  exact a.clock.instant_le (Nat.le_of_lt older)

end Agenda.Stamped

namespace Scheduler

theorem inTurn_run (plant : PlantVersions) (clock : Clock) (actions : List Action) :
    ((ofPlant plant clock).run actions).agenda.pending.Pairwise AgendaHistory.InTurn := by
  have start : (ofPlant plant clock).agenda.Stamped := {
    created := fun c none => absurd none List.not_mem_nil
    serial := fun c none => absurd none List.not_mem_nil
    distinct := List.Pairwise.nil }
  have stamped : ((ofPlant plant clock).run actions).agenda.Stamped := by
    refine run_invariant (P := fun s => s.agenda.Stamped) (fun s a => ?_) start actions
    exact agenda_turn (P := Agenda.Stamped) (fun _ task client stamped => stamped.push task client)
      (fun _ _ _ taken stamped => stamped.pop taken)
      (fun _ _ stamped => stamped.sublist List.filter_sublist)
      (fun _ stamped => ⟨stamped.created, stamped.serial, stamped.distinct⟩) (s.turn a)
  exact stamped.inTurn (ordered_run plant clock actions)

example : let still : Clock := ⟨fun _ => 5, fun _ => Nat.le_refl _⟩
    let s := (ofPlant corridor still).run [.register ⟨"v1"⟩ 0, .register ⟨"v2"⟩ 1,
      .claim ⟨"v1"⟩ [.ofList [.point ⟨0⟩]], .claim ⟨"v2"⟩ [.ofList [.point ⟨0⟩]],
      .allocate ⟨"v2"⟩ (.ofList [.point ⟨0⟩]), .allocate ⟨"v1"⟩ (.ofList [.point ⟨0⟩]),
      .allocate ⟨"v1"⟩ (.ofList [.point ⟨0⟩])]
    s.agenda.pending.map (fun c => (c.client.name, c.created, c.serial)) =
      [("v1", 5, 1), ("v1", 5, 2), ("v2", 5, 0)] := by decide_cbv

end Scheduler

end TrafficControl
