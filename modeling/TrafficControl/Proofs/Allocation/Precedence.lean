import Mathlib
import TrafficControl.Proofs.Allocation.Entries
import TrafficControl.Proofs.Allocation.WakeUp

namespace TrafficControl

namespace Command

variable {c d : Command}

instance : Std.TransOrd Command :=
  inferInstanceAs (Std.TransCmp (compareLex (compareOn fun c : Command => c.task.priority) <|
    compareLex (compareOn Command.created) <|
    compareLex (compareOn Command.client) (compareOn Command.serial)))

theorem priority_le_of_isLE (h : (compare c d).isLE = true) :
    c.task.priority ≤ d.task.priority := by
  apply Nat.le_of_not_lt
  intro greater
  have first : compare c.task.priority d.task.priority = .gt := Nat.compare_eq_gt.mpr greater
  have order : compare c d = .gt := by
    change (compareLex _ _ c d) = .gt
    simp only [compareLex, compareOn, first, Ordering.then]
  rw [order] at h
  cases h

end Command

namespace Agenda

def Ordered (a : Agenda) : Prop := a.pending.Pairwise fun c d => (compare c d).isLE = true

variable {a : Agenda} {task : Task} {client : ClientId}

theorem ordered_place {c : Command} {l : List Command}
    (ordered : l.Pairwise fun c d => (compare c d).isLE = true) :
    (place c l).Pairwise fun c d => (compare c d).isLE = true := by
  induction l with
  | nil => exact List.pairwise_singleton _ c
  | cons d rest ih =>
    obtain ⟨below, tail⟩ := List.pairwise_cons.mp ordered
    unfold place
    split
    · rename_i less
      have low : (compare c d).isLE = true := Ordering.isLE_of_eq_lt less
      refine List.pairwise_cons.mpr ⟨fun e member => ?_, ordered⟩
      rcases List.mem_cons.mp member with rfl | later
      · exact low
      · exact Std.TransCmp.isLE_trans low (below e later)
    · rename_i greater
      refine List.pairwise_cons.mpr ⟨fun e member => ?_, ih tail⟩
      rcases mem_place.mp member with rfl | later
      · have high : (compare e d).isGE = true := by
          cases order : compare e d with
          | lt => exact absurd order greater
          | eq => rfl
          | gt => rfl
        exact Std.OrientedCmp.isGE_iff_isLE.mp high
      · exact below e later

theorem Ordered.push (ordered : a.Ordered) (task : Task) (client : ClientId) :
    (a.push task client).Ordered := ordered_place ordered

theorem Ordered.purge (ordered : a.Ordered) (client : ClientId) : (a.purge client).Ordered :=
  List.Pairwise.filter _ ordered

theorem Ordered.pop {first : Command} {rest : Agenda} (ordered : a.Ordered)
    (pop : a.pop? = some (first, rest)) :
    rest.Ordered ∧ ∀ c ∈ rest.pending, (compare first c).isLE = true := by
  unfold Ordered at ordered
  simp only [pop?] at pop
  split at pop
  · cases pop
  · rename_i pending
    cases pop
    rw [pending, List.pairwise_cons] at ordered
    exact ordered.symm

theorem Ordered.priority_le {first : Command} {rest : Agenda} (ordered : a.Ordered)
    (pop : a.pop? = some (first, rest)) (has : a.Has task client) :
    first.task.priority ≤ task.priority := by
  rcases (has_pop pop).mp has with ⟨rfl, -⟩ | later
  · exact Nat.le_refl _
  · obtain ⟨c, member, rfl, -⟩ := later
    exact Command.priority_le_of_isLE ((ordered.pop pop).2 c member)

theorem Ordered.not_rouses {first : Command} {rest : Agenda} {request : ResourceSet}
    (ordered : a.Ordered) (pop : a.pop? = some (first, rest))
    (task : first.task = .allocate request) : ¬ a.Rouses client := by
  intro rouses
  rcases rouses with ⟨freed, d, has⟩ | has
  · have rank := ordered.priority_le pop has
    simp [task, Task.priority] at rank
  · have rank := ordered.priority_le pop has
    simp [task, Task.priority] at rank

end Agenda

namespace Scheduler

variable {s : Scheduler} {a : Action} {o : Occupancy} {agenda : Agenda}

/-- What holds of an agenda whatever is given, taken, dropped or closed holds of it in every run. -/
theorem agenda_turn {P : Agenda → Prop} (push : ∀ a task client, P a → P (a.push task client))
    (pop : ∀ a first rest, a.pop? = some (first, rest) → P a → P rest)
    (purge : ∀ a client, P a → P (a.purge client)) (close : ∀ a, P a → P a.close)
    (turn : Turn s a o agenda) (before : P s.agenda) : P agenda := by
  have pushAll (a : Agenda) (tasks : List (Task × ClientId)) (before : P a) :
      P (a.pushAll tasks) := by
    induction tasks generalizing a with
    | nil => exact before
    | cons t rest ih => exact ih _ (push a t.1 t.2 before)
  cases turn with
  | unchanged | registered | claimed | committed => exact before
  | unregistered =>
    split
    · exact purge _ _ before
    · exact push _ _ _ (purge _ _ before)
  | reclaimed | requested | released | dropped => exact push _ _ _ before
  | rechecked => exact pushAll _ _ before
  | closed => exact close _ before
  | woken taken => exact pushAll _ _ (pop _ _ _ taken before)
  | passed taken => exact pop _ _ _ taken before
  | denied deciding => exact pop _ _ _ deciding.pop before
  | deferred deciding => exact pop _ _ _ deciding.pop before
  | reserved deciding => exact push _ _ _ (pop _ _ _ deciding.pop before)

theorem ordered_run (plant : PlantVersions) (clock : Clock) (actions : List Action) :
    ((ofPlant plant clock).run actions).agenda.Ordered := by
  have start : (ofPlant plant clock).agenda.Ordered := List.Pairwise.nil
  refine run_invariant (P := fun s => s.agenda.Ordered) (fun s a => ?_) start actions
  exact agenda_turn (P := Agenda.Ordered) (fun _ task client ordered => ordered.push task client)
    (fun _ _ _ taken ordered => (ordered.pop taken).1) (fun _ client ordered => ordered.purge client)
    (fun _ ordered => ordered) (s.turn a)

/-- Where nobody leaves, everybody who waits is blocked or will be roused. -/
theorem waking_of_staying (plant : PlantVersions) (clock : Clock) {actions : List Action}
    (lasting : ∀ plant, Action.replace plant ∉ actions)
    (staying : ∀ client, Action.unregister client ∉ actions) (d : ClientId) :
    Waking ((ofPlant plant clock).run actions).plant.current
      ((ofPlant plant clock).run actions).occupancy ((ofPlant plant clock).run actions).agenda d := by
  apply waking_run (waking_ofPlant plant clock) lasting
  intro stranded
  obtain ⟨done, leaving, start, -⟩ := stranded
  exact staying leaving (start.subset (by simp))

/-- As long as nobody leaves, a new request has its turn only when every request that waits is
    blocked by something that another client holds: nothing that was given up for those who wait is
    left for it to take. -/
theorem blocked_of_allocate (plant : PlantVersions) (clock : Clock) {actions : List Action}
    (lasting : ∀ plant, Action.replace plant ∉ actions)
    (staying : ∀ client, Action.unregister client ∉ actions) {s : Scheduler}
    (history : s = (ofPlant plant clock).run actions) {first : Command} {rest : Agenda}
    {request : ResourceSet} (pop : s.agenda.pop? = some (first, rest))
    (task : first.task = .allocate request) {client : ClientId} {waiting : ResourceSet}
    (waits : s.occupancy.deferred.get? client = some waiting) :
    ∃ expanded, s.plant.current.expand waiting = .ok expanded ∧ ∃ r, r ∈ expanded ∧ ∃ m,
      (m = r ∨ ∃ b, s.plant.current.Includes (.block b) r ∧ m.isBlock = false ∧
        s.plant.current.Includes (.block b) m) ∧
      ∃ d, d ≠ client ∧ s.occupancy.holder? m = some d ∧ m ∈ s.occupancy.holdings d := by
  subst history
  have ordered := ordered_run plant clock actions
  have consistent := consistent_run plant clock actions
  have blocked := (waking_of_staying plant clock lasting staying client waiting waits).resolve_right
    (ordered.not_rouses pop task)
  obtain ⟨expanded, expansion, r, member, held⟩ := blocked
  refine ⟨expanded, expansion, r, member, ?_⟩
  rcases held with held | ⟨b, around, m, elementary, inside, held⟩
  · obtain ⟨d, entry, other⟩ := Occupancy.heldByOther_iff.mp held
    exact ⟨r, .inl rfl, d, other, entry, consistent.entered r d entry⟩
  · obtain ⟨d, entry, other⟩ := Occupancy.heldByOther_iff.mp held
    exact ⟨m, .inr ⟨b, around, elementary, inside⟩, d, other, entry, consistent.entered m d entry⟩

theorem blocked_of_allocate_corridor :
    let actions : List Action := [.register ⟨"v1"⟩ 0, .register ⟨"v2"⟩ 1, .register ⟨"v3"⟩ 2,
      .claim ⟨"v1"⟩ [.ofList [.point ⟨0⟩]], .claim ⟨"v2"⟩ [.ofList [.point ⟨0⟩]],
      .claim ⟨"v3"⟩ [.ofList [.point ⟨1⟩]],
      .allocate ⟨"v1"⟩ (.ofList [.point ⟨0⟩]), .work, .work, .answer true, .answer true,
      .allocate ⟨"v2"⟩ (.ofList [.point ⟨0⟩]), .work, .allocate ⟨"v3"⟩ (.ofList [.point ⟨1⟩])]
    (∃ first rest, ((ofPlant corridor).run actions).agenda.pop? = some (first, rest) ∧
        first.task = .allocate (.ofList [.point ⟨1⟩])) ∧
      ((ofPlant corridor).run actions).occupancy.deferred.get? ⟨"v2"⟩ =
        some (.ofList [.point ⟨0⟩]) ∧
      ∃ m d, d ≠ ⟨"v2"⟩ ∧ m ∈ ((ofPlant corridor).run actions).occupancy.holdings d := by
  intro actions
  have lasting : ∀ plant, Action.replace plant ∉ actions := by
    intro plant member
    simp [actions] at member
  have staying : ∀ client, Action.unregister client ∉ actions := by
    intro client member
    simp [actions] at member
  have pop : ((ofPlant corridor).run actions).agenda.pop? = some ({
      task := .allocate (.ofList [.point ⟨1⟩]), client := ⟨"v3"⟩, created := 3, serial := 3 },
      { nextSerial := 4 }) := by
    cbv
  have waits : ((ofPlant corridor).run actions).occupancy.deferred.get? ⟨"v2"⟩ =
      some (.ofList [.point ⟨0⟩]) := by
    cbv
  obtain ⟨-, -, -, -, m, -, d, other, -, held⟩ :=
    blocked_of_allocate corridor .counting lasting staying rfl pop rfl waits
  exact ⟨⟨_, _, pop, rfl⟩, waits, m, d, other, held⟩

end Scheduler

end TrafficControl
