import Mathlib
import TrafficControl.Proofs.Allocation.BlockHolder
import TrafficControl.Proofs.Allocation.Entries

namespace TrafficControl

def Signal.event? : Signal → Option Event
  | .told event => some event
  | .called _ => none

def Signal.books : Signal → Bool
  | .told (.allocated ..) => true
  | .told (.released ..) => true
  | _ => false

namespace OrderedSet

variable {α : Type} [Ord α] [Std.TransOrd α] [Std.LawfulEqOrd α] [DecidableEq α]
variable {s t : OrderedSet α}

theorem diff_of_isEmpty (empty : t.isEmpty = true) : s.diff t = s := by
  apply OrderedSet.ext
  intro a
  rw [mem_diff]
  exact and_iff_left (isEmpty_iff.mp empty a)

theorem diff_of_subset (inside : ∀ a, a ∈ s → a ∈ t) : s.diff t = ∅ := by
  apply OrderedSet.ext
  intro a
  rw [mem_diff]
  constructor
  · intro member
    exact absurd (inside a member.1) member.2
  · intro none
    exact absurd none not_mem_empty

end OrderedSet

namespace Plant

def enter (p : Plant) (sets : Table ClientId ResourceSet) :
    Event → Except Resource (Table ClientId ResourceSet)
  | .allocated client request => do
    let expanded ← p.expand request
    return sets.insert client (((sets.get? client).getD ∅).union expanded)
  | .released client resources =>
    return sets.insert client (((sets.get? client).getD ∅).diff resources)
  | _ => return sets

def replay (p : Plant) (events : List Event) : Except Resource (Table ClientId ResourceSet) :=
  events.foldlM p.enter ∅

theorem replay_append (p : Plant) (events later : List Event) :
    p.replay (events ++ later) = p.replay events >>= fun sets => later.foldlM p.enter sets :=
  List.foldlM_append

theorem Alike.replay {p q : Plant} (alike : p.Alike q) (events : List Event) :
    q.replay events = p.replay events := by
  have enter : q.enter = p.enter := by
    funext sets event
    cases event with
    | allocated client request => simp only [Plant.enter, alike.expand]
    | _ => rfl
  rw [Plant.replay, Plant.replay, enter]

theorem foldlM_enter {p : Plant} {said : List Signal}
    (silent : ∀ signal ∈ said, signal.books = false) (sets : Table ClientId ResourceSet) :
    (said.filterMap Signal.event?).foldlM p.enter sets = .ok sets := by
  induction said with
  | nil => rfl
  | cons signal rest ih =>
    have later := ih fun other member => silent other (List.mem_cons_of_mem _ member)
    have first := silent signal List.mem_cons_self
    cases signal with
    | called => exact later
    | told event =>
      cases event with
      | allocated | released => cases first
      | _ => exact later

end Plant

namespace Occupancy

variable {o o' : Occupancy} {p : Plant} {c d : ClientId} {freed : ResourceSet}

theorem owned_unregister (h : o.unregister? c = some (freed, o')) :
    o'.owned d = if d = c then (o.owned d).diff freed else o.owned d := by
  obtain ⟨-, rfl, rfl⟩ := unregister?_some h
  split
  · rename_i same
    subst same
    rw [OrderedSet.diff_of_subset fun r member => mem_holdings.mpr (.inl member), owned,
      Table.get?_erase_self]
    rfl
  · rename_i other
    exact owned_congr (Table.get?_erase_of_ne other)

theorem owned_release {resources : ResourceSet} (h : o.release p c resources = .ok (freed, o')) :
    o'.owned d = if d = c then (o.owned d).diff freed else o.owned d := by
  obtain ⟨held, present, -, rfl⟩ := release_ok h
  split
  · rename_i same
    subst same
    rw [owned, owned, Table.get?_insert_self, present]
    rfl
  · rename_i other
    exact owned_congr (Table.get?_insert_of_ne other)

theorem owned_commit {request : ResourceSet} (h : o.commit c = (some (.allocated request), o')) :
    ∃ reservation, o.reservations.get? c = some reservation ∧ reservation.request = request ∧
      ∀ d, o'.owned d =
        if d = c then (o.owned d).union reservation.expanded else o.owned d := by
  obtain ⟨reservation, present, -, asked, rfl⟩ := commit_allocated h
  refine ⟨reservation, present, asked, fun d => ?_⟩
  split
  · rename_i same
    subst same
    rw [owned, Table.get?_insert_self]
    rfl
  · rename_i other
    exact owned_congr (Table.get?_insert_of_ne other)

theorem filter_getD (set? : Option ResourceSet) :
    (some (set?.getD ∅)).filter (fun set => !set.isEmpty) = set?.filter fun set => !set.isEmpty := by
  cases set? <;> rfl

theorem filter_eq_allocations {sets : Table ClientId ResourceSet}
    (same : ∀ c, (sets.get? c).getD ∅ = o.owned c) :
    sets.filter (fun _ set => !set.isEmpty) = o.allocations := by
  apply Table.ext
  intro c
  rw [allocations, Table.get?_filter, Table.get?_filter, ← filter_getD, same, owned, filter_getD]

end Occupancy

namespace Scheduler

def events (s : Scheduler) : List Event := s.journal.filterMap Signal.event?

def Silent (s t : Scheduler) : Prop := Utters (fun signal => signal.books = false) s t

inductive Books (s t : Scheduler) : Prop
  | nothing (silent : Silent s t) (owned : ∀ c, t.occupancy.owned c = s.occupancy.owned c)
  | given {client : ClientId} {reservation : Reservation}
      (reserved : s.occupancy.reservations.get? client = some reservation)
      (told : Silent (s.tell (.allocated client reservation.request)) t)
      (owned : ∀ c, t.occupancy.owned c =
        if c = client then (s.occupancy.owned c).union reservation.expanded
        else s.occupancy.owned c)
  | taken {client : ClientId} {freed : ResourceSet}
      (told : Silent (s.tell (.released client freed)) t)
      (owned : ∀ c, t.occupancy.owned c =
        if c = client then (s.occupancy.owned c).diff freed else s.occupancy.owned c)

variable {s t : Scheduler} {a : Action} {p : Plant}

theorem silent_question (call : Call) (_ : call.isQuestion = true) :
    (Signal.called call).books = false := rfl

theorem silent_await {phase : Phase} : Silent s (s.await phase) :=
  utters_await fun _ _ => rfl

theorem silent_deliver {notices : List Notice}
    (none : ∀ client request, Notice.allocated client request ∉ notices) :
    Silent s (s.deliver notices) := by
  apply utters_deliver
  intro n member signal uttered
  cases uttered with
  | allocated client request => exact absurd member (none client request)
  | _ => rfl

theorem owned_work {o : Occupancy} {agenda : Agenda} (turn : Turn s .work o agenda) (c : ClientId) :
    o.owned c = s.occupancy.owned c := by
  cases turn <;> rfl

theorem retry_gives_none (client c : ClientId) (r : ResourceSet) :
    Notice.allocated c r ∉ (s.retry client).1 := by
  unfold retry
  split
  · exact List.not_mem_nil
  · exact (attempt_notices _ _).2 c r

theorem consider_gives_none (client : ClientId) (request : ResourceSet) (c : ClientId)
    (r : ResourceSet) : Notice.allocated c r ∉ (s.consider client request).1 := by
  unfold consider
  split
  · split <;> simp
  · intro member
    rcases List.mem_append.mp member with superseded | attempted
    · obtain ⟨other, -, failed⟩ := List.mem_map.mp superseded
      cases failed
    · exact (attempt_notices _ _).2 c r attempted

theorem silent_process (first : Command) : Silent s (s.process first) := by
  unfold process
  split
  · obtain ⟨agenda, woken⟩ := retryDeferred_push s
    rw [woken]
    exact utters_of_journal rfl
  · exact (utters_of_journal retry_journal).trans (silent_deliver (retry_gives_none _))
  · exact utters_check silent_question _ _
  · exact (utters_of_journal (consider_journal _)).trans (silent_deliver (consider_gives_none _ _))

theorem books_work : Books s (s.next .work) := by
  refine .nothing ?_ (owned_work (s.turn .work))
  simp only [next, processNext?]
  split
  · exact utters_of_journal rfl
  · split
    · exact utters_of_journal rfl
    · rename_i first rest _
      have silent := silent_process (s := { s with agenda := rest }) first
      exact silent

theorem books_settle (heads : s.occupancy.ReservesHeads) (check : Check) :
    Books s (s.settle check) := by
  have idle : ∀ phase, Books s (s.await phase) :=
    fun phase => .nothing silent_await fun c => by rw [(await_agrees s phase).1]
  unfold settle
  split
  · exact idle .idle
  · split
    · rename_i o unreserved
      obtain rfl := Occupancy.commit_none unreserved
      exact idle .idle
    · rename_i request o commit
      obtain ⟨reservation, reserved, rfl, owned⟩ := Occupancy.owned_commit commit
      refine .given reserved ?_ fun c => ?_
      · simp only [deliver]
        split
        · exact silent_await (s := { s with occupancy := o }.tell _)
        · exact silent_await (s := { s with occupancy := o }.tell _)
      · rw [(deliver_agrees _ _).1]
        exact owned c
    · rename_i stale
      exact absurd stale heads.commit_ne_stale

theorem books_resume (heads : s.occupancy.ReservesHeads) (residual : Residual s.phase.notices)
    (ready : Bool) : Books s (s.resume ready) := by
  have alone : ∀ t : Scheduler, t.Agrees s → Silent s t → Books s t :=
    fun t agrees silent => .nothing silent fun c => by rw [agrees.1]
  have left : ∀ notices, s.phase.notices = notices → Books s (s.deliver notices) := by
    intro notices same
    rw [same] at residual
    exact alone _ (deliver_agrees s notices) (silent_deliver residual.2)
  unfold resume
  split
  · exact alone s ⟨rfl, rfl, rfl⟩ (utters_of_journal rfl)
  · split
    · exact alone _ (inquire_agrees s _ _) (utters_inquire silent_question _ _)
    · exact alone _ (confirm_agrees s _ _) (utters_confirm silent_question _ _)
  · split
    · exact books_settle heads _
    · exact alone _ (await_agrees s _) silent_await
  · rename_i phase
    split
    · exact alone _ (await_agrees s _) silent_await
    · exact left _ (phase ▸ rfl)
  · rename_i phase
    exact left _ (phase ▸ rfl)
  · rename_i phase
    exact left _ (phase ▸ rfl)

theorem books_unregister (client : ClientId) : Books s (s.next (.unregister client)) := by
  simp only [next, unregister]
  split
  · exact .nothing (utters_of_journal rfl) fun _ => rfl
  · rename_i freed o left
    simp only [after]
    split
    · rename_i empty
      refine .nothing (utters_of_journal rfl) fun c => ?_
      rw [Occupancy.owned_unregister left, OrderedSet.diff_of_isEmpty empty, ite_self]
    · exact .taken (utters_of_journal rfl) fun c => Occupancy.owned_unregister left

theorem books_release (client : ClientId) (resources : ResourceSet) :
    Books s (s.next (.release client resources)) := by
  simp only [next, release]
  split
  · exact .nothing (utters_of_journal rfl) fun _ => rfl
  · split
    · exact .nothing (utters_of_journal rfl) fun _ => rfl
    · rename_i freed o given
      exact .taken (utters_of_journal rfl) fun c => Occupancy.owned_release given

theorem owned_quiet {o : Occupancy} {agenda : Agenda} (consistent : s.occupancy.Consistent)
    (turn : Turn s a o agenda) (quiet : a.quiet = true) (stays : ∀ client, a ≠ .unregister client)
    (keeps : ∀ client resources, a ≠ .release client resources) (c : ClientId) :
    o.owned c = s.occupancy.owned c := by
  cases turn with
  | unchanged | requested | rechecked | closed => rfl
  | registered h => exact consistent.owned_register h _
  | unregistered => exact absurd rfl (stays _)
  | released => exact absurd rfl (keeps _ _)
  | claimed _ _ h =>
    obtain ⟨rfl, -⟩ := Occupancy.cancelStale_none h
    rfl
  | reclaimed _ _ h =>
    obtain ⟨-, -, rfl⟩ := Occupancy.cancelStale_some h
    rfl
  | _ => cases quiet

theorem books_next (consistent : s.occupancy.Consistent) (heads : s.occupancy.ReservesHeads)
    (residual : Residual s.phase.notices) (a : Action) : Books s (s.next a) := by
  have other : a.quiet = true → (∀ client, a ≠ .unregister client) →
      (∀ client resources, a ≠ .release client resources) → Books s (s.next a) := by
    intro quiet stays keeps
    refine .nothing ((quiet_next quiet).2.mono fun signal told => ?_)
      (owned_quiet consistent (s.turn a) quiet stays keeps)
    cases told with
    | claimed => rfl
    | departed client => exact absurd rfl (stays client)
    | released client resources => exact absurd rfl (keeps client resources)
  cases a with
  | work => exact books_work
  | answer ready => exact books_resume heads residual ready
  | unregister client => exact books_unregister client
  | release client resources => exact books_release client resources
  | _ => exact other rfl (fun _ => nofun) (fun _ _ => nofun)

theorem replay_of_silent (silent : Silent s t) : p.replay t.events = p.replay s.events := by
  obtain ⟨said, journal, fine⟩ := silent
  have grown : t.events = s.events ++ said.filterMap Signal.event? := by
    rw [events, journal, List.filterMap_append]
    rfl
  rw [grown, Plant.replay_append]
  cases p.replay s.events with
  | error => rfl
  | ok sets => exact Plant.foldlM_enter fine sets

theorem replay_tell {event : Event} {sets : Table ClientId ResourceSet}
    (replays : p.replay s.events = .ok sets) :
    p.replay (s.tell event).events = p.enter sets event := by
  have grown : (s.tell event).events = s.events ++ [event] := by
    rw [events, tell, emit, List.filterMap_append]
    rfl
  rw [grown, Plant.replay_append, replays]
  show [event].foldlM p.enter sets = p.enter sets event
  simp only [List.foldlM_cons, List.foldlM_nil, bind_pure]

/-- The events so far add up to what clients own, and so they will when reservations are handed
    over: these are for what the plant makes of the requests. -/
structure Booked (p : Plant) (s : Scheduler) : Prop where
  alike : p.Alike s.plant.current
  expanded : ∀ client reservation, s.occupancy.reservations.get? client = some reservation →
    p.expand reservation.request = .ok reservation.expanded
  replays : ∃ sets, p.replay s.events = .ok sets ∧
    ∀ c, (sets.get? c).getD ∅ = s.occupancy.owned c

theorem booked_ofPlant (plant : PlantVersions) (clock : Clock) :
    Booked plant.current (ofPlant plant clock) where
  alike := .refl _
  expanded client reservation present := by cases present
  replays := ⟨∅, rfl, fun _ => rfl⟩

theorem getD_insert {sets : Table ClientId ResourceSet} {client c : ClientId} {set : ResourceSet} :
    ((sets.insert client set).get? c).getD ∅ =
      if c = client then set else (sets.get? c).getD ∅ := by
  rw [Table.get?_insert]
  split <;> rfl

theorem Booked.replays_books (booked : Booked p s) (books : Books s t) :
    ∃ sets, p.replay t.events = .ok sets ∧ ∀ c, (sets.get? c).getD ∅ = t.occupancy.owned c := by
  obtain ⟨sets, replays, kept⟩ := booked.replays
  cases books with
  | nothing silent owned =>
    refine ⟨sets, (replay_of_silent silent).trans replays, fun c => ?_⟩
    rw [kept, owned]
  | @given client reservation reserved told owned =>
    -- the event names the request, and what was reserved for it is what the plant makes of it
    refine ⟨sets.insert client ((s.occupancy.owned client).union reservation.expanded), ?_, ?_⟩
    · rw [replay_of_silent told, replay_tell replays, Plant.enter,
        booked.expanded client reservation reserved, kept]
      rfl
    · intro c
      rw [owned, getD_insert, kept]
      split
      · rename_i same
        rw [same]
      · rfl
  | @taken client freed told owned =>
    refine ⟨sets.insert client ((s.occupancy.owned client).diff freed), ?_, ?_⟩
    · rw [replay_of_silent told, replay_tell replays, Plant.enter, kept]
      rfl
    · intro c
      rw [owned, getD_insert, kept]
      split
      · rename_i same
        rw [same]
      · rfl

theorem Booked.expanded_turn (booked : Booked p s) {o : Occupancy} {agenda : Agenda}
    (turn : Turn s a o agenda) (client : ClientId) (reservation : Reservation)
    (present : o.reservations.get? client = some reservation) :
    p.expand reservation.request = .ok reservation.expanded := by
  have erased : ∀ c, (s.occupancy.reservations.erase c).get? client = some reservation →
      p.expand reservation.request = .ok reservation.expanded := by
    intro c present
    rw [Table.get?_erase] at present
    split at present
    · cases present
    · exact booked.expanded client reservation present
  cases turn with
  | unchanged | requested | rechecked | closed | woken | passed | denied | deferred =>
    exact booked.expanded client reservation present
  | registered h =>
    obtain ⟨-, rfl⟩ := Occupancy.register?_some h
    exact booked.expanded client reservation present
  | unregistered h =>
    obtain ⟨-, -, rfl⟩ := Occupancy.unregister?_some h
    exact erased _ present
  | claimed _ _ h =>
    obtain ⟨rfl, -⟩ := Occupancy.cancelStale_none h
    exact booked.expanded client reservation present
  | reclaimed _ _ h =>
    obtain ⟨-, -, rfl⟩ := Occupancy.cancelStale_some h
    exact erased _ present
  | released _ h =>
    obtain ⟨_, -, -, rfl⟩ := Occupancy.release_ok h
    exact booked.expanded client reservation present
  | reserved _ _ expansion =>
    rw [Occupancy.reserve, Table.get?_insert] at present
    split at present
    · cases present
      rwa [← booked.alike.expand]
    · exact booked.expanded client reservation present
  | committed _ h =>
    obtain ⟨_, -, -, -, rfl⟩ := Occupancy.commit_allocated h
    exact erased _ present
  | dropped _ h =>
    obtain ⟨-, -, rfl⟩ := Occupancy.cancelStale_some (Occupancy.commit_stale h)
    exact erased _ present

theorem booked_run (plant : PlantVersions) (clock : Clock) {actions : List Action}
    (lasting : ∀ plant, Action.replace plant ∉ actions) :
    Booked plant.current ((ofPlant plant clock).run actions) := by
  -- on the last action, so that what holds of every state that a run reaches holds before it
  induction actions using List.reverseRecOn with
  | nil => exact booked_ofPlant plant clock
  | append_singleton done a ih =>
    have booked := ih fun plant member => lasting plant (List.mem_append_left _ member)
    have last : ∀ plant, a ≠ .replace plant := by
      intro plant same
      exact lasting plant (List.mem_append_right _ (same ▸ List.mem_cons_self))
    have books := books_next (consistent_run plant clock done)
      (reservesHeads_run (reservesHeads_ofPlant plant clock) done)
      (residual_run (residual_ofPlant plant clock) done) a
    rw [run_snoc]
    exact ⟨booked.alike.trans (alike_next _ last), booked.expanded_turn (turn _ a),
      booked.replays_books books⟩

/-- As long as the plant is not replaced, the events that an observer was told of add up to the
    allocations: what every client was allocated, as the plant expands it, less what was released.
    It does not matter in which state the plant is looked at. -/
theorem replay_eq_allocations (plant : PlantVersions) (clock : Clock) {actions : List Action}
    (lasting : ∀ plant, Action.replace plant ∉ actions) {done : List Action}
    (start : done <+: actions) :
    (((ofPlant plant clock).run done).plant.current.replay
        ((ofPlant plant clock).run actions).events).map
        (fun sets => sets.filter fun _ set => !set.isEmpty) =
      .ok ((ofPlant plant clock).run actions).occupancy.allocations := by
  have earlier := booked_run plant clock fun plant member => lasting plant (start.subset member)
  obtain ⟨sets, replays, kept⟩ := (booked_run plant clock lasting).replays
  rw [earlier.alike.replay, replays]
  exact congrArg Except.ok (Occupancy.filter_eq_allocations kept)

theorem replay_eq_allocations_ring :
    let actions : List Action := [.register ⟨"v1"⟩ 0, .register ⟨"v2"⟩ 1,
      .claim ⟨"v1"⟩ [.ofList [.block ⟨2⟩], .ofList [.point ⟨0⟩]],
      .claim ⟨"v2"⟩ [.ofList [.point ⟨2⟩]], .allocate ⟨"v1"⟩ (.ofList [.block ⟨2⟩]),
      .work, .work, .answer true, .answer true, .allocate ⟨"v2"⟩ (.ofList [.point ⟨2⟩]),
      .work, .work, .answer true, .answer true, .allocate ⟨"v1"⟩ (.ofList [.point ⟨0⟩]), .work,
      .claim ⟨"v1"⟩ [.ofList [.point ⟨2⟩]], .release ⟨"v1"⟩ (.ofList [.path ⟨1⟩]),
      .unregister ⟨"v2"⟩]
    (ring.current.replay ((ofPlant ring).run actions).events).map
        (fun sets => sets.filter fun _ set => !set.isEmpty) =
      .ok (.ofList [(⟨"v1"⟩, .ofList [.point ⟨1⟩])]) := by
  intro actions
  have lasting : ∀ plant, Action.replace plant ∉ actions := by
    intro plant member
    simp [actions] at member
  have left : ((ofPlant ring).run actions).occupancy.allocations =
      .ofList [(⟨"v1"⟩, .ofList [.point ⟨1⟩])] := by
    cbv
  have replays := replay_eq_allocations ring .counting lasting List.nil_prefix
  exact replays.trans (congrArg Except.ok left)

end Scheduler

end TrafficControl
