import TrafficControl.Proofs.Allocation.Run

namespace TrafficControl

def Action.quiet : Action → Bool
  | .work => false
  | .answer _ => false
  | _ => true

inductive Action.Tells : Action → Signal → Prop
  | claimed (client : ClientId) (claims : List ResourceSet) :
      Tells (.claim client claims) (.told (.claimed client claims))
  | departed (client : ClientId) (freed : ResourceSet) :
      Tells (.unregister client) (.told (.released client freed))
  | released (client : ClientId) (resources freed : ResourceSet) :
      Tells (.release client resources) (.told (.released client freed))

inductive Notice.Utters : Notice → Signal → Prop
  | allocated (client : ClientId) (request : ResourceSet) :
      Utters (.allocated client request) (.told (.allocated client request))
  | granted (handle : Handle) (client : ClientId) (request : ResourceSet) :
      Utters (.allocated client request) (.called (.granted handle client request))
  | failed (client : ClientId) (request : ResourceSet) :
      Utters (.failed client request) (.told (.failed client request))
  | denied (handle : Handle) (client : ClientId) (request : ResourceSet) :
      Utters (.failed client request) (.called (.denied handle client request))
  | deferred (client : ClientId) (request : ResourceSet) :
      Utters (.deferred client request) (.told (.deferred client request))
  | prepare (hook : HookId) (client : ClientId) (request : ResourceSet) :
      Utters (.prepare client request) (.called (.prepare hook client request))

def Call.isQuestion : Call → Bool
  | .hookReady .. => true
  | .clientReady .. => true
  | _ => false

namespace Scheduler

/-- The second scheduler has said what the first one has, and only signals of one kind since. -/
def Utters (ok : Signal → Prop) (s t : Scheduler) : Prop :=
  ∃ said, t.journal = s.journal ++ said ∧ ∀ signal ∈ said, ok signal

variable {ok ok' : Signal → Prop} {s t u : Scheduler} {phase : Phase}

theorem utters_of_journal (same : t.journal = s.journal) : Utters ok s t :=
  ⟨[], by rw [same, List.append_nil], fun _ none => absurd none List.not_mem_nil⟩

theorem Utters.trans (first : Utters ok s t) (second : Utters ok t u) : Utters ok s u := by
  obtain ⟨said, journal, fine⟩ := first
  obtain ⟨more, journal', fine'⟩ := second
  refine ⟨said ++ more, by rw [journal', journal, List.append_assoc], ?_⟩
  intro signal member
  rcases List.mem_append.mp member with member | member
  · exact fine signal member
  · exact fine' signal member

theorem Utters.mono (h : Utters ok s t) (weaker : ∀ signal, ok signal → ok' signal) :
    Utters ok' s t := by
  obtain ⟨said, journal, fine⟩ := h
  exact ⟨said, journal, fun signal member => weaker signal (fine signal member)⟩

@[simp] theorem await_phase : (s.await phase).phase = phase := by
  unfold await
  split <;> rfl

theorem await_journal :
    (s.await phase).journal = s.journal ++ (phase.call?.map .called).toList := by
  unfold await
  split <;> (rename_i h; simp [h, emit])

theorem utters_tell {event : Event} (fine : ok (.told event)) : Utters ok s (s.tell event) := by
  refine ⟨[.told event], rfl, ?_⟩
  intro signal member
  rw [List.mem_singleton.mp member]
  exact fine

theorem utters_await (fine : ∀ call, phase.call? = some call → ok (.called call)) :
    Utters ok s (s.await phase) := by
  refine ⟨_, await_journal, ?_⟩
  intro signal member
  obtain ⟨call, waiting, rfl⟩ := Option.map_eq_some_iff.mp (Option.mem_toList.mp member)
  exact fine call waiting

theorem utters_idle : Utters ok s (s.await .idle) := by
  apply utters_await
  intro call none
  cases none

theorem utters_deliver {notices : List Notice}
    (fine : ∀ n ∈ notices, ∀ signal, n.Utters signal → ok signal) :
    Utters ok s (s.deliver notices) := by
  induction notices generalizing s with
  | nil => exact utters_idle
  | cons n rest ih =>
    have first := fine n List.mem_cons_self
    have later : ∀ t : Scheduler, Utters ok t (t.deliver rest) :=
      fun t => ih fun m member => fine m (List.mem_cons_of_mem _ member)
    have called : ∀ (t : Scheduler) (call : Call) (phase : Phase), phase.call? = some call →
        n.Utters (.called call) → Utters ok t (t.await phase) := by
      intro t call phase waiting uttered
      apply utters_await
      intro other same
      rw [waiting] at same
      cases same
      exact first _ uttered
    cases n with
    | deferred client request => exact (utters_tell (first _ (.deferred ..))).trans (later _)
    | prepare client request =>
      simp only [deliver]
      split
      · exact called _ _ _ rfl (.prepare ..)
      · exact later _
    | allocated client request =>
      apply (utters_tell (first _ (.allocated ..))).trans
      simp only [deliver]
      split
      · exact called _ _ _ rfl (.granted ..)
      · exact later _
    | failed client request =>
      apply (utters_tell (first _ (.failed ..))).trans
      simp only [deliver]
      split
      · exact called _ _ _ rfl (.denied ..)
      · exact later _

theorem utters_confirm (questions : ∀ call, call.isQuestion = true → ok (.called call))
    (check : Check) (ready : Bool) : Utters ok s (s.confirm check ready) := by
  unfold confirm
  split
  · apply utters_await
    intro call waiting
    cases waiting
    exact questions _ rfl
  · exact utters_idle

theorem utters_inquire (questions : ∀ call, call.isQuestion = true → ok (.called call))
    (check : Check) (hooks : List HookId) : Utters ok s (s.inquire check hooks) := by
  cases hooks with
  | nil => exact utters_confirm questions check true
  | cons hook later =>
    apply utters_await
    intro call waiting
    cases waiting
    exact questions _ rfl

theorem utters_check (questions : ∀ call, call.isQuestion = true → ok (.called call))
    (client : ClientId) (request : ResourceSet) : Utters ok s (s.check client request) := by
  unfold Scheduler.check
  split
  · exact utters_of_journal rfl
  · split
    · exact utters_inquire questions _ _
    · exact utters_of_journal rfl

theorem foldl_push_eq {α : Type} (give : Scheduler → α → Scheduler)
    (gives : ∀ s x, ∃ agenda, give s x = { s with agenda }) (s : Scheduler) (l : List α) :
    ∃ agenda, l.foldl give s = { s with agenda } := by
  induction l generalizing s with
  | nil => exact ⟨s.agenda, rfl⟩
  | cons x rest ih =>
    obtain ⟨agenda, given⟩ := gives s x
    rw [List.foldl_cons, given]
    exact ih _

theorem preparationChanged_push (s : Scheduler) :
    ∃ agenda, s.preparationChanged = { s with agenda } :=
  foldl_push_eq _ (fun _ _ => ⟨_, rfl⟩) s _

theorem retryDeferred_push (s : Scheduler) : ∃ agenda, s.retryDeferred = { s with agenda } :=
  foldl_push_eq _ (fun _ _ => ⟨_, rfl⟩) s _

theorem quiet_next {a : Action} (quiet : a.quiet = true) :
    (s.next a).phase = s.phase ∧ Utters a.Tells s (s.next a) := by
  have silent : ∀ t : Scheduler, t.phase = s.phase → t.journal = s.journal →
      t.phase = s.phase ∧ Utters a.Tells s t :=
    fun t phase journal => ⟨phase, utters_of_journal journal⟩
  cases a with
  | work | answer => cases quiet
  | register client handle =>
    simp only [next, register]
    split <;> exact silent _ rfl rfl
  | unregister client =>
    simp only [next, unregister]
    split
    · exact silent _ rfl rfl
    · simp only [after]
      split
      · exact silent _ rfl rfl
      · exact ⟨rfl, utters_tell (.departed ..)⟩
  | claim client claims =>
    simp only [next, claim]
    split
    · exact silent _ rfl rfl
    · split
      · split
        · exact ⟨rfl, utters_tell (.claimed ..)⟩
        · exact ⟨rfl, utters_tell (.claimed ..)⟩
      · exact silent _ rfl rfl
  | allocate client request =>
    simp only [next, allocate]
    split
    · exact silent _ rfl rfl
    · split
      · exact silent _ rfl rfl
      · split <;> exact silent _ rfl rfl
  | release client resources =>
    simp only [next, release]
    split
    · exact silent _ rfl rfl
    · split
      · exact silent _ rfl rfl
      · exact ⟨rfl, utters_tell (.released ..)⟩
  | preparationChanged =>
    obtain ⟨agenda, changed⟩ := preparationChanged_push s
    rw [next, changed]
    exact silent _ rfl rfl
  | addHook | replace | shutdown => exact silent _ rfl rfl
  | lock path locked =>
    simp only [next, setLocked]
    split <;> exact silent _ rfl rfl
  | start =>
    simp only [next, start]
    split <;> exact silent _ rfl rfl

end Scheduler

end TrafficControl
