import TrafficControl.Proofs.Allocation.Registry

namespace TrafficControl

namespace Answer

def count (request : ResourceSet) (answers : List Answer) : Nat :=
  answers.countP fun answer => answer.request = request

variable {request : ResourceSet} {answers more : List Answer}

theorem count_append :
    count request (answers ++ more) = count request answers + count request more :=
  List.countP_append

theorem count_singleton (request : ResourceSet) (answer : Answer) :
    count request [answer] = if answer.request = request then 1 else 0 := by
  by_cases same : answer.request = request <;> simp [count, same]

theorem count_denied (requests : Option ResourceSet) :
    count request (requests.toList.map .denied) = if requests = some request then 1 else 0 := by
  cases requests with
  | none => rfl
  | some other => by_cases same : other = request <;> simp [count, Answer.request, same]

end Answer

namespace Docket

def openFor (d : Docket) (request : ResourceSet) : Nat :=
  d.asked.count request + (if d.deferred = some request then 1 else 0) +
    if d.reserved = some request then 1 else 0

variable {d d' : Docket} {request other : ResourceSet} {filing : Filing} {answers : List Answer}

theorem Decided.openFor_le (h : Decided other d answers d') (request : ResourceSet)
    (unwaiting : d.deferred = none) :
    Answer.count request answers + d'.openFor request ≤
      d.openFor request + if other = request then 1 else 0 := by
  cases h with
  | denied => exact Answer.count_singleton request (.denied other) ▸ (Nat.add_comm ..).le
  | deferred | reserved =>
    simp only [Answer.count, List.countP_nil, openFor, unwaiting]
    grind

theorem count_asked {rest : Multiset ResourceSet} (request : ResourceSet)
    (asked : d.asked = other ::ₘ rest) :
    d.asked.count request = rest.count request + if other = request then 1 else 0 := by
  rw [asked, Multiset.count_cons]
  simp only [eq_comm]

theorem Step.openFor_le (h : Step d filing answers d') :
    Answer.count request answers + d'.openFor request ≤
      d.openFor request + if filing = .request request then 1 else 0 := by
  cases h with
  | rest | claim => exact Nat.le_add_right_of_le (Nat.zero_add _).le
  | reclaim reserved =>
    simp only [Answer.count, List.countP_nil, openFor, reserved]
    grind
  | ask =>
    simp only [Answer.count, List.countP_nil, openFor, Multiset.count_cons]
    grind
  | merge asked =>
    have taken := count_asked request asked
    simp only [Answer.count, List.countP_nil, openFor]
    grind
  | @refuse refused _ _ asked =>
    have taken := count_asked request asked
    have denied := Answer.count_singleton request (.denied refused)
    simp only [openFor, denied, Answer.request]
    grind
  | take asked _ _ decided =>
    have taken := count_asked request asked
    have used := decided.openFor_le request rfl
    simp only [openFor, Answer.count_append, Answer.count_denied] at used ⊢
    grind
  | retake asked _ waits decided =>
    have taken := count_asked request asked
    have used := decided.openFor_le request rfl
    simp only [openFor] at used ⊢
    grind
  | retry waits decided =>
    have used := decided.openFor_le request rfl
    simp only [openFor] at used ⊢
    grind
  | @grant request _ reserved =>
    have granted := Answer.count_singleton request (.granted request)
    simp only [openFor, Answer.count_singleton, Answer.request]
    grind

end Docket

def Phase.inquiry? : Phase → Option (ClientId × ResourceSet)
  | .asking check _ _ => some (check.client, check.reservation.request)
  | .confirming check _ _ => some (check.client, check.reservation.request)
  | _ => none

namespace Scheduler

variable {s t u : Scheduler} {c : ClientId}

theorem verdicts_deliver_sublist (notices : List Notice) : ((s.deliver notices).verdicts c).Sublist
    (s.answers c ++ notices.filterMap (Notice.answer? c)) := by
  induction notices generalizing s with
  | nil => exact verdicts_await ▸ .refl _
  | cons n rest ih =>
    have later : ∀ t : Scheduler, t.answers c = s.answers c →
        ((t.deliver rest).verdicts c).Sublist
          (s.answers c ++ ((n.answer? c).toList ++ rest.filterMap (Notice.answer? c))) :=
      fun t same => same ▸ (ih (s := t)).trans ((List.sublist_append_right _ _).append_left _)
    rw [answers_cons]
    cases n with
    | deferred client request => exact later (s.tell _) (answers_tell _)
    | prepare client request =>
      simp only [deliver]
      split
      · exact verdicts_await ▸ .refl _
      · exact later s rfl
    | allocated client request =>
      simp only [deliver]
      split
      · rw [verdicts_await, answers_tell]
        exact .refl _
      · exact later (s.tell _) (answers_tell _)
    | failed client request =>
      simp only [deliver]
      split
      · rw [verdicts_await, answers_tell]
        exact .refl _
      · exact later (s.tell _) (answers_tell _)

theorem verdicts_of_await_idle : (s.await .idle).verdicts c = s.answers c :=
  verdicts_await.trans (List.append_nil _)

theorem silent_retry (unwaiting : s.occupancy.deferred.get? c = none) (d : ClientId) :
    (s.retry d).1.filterMap (Notice.answer? c) = [] := by
  unfold retry
  split
  · rfl
  · rename_i waits
    have other : d ≠ c := by
      rintro rfl
      cases unwaiting.symm.trans waits
    exact ((attempted _ _ _).docket_of_ne other).1

theorem silent_consider (unknown : s.occupancy.registered c = false) (empty : s.docket c = {})
    (d : ClientId) (request : ResourceSet) :
    (s.consider d request).1.filterMap (Notice.answer? c) = [] := by
  obtain ⟨-, -, unwaiting, unreserved⟩ := docket_empty_iff.mp empty
  by_cases mine : d = c
  · subst mine
    have unasked : ({ s with occupancy := s.occupancy.withoutDeferred d } : Scheduler).attempt d
        request = ([], { s with occupancy := s.occupancy.withoutDeferred d }) := by
      have unknown : (s.occupancy.withoutDeferred d).registered d = false := unknown
      simp only [attempt, unknown, Bool.false_eq_true, not_false_eq_true, if_true]
    simp only [consider, unreserved, unwaiting, unasked]
    rfl
  · exact (docket_consider_of_ne mine request).1

theorem Orderly.unanswered_work (orderly : s.Orderly) (unknown : s.occupancy.registered c = false) :
    ((s.next .work).verdicts c).Sublist (s.verdicts c) := by
  have empty := orderly.strangers c unknown
  simp only [Scheduler.next, processNext?]
  split
  · exact .refl _
  · rename_i idle
    have idle : s.phase = .idle := not_not.mp idle
    split
    · exact .refl _
    · rename_i first rest pop
      have delivered : ∀ {t : Scheduler} {notices : List Notice}, t.journal = s.journal →
          notices.filterMap (Notice.answer? c) = [] →
            ((t.deliver notices).verdicts c).Sublist (s.verdicts c) := by
        intro t notices journal silent
        have sublist := verdicts_deliver_sublist (s := t) (c := c) notices
        rwa [silent, List.append_nil, answers, journal, ← answers, ← verdicts_of_idle idle]
          at sublist
      have unasked : ({ s with agenda := rest } : Scheduler).docket c = {} := by
        obtain ⟨claims, asked, deferred, reserved⟩ := docket_empty_iff.mp empty
        exact docket_empty_iff.mpr ⟨claims, requests_pop_zero pop asked, deferred, reserved⟩
      rw [Option.getD_some]
      unfold process
      split
      · obtain ⟨agenda, woken⟩ := retryDeferred_push { s with agenda := rest }
        rw [woken]
        exact .refl _
      · exact delivered retry_journal
          (silent_retry (s := { s with agenda := rest }) (docket_empty_iff.mp unasked).2.2.1 _)
      · rw [verdicts_check (s := { s with agenda := rest }) idle]
        exact verdicts_of_idle idle ▸ .refl _
      · exact delivered (consider_journal _)
          (silent_consider (s := { s with agenda := rest }) unknown unasked _ _)

theorem Orderly.unanswered_settle (orderly : s.Orderly) (unknown : s.occupancy.registered c = false)
    (check : Check) : ((s.settle check).verdicts c).Sublist (s.answers c) := by
  unfold settle
  split
  · exact verdicts_of_await_idle ▸ .refl _
  · split
    · exact verdicts_of_await_idle ▸ .refl _
    · rename_i request o h
      obtain ⟨_, -, head, -⟩ := Occupancy.commit_allocated h
      have other : check.client ≠ c := by
        intro mine
        rw [← mine, Occupancy.registered_of_claimHead head] at unknown
        cases unknown
      have sublist := verdicts_deliver_sublist (s := { s with occupancy := o }) (c := c)
        [.allocated check.client request]
      rwa [List.filterMap_cons, Notice.answer?, if_neg other, List.filterMap_nil, List.append_nil]
        at sublist
    · rename_i h
      exact absurd h orderly.heads.commit_ne_stale

theorem Orderly.unanswered_resume (orderly : s.Orderly) (unknown : s.occupancy.registered c = false)
    (ready : Bool) : ((s.resume ready).verdicts c).Sublist (s.verdicts c) := by
  have given : ∀ {l : List Answer}, l.Sublist (s.answers c) → l.Sublist (s.verdicts c) :=
    fun h => h.trans (List.sublist_append_left _ _)
  have delivered : ∀ notices, s.phase.notices = notices →
      ((s.deliver notices).verdicts c).Sublist (s.verdicts c) :=
    fun notices same => same ▸ verdicts_deliver_sublist s.phase.notices
  unfold resume
  split
  · exact .refl _
  · split
    · exact given (verdicts_inquire _ _ ▸ .refl _)
    · exact given (verdicts_confirm _ _ ▸ .refl _)
  · split
    · exact given (orderly.unanswered_settle unknown _)
    · exact given (verdicts_of_await_idle ▸ .refl _)
  · rename_i phase
    split
    · rw [verdicts_await, verdicts, owed, phase]
      exact .refl _
    · exact delivered _ (phase ▸ rfl)
  · rename_i phase
    exact delivered _ (phase ▸ rfl)
  · rename_i phase
    exact delivered _ (phase ▸ rfl)

theorem Orderly.unanswered (orderly : s.Orderly) (unknown : s.occupancy.registered c = false)
    (a : Action) : ((s.next a).verdicts c).Sublist (s.verdicts c) := by
  cases quiet : a.quiet with
  | true =>
    rw [verdicts_quiet quiet]
  | false =>
    cases a with
    | work => exact orderly.unanswered_work unknown
    | answer ready => exact orderly.unanswered_resume unknown ready
    | _ => cases quiet

theorem openFor_empty {request : ResourceSet} (empty : s.docket c = {}) :
    (s.docket c).openFor request = 0 := by
  rw [empty]
  rfl

theorem Orderly.uses_next (orderly : s.Orderly) (a : Action) :
    ∃ answers, ((s.next a).verdicts c).Sublist (s.verdicts c ++ answers) ∧ ∀ request,
      Answer.count request answers + ((s.next a).docket c).openFor request ≤
        (s.docket c).openFor request + if s.filing c a = .request request then 1 else 0 := by
  cases known : s.occupancy.registered c with
  | false =>
    refine ⟨[], (List.append_nil _).symm ▸ orderly.unanswered known a, fun request => ?_⟩
    rw [openFor_empty (orderly.stranger_next known a)]
    exact Nat.zero_le _
  | true =>
    by_cases leaves : a = .unregister c
    · subst leaves
      have same : (s.next (.unregister c)).verdicts c = s.verdicts c := verdicts_quiet rfl
      refine ⟨[], by rw [same, List.append_nil], fun request => ?_⟩
      simp only [Scheduler.next]
      cases h : s.unregister c with
      | error => exact Nat.le_add_right_of_le (Nat.zero_add _).le
      | ok t =>
        have none : (t.docket c).openFor request = 0 := openFor_empty (unregister_ok h).2.2.2
        rw [after, none]
        exact Nat.zero_le _
    · obtain ⟨answers, verdicts, step⟩ := orderly.deals known leaves
      exact ⟨answers, verdicts ▸ .refl _, fun request => step.openFor_le⟩

theorem Orderly.uses_run (orderly : s.Orderly) (actions : List Action) :
    ∃ answers, ((s.run actions).verdicts c).Sublist (s.verdicts c ++ answers) ∧ ∀ request,
      Answer.count request answers + ((s.run actions).docket c).openFor request ≤
        (s.docket c).openFor request + (s.filings c actions).count (.request request) := by
  induction actions generalizing s with
  | nil => exact ⟨[], (List.append_nil _).symm ▸ .refl _, fun _ => (Nat.zero_add _).le⟩
  | cons a rest ih =>
    obtain ⟨now, given, used⟩ := orderly.uses_next (c := c) a
    obtain ⟨later, given', used'⟩ := ih (orderly.next a)
    refine ⟨now ++ later, ?_, fun request => ?_⟩
    · rw [← List.append_assoc]
      exact given'.trans (given.append_right later)
    · have first := used request
      have second := used' request
      rw [run_cons, filings, List.count_cons, Answer.count_append]
      simp only [beq_iff_eq]
      omega

/-- Answers since a state, and requests that are open in the end, were open or had an answer decided
    on in that state, or were accepted since then, each another one. -/
theorem Orderly.count_answersSince_le (orderly : s.Orderly) (actions : List Action)
    (request : ResourceSet) :
    Answer.count request ((s.run actions).answersSince s c) +
        Answer.count request ((s.run actions).owed c) +
          ((s.run actions).docket c).openFor request ≤
      Answer.count request (s.owed c) + (s.docket c).openFor request +
        (s.filings c actions).count (.request request) := by
  obtain ⟨answers, given, used⟩ := orderly.uses_run (c := c) actions
  have total : Answer.count request ((s.run actions).verdicts c) ≤
      Answer.count request (s.verdicts c ++ answers) := given.countP_le
  have new := used request
  simp only [verdicts, answers_append (journal_run actions), Answer.count_append] at total
  omega

def Inquires (allowed : ClientId → ResourceSet → Prop) (s t : Scheduler) : Prop :=
  Utters (fun signal => ∀ handle client request,
      signal = .called (.clientReady handle client request) → allowed client request) s t ∧
    ∀ client request, t.phase.inquiry? = some (client, request) → allowed client request

variable {allowed : ClientId → ResourceSet → Prop} {check : Check}

theorem Inquires.after (h : Inquires allowed t u) (journal : t.journal = s.journal) :
    Inquires allowed s u := ⟨(utters_of_journal journal).trans h.1, h.2⟩

theorem inquires_await {phase : Phase}
    (call : ∀ handle client request, phase.call? = some (.clientReady handle client request) →
      allowed client request)
    (inquiry : ∀ client request, phase.inquiry? = some (client, request) →
      allowed client request) : Inquires allowed s (s.await phase) := by
  refine ⟨utters_await fun called waiting handle client request same => ?_, ?_⟩
  · cases same
    exact call handle client request waiting
  · rw [await_phase]
    exact inquiry

theorem inquires_idle : Inquires allowed s (s.await .idle) := by
  refine inquires_await ?_ ?_
  · rintro _ _ _ ⟨⟩
  · rintro _ _ ⟨⟩

theorem inquiry_deliver (notices : List Notice) : (s.deliver notices).phase.inquiry? = none := by
  induction notices generalizing s with
  | nil => simp [deliver, Phase.inquiry?]
  | cons n rest ih =>
    cases n <;> simp only [deliver]
    case deferred => exact ih
    all_goals
      split
      · rw [await_phase]
        rfl
      · exact ih

theorem inquires_deliver (notices : List Notice) : Inquires allowed s (s.deliver notices) := by
  refine ⟨utters_deliver ?_, ?_⟩
  · rintro n - signal uttered handle client request rfl
    cases uttered
  · rw [inquiry_deliver]
    rintro _ _ ⟨⟩

theorem inquires_confirm (fine : allowed check.client check.reservation.request) (ready : Bool) :
    Inquires allowed s (s.confirm check ready) := by
  unfold confirm
  split
  · refine inquires_await ?_ ?_
    · rintro _ _ _ ⟨⟩
      exact fine
    · rintro _ _ ⟨⟩
      exact fine
  · exact inquires_idle

theorem inquires_inquire (fine : allowed check.client check.reservation.request)
    (hooks : List HookId) : Inquires allowed s (s.inquire check hooks) := by
  cases hooks with
  | nil => exact inquires_confirm fine true
  | cons hook later =>
    refine inquires_await ?_ ?_
    · rintro _ _ _ ⟨⟩
    · rintro _ _ ⟨⟩
      exact fine

theorem inquires_settle (check : Check) : Inquires allowed s (s.settle check) := by
  unfold settle
  split
  · exact inquires_idle
  · split
    · rename_i o _
      exact (inquires_idle (s := { s with occupancy := o })).after rfl
    · rename_i o _
      exact (inquires_deliver (s := { s with occupancy := o }) _).after rfl
    · exact (inquires_deliver _).after rfl

theorem inquires_rest (phase : t.phase = s.phase) (journal : t.journal = s.journal)
    (fine : ∀ client request, s.phase.inquiry? = some (client, request) → allowed client request) :
    Inquires allowed s t :=
  ⟨utters_of_journal journal, fun client request asking => fine client request (phase ▸ asking)⟩

theorem inquires_process (first : Command)
    (fine : ∀ client request, s.phase.inquiry? = some (client, request) ∨
      (s.docket client).reserved = some request → allowed client request) :
    Inquires allowed s (s.process first) := by
  have asking (client : ClientId) (request : ResourceSet)
      (same : s.phase.inquiry? = some (client, request)) := fine client request (.inl same)
  unfold process
  split
  · obtain ⟨agenda, woken⟩ := retryDeferred_push s
    rw [woken]
    exact inquires_rest rfl rfl asking
  · exact (inquires_deliver _).after retry_journal
  · unfold Scheduler.check
    split
    · exact inquires_rest rfl rfl asking
    · rename_i reservation present
      split
      · have held : (s.docket first.client).reserved = some reservation.request :=
          congrArg (Option.map Reservation.request) present
        exact inquires_inquire (fine _ _ (.inr held)) _
      · exact inquires_rest rfl rfl asking
  · exact (inquires_deliver _).after (consider_journal _)

theorem inquires_resume (ready : Bool)
    (fine : ∀ client request, s.phase.inquiry? = some (client, request) → allowed client request) :
    Inquires allowed s (s.resume ready) := by
  unfold resume
  split
  · exact inquires_rest rfl rfl fine
  · rename_i phase
    have allowed := fine _ _ (congrArg Phase.inquiry? phase)
    split
    · exact inquires_inquire allowed _
    · exact inquires_confirm allowed _
  · split
    · exact inquires_settle _
    · exact inquires_idle
  · split
    · refine inquires_await ?_ ?_
      · rintro _ _ _ ⟨⟩
      · rintro _ _ ⟨⟩
    · exact inquires_deliver _
  · exact inquires_deliver _
  · exact inquires_deliver _

theorem inquires_next (s : Scheduler) (a : Action)
    (fine : ∀ client request, s.phase.inquiry? = some (client, request) ∨
      (s.docket client).reserved = some request → allowed client request) :
    Inquires allowed s (s.next a) := by
  have asking (client : ClientId) (request : ResourceSet)
      (same : s.phase.inquiry? = some (client, request)) := fine client request (.inl same)
  cases quiet : a.quiet with
  | true =>
    obtain ⟨phase, told⟩ := quiet_next (s := s) quiet
    refine ⟨told.mono ?_, fun client request same => asking client request (phase ▸ same)⟩
    rintro signal tells handle client request rfl
    cases tells
  | false =>
    cases a with
    | work =>
      simp only [next, processNext?]
      split
      · exact inquires_rest rfl rfl asking
      · split
        · exact inquires_rest rfl rfl asking
        · rename_i first rest _
          exact (inquires_process (s := { s with agenda := rest }) first fine).after rfl
    | answer ready => exact inquires_resume ready asking
    | _ => cases quiet

/-- Questions about a client since a state are about requests that were open or being asked about in
    that state, or were accepted since then. -/
theorem Orderly.inquires_run (orderly : s.Orderly) (actions : List Action)
    (fine : ResourceSet → Prop)
    (opened : ∀ request, 0 < (s.docket c).openFor request → fine request)
    (asking : ∀ request, s.phase.inquiry? = some (c, request) → fine request)
    (filed : ∀ request, .request request ∈ s.filings c actions → fine request) :
    Inquires (fun client request => client = c → fine request) s (s.run actions) := by
  induction actions generalizing s with
  | nil =>
    refine ⟨utters_of_journal rfl, ?_⟩
    rintro _ request same rfl
    exact asking request same
  | cons a rest ih =>
    have now : Inquires (fun client request => client = c → fine request) s (s.next a) := by
      refine inquires_next s a ?_
      rintro _ request (same | held) rfl
      · exact asking request same
      · refine opened request ?_
        rw [Docket.openFor, if_pos held]
        exact Nat.succ_pos _
    obtain ⟨_, -, used⟩ := orderly.uses_next (c := c) a
    have later := ih (orderly.next a) (fun request more => ?_)
      (fun request same => now.2 c request same rfl)
      fun request member => filed request (List.mem_cons_of_mem _ member)
    · exact ⟨now.1.trans later.1, later.2⟩
    · have bound := used request
      by_cases filing : s.filing c a = .request request
      · exact filed request (filing ▸ List.mem_cons_self)
      · rw [if_neg filing] at bound
        exact opened request (by omega)

end Scheduler

end TrafficControl
