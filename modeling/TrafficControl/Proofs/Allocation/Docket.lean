import Mathlib.Data.Multiset.AddSub
import TrafficControl.Proofs.Allocation.Answers

namespace TrafficControl

/-- All that is open between a scheduler and one client. -/
@[ext] structure Docket where
  claims : List ResourceSet := []
  asked : Multiset ResourceSet := 0
  deferred : Option ResourceSet := none
  reserved : Option ResourceSet := none

inductive Filing where
  | nothing
  | claims (claims : List ResourceSet)
  | request (request : ResourceSet)
  | repeated (request : ResourceSet)
deriving DecidableEq

namespace Filing

def isRequest : Filing → Bool
  | request _ => true
  | _ => false

def isRepeated : Filing → Bool
  | repeated _ => true
  | _ => false

end Filing

namespace Docket

inductive Decided (request : ResourceSet) (d : Docket) : List Answer → Docket → Prop
  | denied : Decided request d [.denied request] d
  | deferred (head : d.claims.head? = some request) :
      Decided request d [] { d with deferred := some request }
  | reserved (head : d.claims.head? = some request) :
      Decided request d [] { d with deferred := none, reserved := some request }

inductive Step (d : Docket) : Filing → List Answer → Docket → Prop
  | rest : Step d .nothing [] d
  | claim {claims} (kept : ∀ request, d.reserved = some request → claims.head? = some request) :
      Step d (.claims claims) [] { d with claims }
  | reclaim {claims request} (reserved : d.reserved = some request)
      (other : claims.head? ≠ some request) :
      Step d (.claims claims) []
        { d with claims, deferred := some request, reserved := none }
  | ask {request} (head : d.claims.head? = some request) :
      Step d (.request request) [] { d with asked := request ::ₘ d.asked }
  | merge {request rest} (asked : d.asked = request ::ₘ rest)
      (reserved : d.reserved = some request) :
      Step d (.repeated request) [] { d with asked := rest }
  | refuse {request other rest} (asked : d.asked = request ::ₘ rest)
      (reserved : d.reserved = some other) (apart : other ≠ request) :
      Step d .nothing [.denied request] { d with asked := rest }
  | take {request rest answers d'} (asked : d.asked = request ::ₘ rest) (free : d.reserved = none)
      (apart : d.deferred ≠ some request)
      (decided : Decided request { d with asked := rest, deferred := none } answers d') :
      Step d .nothing (d.deferred.toList.map .denied ++ answers) d'
  | retake {request rest answers d'} (asked : d.asked = request ::ₘ rest)
      (free : d.reserved = none) (waits : d.deferred = some request)
      (decided : Decided request { d with asked := rest, deferred := none } answers d') :
      Step d (.repeated request) answers d'
  | retry {request answers d'} (waits : d.deferred = some request)
      (decided : Decided request { d with deferred := none } answers d') : Step d .nothing answers d'
  | grant {request rest} (reserved : d.reserved = some request)
      (claims : d.claims = request :: rest) :
      Step d .nothing [.granted request] { d with claims := rest, reserved := none }

variable {d d' : Docket} {request : ResourceSet} {filing : Filing} {answers : List Answer}

def Single (d : Docket) : Prop := ∀ request, d.deferred = some request → d.reserved = none

theorem Decided.single (h : Decided request d answers d') (free : d.reserved = none) :
    d'.Single := by
  intro other waits
  cases h with
  | denied | deferred => exact free
  | reserved => cases waits

theorem Step.single (h : Step d filing answers d') (single : d.Single) : d'.Single := by
  cases h with
  | rest | claim | ask | merge | refuse => exact single
  | reclaim | grant => exact fun _ _ => rfl
  | take _ free _ decided | retake _ free _ decided => exact decided.single free
  | retry waits decided => exact decided.single (single _ waits)

def Open (d : Docket) (request : ResourceSet) : Prop :=
  request ∈ d.asked ∨ d.deferred = some request ∨ d.reserved = some request

theorem Step.open_request (h : Step d (.request request) answers d') : d'.Open request := by
  cases h with
  | ask => exact .inl (Multiset.mem_cons_self _ _)

def Kept (request : ResourceSet) (answers : List Answer) (d : Docket) : Prop :=
  d.Open request ∨ ∃ answer ∈ answers, answer.request = request

theorem Kept.before {more : List Answer} (h : Kept request more d) :
    Kept request (answers ++ more) d := by
  refine h.imp_right fun h => ?_
  obtain ⟨answer, member, same⟩ := h
  exact ⟨answer, List.mem_append_right _ member, same⟩

theorem Decided.kept (h : Decided request d answers d') : Kept request answers d' := by
  cases h with
  | denied => exact .inr ⟨_, List.mem_singleton_self _, rfl⟩
  | deferred => exact .inl (.inr (.inl rfl))
  | reserved => exact .inl (.inr (.inr rfl))

theorem Decided.asked_eq (h : Decided request d answers d') : d'.asked = d.asked := by
  cases h <;> rfl

theorem kept_of_asked {other : ResourceSet} {rest : Multiset ResourceSet}
    (asked : d.asked = other ::ₘ rest) (still : d'.asked = rest)
    (taken : Kept other answers d') (h : request ∈ d.asked) : Kept request answers d' := by
  rw [asked, Multiset.mem_cons] at h
  rcases h with rfl | h
  · exact taken
  · exact .inl (.inl (still ▸ h))

theorem Step.kept (h : Step d filing answers d') (single : d.Single) (was : d.Open request) :
    Kept request answers d' := by
  cases h with
  | rest | claim => exact .inl was
  | ask => exact .inl (was.imp_left (Multiset.mem_cons_of_mem))
  | reclaim reserved =>
    rcases was with asked | waits | held
    · exact .inl (.inl asked)
    · rw [single _ waits] at reserved
      cases reserved
    · rw [reserved] at held
      exact .inl (.inr (.inl held))
  | merge asked reserved =>
    rcases was with was | was
    · exact kept_of_asked asked rfl (.inl (.inr (.inr reserved))) was
    · exact .inl (.inr was)
  | refuse asked =>
    rcases was with was | was
    · exact kept_of_asked asked rfl (.inr ⟨_, List.mem_singleton_self _, rfl⟩) was
    · exact .inl (.inr was)
  | take asked free _ decided =>
    rcases was with was | waits | held
    · exact kept_of_asked asked decided.asked_eq decided.kept.before was
    · rw [waits]
      exact .inr ⟨.denied request, by simp, rfl⟩
    · rw [free] at held
      cases held
  | retake asked free waits decided =>
    rcases was with was | waits' | held
    · exact kept_of_asked asked decided.asked_eq decided.kept was
    · cases waits.symm.trans waits'
      exact decided.kept
    · rw [free] at held
      cases held
  | retry waits decided =>
    rcases was with was | waits' | held
    · exact .inl (.inl (decided.asked_eq ▸ was))
    · cases waits.symm.trans waits'
      exact decided.kept
    · rw [single _ waits] at held
      cases held
  | grant reserved claims =>
    rcases was with was | waits | held
    · exact .inl (.inl was)
    · rw [single _ waits] at reserved
      cases reserved
    · cases reserved.symm.trans held
      exact .inr ⟨_, List.mem_singleton_self _, rfl⟩

def size (d : Docket) : Nat :=
  d.asked.card + d.deferred.toList.length + d.reserved.toList.length

theorem Decided.size_eq (h : Decided request d answers d') (free : d.reserved = none)
    (unwaiting : d.deferred = none) : answers.length + d'.size = d.size + 1 := by
  cases h with
  | denied => exact Nat.add_comm ..
  | deferred | reserved => simp [size, free, unwaiting]

/-- A step accounts for each request once: it is answered, it stays open, or it was one with another
    request. -/
theorem Step.size_eq (h : Step d filing answers d') (single : d.Single) :
    answers.length + d'.size + filing.isRepeated.toNat = d.size + filing.isRequest.toNat := by
  cases h with
  | rest | claim => exact Nat.add_right_cancel_iff.mpr (Nat.zero_add _)
  | reclaim reserved =>
    have unwaiting : d.deferred = none := by
      refine Option.eq_none_iff_forall_ne_some.mpr fun other waits => ?_
      rw [single other waits] at reserved
      cases reserved
    simp [size, Filing.isRepeated, Filing.isRequest, reserved, unwaiting]
  | ask =>
    simp only [size, Multiset.card_cons, List.length_nil, Filing.isRepeated, Filing.isRequest,
      Bool.toNat_true, Bool.toNat_false]
    omega
  | merge asked =>
    simp only [size, asked, Multiset.card_cons, List.length_nil, Filing.isRepeated,
      Filing.isRequest, Bool.toNat_true, Bool.toNat_false]
    omega
  | refuse asked =>
    simp only [size, asked, Multiset.card_cons, List.length_singleton, Filing.isRepeated,
      Filing.isRequest, Bool.toNat_false]
    omega
  | take asked free _ decided =>
    have whole := decided.size_eq free rfl
    simp only [size, asked, Multiset.card_cons, List.length_append, List.length_map,
      Option.toList_none, List.length_nil, Filing.isRepeated, Filing.isRequest,
      Bool.toNat_false] at whole ⊢
    omega
  | retake asked free waits decided =>
    have whole := decided.size_eq free rfl
    simp only [size, asked, waits, Multiset.card_cons, Option.toList_none, Option.toList_some,
      List.length_nil, List.length_singleton, Filing.isRepeated, Filing.isRequest,
      Bool.toNat_true, Bool.toNat_false] at whole ⊢
    omega
  | retry waits decided =>
    have whole := decided.size_eq (single _ waits) rfl
    simp only [size, waits, Option.toList_none, Option.toList_some, List.length_nil,
      List.length_singleton, Filing.isRepeated, Filing.isRequest, Bool.toNat_false] at whole ⊢
    omega
  | grant reserved claims =>
    simp only [size, reserved, Option.toList_none, Option.toList_some, List.length_nil,
      List.length_singleton, Filing.isRepeated, Filing.isRequest, Bool.toNat_false]
    omega

theorem Decided.claims_eq (h : Decided request d answers d') :
    answers.filterMap Answer.granted? = [] ∧ d'.claims = d.claims := by
  cases h <;> exact ⟨rfl, rfl⟩

theorem granted?_denied (requests : List ResourceSet) :
    (requests.map .denied).filterMap Answer.granted? = [] := by
  rw [List.filterMap_map, List.filterMap_eq_nil_iff]
  exact fun _ _ => rfl

theorem Step.claims_eq (h : Step d filing answers d') (fixed : ∀ claims, filing ≠ .claims claims) :
    answers.filterMap Answer.granted? ++ d'.claims = d.claims := by
  cases h with
  | rest | ask | merge | refuse => rfl
  | claim | reclaim => exact absurd rfl (fixed _)
  | take _ _ _ decided =>
    obtain ⟨none, same⟩ := decided.claims_eq
    rw [List.filterMap_append, none, List.append_nil, same, granted?_denied]
    rfl
  | retake _ _ _ decided | retry _ decided =>
    obtain ⟨none, same⟩ := decided.claims_eq
    rw [none, same]
    rfl
  | grant _ claims => exact claims.symm

inductive Steps : Docket → List Filing → List Answer → Docket → Prop
  | rest (d : Docket) : Steps d [] [] d
  | step {d d' d'' filing filings answers more} (first : Step d filing answers d')
      (later : Steps d' filings more d'') : Steps d (filing :: filings) (answers ++ more) d''

variable {filings : List Filing}

theorem Steps.single (h : Steps d filings answers d') (single : d.Single) : d'.Single := by
  induction h with
  | rest => exact single
  | step first _ ih => exact ih (first.single single)

theorem Steps.kept (h : Steps d filings answers d') (single : d.Single) (was : d.Open request) :
    Kept request answers d' := by
  induction h with
  | rest => exact .inl was
  | step first _ ih =>
    rcases first.kept single was with still | answered
    · exact (ih (first.single single) still).before
    · obtain ⟨answer, member, same⟩ := answered
      exact .inr ⟨answer, List.mem_append_left _ member, same⟩

theorem Steps.size_eq (h : Steps d filings answers d') (single : d.Single) :
    answers.length + d'.size + filings.countP Filing.isRepeated =
      d.size + filings.countP Filing.isRequest := by
  induction h with
  | rest => exact Nat.zero_add _
  | @step _ _ _ filing _ _ _ first _ ih =>
    have now := first.size_eq single
    have later := ih (first.single single)
    have repeated : (if filing.isRepeated = true then 1 else 0) = filing.isRepeated.toNat := by
      cases filing.isRepeated <;> rfl
    have requested : (if filing.isRequest = true then 1 else 0) = filing.isRequest.toNat := by
      cases filing.isRequest <;> rfl
    rw [List.length_append, List.countP_cons, List.countP_cons, repeated, requested]
    omega

theorem Steps.claims_eq (h : Steps d filings answers d')
    (fixed : ∀ claims, Filing.claims claims ∉ filings) :
    answers.filterMap Answer.granted? ++ d'.claims = d.claims := by
  induction h with
  | rest => rfl
  | step first _ ih =>
    have now := first.claims_eq fun claims same => fixed claims (same ▸ List.mem_cons_self)
    have later := ih fun claims member => fixed claims (List.mem_cons_of_mem _ member)
    rw [List.filterMap_append, List.append_assoc, later, now]

end Docket

end TrafficControl
