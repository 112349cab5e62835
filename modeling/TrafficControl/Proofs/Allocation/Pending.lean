import TrafficControl.Allocation.Agenda

namespace TrafficControl

namespace Agenda

def Has (a : Agenda) (task : Task) (client : ClientId) : Prop :=
  ∃ c ∈ a.pending, c.task = task ∧ c.client = client

def pushAll (a : Agenda) (tasks : List (Task × ClientId)) : Agenda :=
  tasks.foldl (fun a (task, client) => a.push task client) a

variable {a : Agenda} {task : Task} {client : ClientId}

theorem mem_place {c d : Command} {l : List Command} : d ∈ place c l ↔ d = c ∨ d ∈ l := by
  induction l with
  | nil => simp [place]
  | cons e rest ih =>
    unfold place
    split
    · exact List.mem_cons
    · simp only [List.mem_cons, ih]
      exact or_left_comm

theorem has_push {task' : Task} {client' : ClientId} :
    (a.push task' client').Has task client ↔
      (task' = task ∧ client' = client) ∨ a.Has task client := by
  simp only [Has, push, pushAt, mem_place, or_and_right, exists_or, exists_eq_left]

theorem Has.push (h : a.Has task client) (task' : Task) (client' : ClientId) :
    (a.push task' client').Has task client := has_push.mpr (.inr h)

theorem has_push_self : (a.push task client).Has task client := has_push.mpr (.inl ⟨rfl, rfl⟩)

theorem has_pushAll {tasks : List (Task × ClientId)} :
    (a.pushAll tasks).Has task client ↔ (task, client) ∈ tasks ∨ a.Has task client := by
  induction tasks generalizing a with
  | nil => simp [pushAll]
  | cons t rest ih =>
    have step : (a.pushAll (t :: rest)) = (a.push t.1 t.2).pushAll rest := rfl
    rw [step, ih, has_push, List.mem_cons, Prod.ext_iff]
    grind

theorem has_pop {first : Command} {rest : Agenda} (h : a.pop? = some (first, rest)) :
    a.Has task client ↔ (first.task = task ∧ first.client = client) ∨ rest.Has task client := by
  simp only [pop?] at h
  split at h
  · cases h
  · rename_i pending
    cases h
    simp only [Has, pending, List.mem_cons, or_and_right, exists_or, exists_eq_left]

theorem pop?_eq_none : a.pop? = none ↔ a.pending = [] := by
  cases pending : a.pending with
  | nil => simp [pop?, pending]
  | cons => simp [pop?, pending]

theorem pop?_eq_some {first : Command} {rest : Agenda} : a.pop? = some (first, rest) ↔
    a.pending = first :: rest.pending ∧ rest = { a with pending := rest.pending } := by
  cases pending : a.pending with
  | nil => simp [pop?, pending]
  | cons c l =>
    simp only [pop?, pending, Option.some.injEq, Prod.mk.injEq, List.cons.injEq]
    constructor
    · intro h
      obtain ⟨rfl, rfl⟩ := h
      exact ⟨⟨rfl, rfl⟩, rfl⟩
    · intro h
      obtain ⟨⟨rfl, rfl⟩, same⟩ := h
      exact ⟨rfl, same.symm⟩

theorem mem_push {c : Command} (member : c ∈ a.pending) : c ∈ (a.push task client).pending :=
  mem_place.mpr (.inr member)

theorem mem_pushAll {c : Command} {tasks : List (Task × ClientId)} (member : c ∈ a.pending) :
    c ∈ (a.pushAll tasks).pending := by
  induction tasks generalizing a with
  | nil => exact member
  | cons t rest ih => exact ih (mem_push member)

theorem closed_pushAll {tasks : List (Task × ClientId)} : (a.pushAll tasks).closed = a.closed := by
  induction tasks generalizing a with
  | nil => rfl
  | cons t rest ih => exact ih

theorem not_has_of_isEmpty (h : a.isEmpty = true) : ¬ a.Has task client := by
  intro h
  obtain ⟨c, member, -⟩ := h
  rw [List.isEmpty_iff.mp h] at member
  cases member

end Agenda

end TrafficControl
