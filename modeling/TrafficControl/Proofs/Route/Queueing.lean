import Mathlib
import TrafficControl.Proofs.Route.Dijkstra

namespace TrafficControl

structure QueueEntry where
  cost : Cost
  point : PointId
deriving DecidableEq

namespace QueueEntry

/-- The cheaper entry comes first; of entries that cost the same, the one of the first point. -/
def Before (e f : QueueEntry) : Prop :=
  e.cost < f.cost ∨ e.cost = f.cost ∧ e.point.index < f.point.index

instance (e f : QueueEntry) : Decidable (e.Before f) := by
  unfold Before
  infer_instance

variable {e f : QueueEntry} {queue : List QueueEntry}

theorem Before.cost_le (before : e.Before f) : e.cost ≤ f.cost := by
  rcases before with less | ⟨same, -⟩
  · exact Nat.le_of_lt less
  · exact same ▸ Nat.le_refl _

theorem before_of_not_before (apart : e ≠ f) (h : ¬ e.Before f) : f.Before e := by
  obtain ⟨c, ⟨p⟩⟩ := e
  obtain ⟨d, ⟨q⟩⟩ := f
  simp only [Before, not_or, not_and, Cost.lt_def] at h ⊢
  rcases Nat.lt_trichotomy c.amount d.amount with less | same | greater
  · exact absurd less h.1
  · have same := Cost.ext same
    subst same
    have other : p ≠ q := fun equal => apart (by rw [equal])
    have last := h.2 rfl
    exact .inr ⟨rfl, by omega⟩
  · exact .inl greater

theorem Before.trans {g : QueueEntry} (first : e.Before f) (second : f.Before g) : e.Before g := by
  simp only [Before, Cost.lt_def] at first second ⊢
  rcases first with less | ⟨same, less⟩
  · rcases second with less' | ⟨same', -⟩
    · exact .inl (Nat.lt_trans less less')
    · exact .inl (same' ▸ less)
  · rw [same]
    rcases second with less' | ⟨same', less'⟩
    · exact .inl less'
    · exact .inr ⟨same', Nat.lt_trans less less'⟩

def enqueue (e : QueueEntry) : List QueueEntry → List QueueEntry
  | [] => [e]
  | f :: rest => if e.Before f then e :: f :: rest else f :: enqueue e rest

theorem mem_enqueue {g : QueueEntry} : g ∈ enqueue e queue ↔ g = e ∨ g ∈ queue := by
  induction queue with
  | nil => simp [enqueue]
  | cons f rest ih =>
    unfold enqueue
    split
    · exact List.mem_cons
    · rw [List.mem_cons, ih, List.mem_cons, or_left_comm]

theorem enqueue_sorted (sorted : queue.Pairwise Before) (new : e ∉ queue) :
    (enqueue e queue).Pairwise Before := by
  induction queue with
  | nil => exact List.pairwise_singleton _ _
  | cons f rest ih =>
    have ⟨ahead, later⟩ := List.pairwise_cons.mp sorted
    rw [List.mem_cons, not_or] at new
    unfold enqueue
    split
    · rename_i before
      refine List.pairwise_cons.mpr ⟨fun g member => ?_, sorted⟩
      rcases List.mem_cons.mp member with rfl | member
      · exact before
      · exact before.trans (ahead g member)
    · rename_i after
      refine List.pairwise_cons.mpr ⟨fun g member => ?_, ih later new.2⟩
      rcases mem_enqueue.mp member with rfl | member
      · exact before_of_not_before new.1 after
      · exact ahead g member

end QueueEntry

namespace Labels

open QueueEntry

def improveQueued (cost : Cost) (found : Labels × List QueueEntry) (e : Arc × Nat) :
    Labels × List QueueEntry :=
  let (s, queue) := found
  let (arc, place) := e
  if arc.target.index < s.labels.length ∧ cost + arc.cost < s.costTo arc.target then
    (s.improve cost arc place, enqueue { cost := cost + arc.cost, point := arc.target } queue)
  else (s, queue)

def total (s : Labels) : Nat := (s.labels.map (·.cost.amount)).sum

variable {n : Network} {source p x : PointId} {s t : Labels} {cost : Cost} {a : Arc} {place : Nat}
  {queue : List QueueEntry} {order : List PointId} {target : Option PointId}

theorem sum_modify_lt {α : Type} {f : α → Nat} {g : α → α} {l : List α} {i : Nat} {b : α}
    (found : l[i]? = some b) (less : f (g b) < f b) :
    ((l.modify i g).map f).sum < (l.map f).sum := by
  induction l generalizing i with
  | nil => cases found
  | cons c rest ih =>
    cases i with
    | zero =>
      cases found
      simp only [List.modify_zero_cons, List.map_cons, List.sum_cons]
      omega
    | succ i =>
      have later := ih found
      simp only [List.modify_succ_cons, List.map_cons, List.sum_cons]
      omega

theorem total_improve_lt (inside : a.target.index < s.labels.length)
    (better : cost + a.cost < s.costTo a.target) : (s.improve cost a place).total < s.total := by
  have found := List.getElem?_eq_getElem inside
  rw [costTo, found] at better
  refine sum_modify_lt found ?_
  rw [if_pos better]
  exact better

theorem total_improveQueued (cost : Cost) (found : Labels × List QueueEntry) (e : Arc × Nat) :
    (improveQueued cost found e).1.total < found.1.total ∨ improveQueued cost found e = found := by
  obtain ⟨s, queue⟩ := found
  obtain ⟨a, place⟩ := e
  simp only [improveQueued]
  split
  · rename_i better
    exact .inl (total_improve_lt better.1 better.2)
  · exact .inr rfl

theorem total_improveAllQueued (cost : Cost) (todo : List (Arc × Nat))
    (found : Labels × List QueueEntry) :
    (todo.foldl (improveQueued cost) found).1.total < found.1.total ∨
      todo.foldl (improveQueued cost) found = found := by
  induction todo generalizing found with
  | nil => exact .inr rfl
  | cons e rest ih =>
    rw [List.foldl_cons]
    rcases total_improveQueued cost found e with less | same
    · rcases ih (improveQueued cost found e) with less' | same'
      · exact .inl (Nat.lt_trans less' less)
      · rw [same']
        exact .inl less
    · rw [same]
      exact ih found

/-- Settles the points of a queue, the first entry first, until the target is the next one or the
    queue is empty. A point that has become cheaper since it was queued was queued again then, so the
    entry is passed over. -/
def drain (n : Network) (target : Option PointId) (s : Labels) (queue : List QueueEntry) : Labels :=
  match queue with
  | [] => s
  | ⟨cost, point⟩ :: rest =>
    if target = some point then s
    else if s.costTo point < cost then drain n target s rest
    else
      drain n target ((n.outArcs point).foldl (improveQueued cost) (s, rest)).1
        ((n.outArcs point).foldl (improveQueued cost) (s, rest)).2
termination_by (s.total, queue.length)
decreasing_by
  · exact Prod.Lex.right _ (Nat.lt_succ_self _)
  · rcases total_improveAllQueued cost (n.outArcs point) (s, rest) with less | same
    · exact Prod.Lex.left _ _ less
    · rw [same]
      exact Prod.Lex.right _ (Nat.lt_succ_self _)

/-- The labels `t` found with a queue say the same as the labels `s` in which the points of `order` are
    settled: every other point that was reached is queued at its cost, and entries of settled points
    are outdated. -/
structure Queued (order : List PointId) (s t : Labels) (queue : List QueueEntry) : Prop where
  size : t.labels.length = s.labels.length
  cost : ∀ p, t.costTo p = s.costTo p
  via : ∀ p, t.via? p = s.via? p
  sorted : queue.Pairwise Before
  waits : ∀ p, p ∉ order → s.reaches p = true → ⟨s.costTo p, p⟩ ∈ queue
  above : ∀ e ∈ queue, s.costTo e.point ≤ e.cost
  finite : ∀ e ∈ queue, e.cost ≠ .infinite
  outdated : ∀ e ∈ queue, e.point ∈ order → s.costTo e.point < e.cost

namespace Queued

theorem congr {s' : Labels} (queued : Queued order s t queue)
    (size : s'.labels.length = s.labels.length) (cost : ∀ p, s'.costTo p = s.costTo p)
    (via : ∀ p, s'.via? p = s.via? p) : Queued order s' t queue where
  size := queued.size.trans size.symm
  cost p := (queued.cost p).trans (cost p).symm
  via p := (queued.via p).trans (via p).symm
  sorted := queued.sorted
  waits p open' reached := by
    rw [reaches, cost, ← reaches] at reached
    rw [cost]
    exact queued.waits p open' reached
  above e member := by
    rw [cost]
    exact queued.above e member
  finite := queued.finite
  outdated e member settled := by
    rw [cost]
    exact queued.outdated e member settled

theorem improve (queued : Queued order s t queue) (inside : a.target.index < s.labels.length)
    (top : ∀ p ∈ order, s.costTo p ≤ cost) :
    Queued order (s.improve cost a place) (improveQueued cost (t, queue) (a, place)).1
      (improveQueued cost (t, queue) (a, place)).2 := by
  have inside' : a.target.index < t.labels.length := queued.size ▸ inside
  simp only [improveQueued, inside', true_and, queued.cost]
  split
  · rename_i better
    let reached := cost + a.cost
    have open' : a.target ∉ order := fun settled => not_better (top _ settled) ⟨rfl, better⟩
    have new : (⟨reached, a.target⟩ : QueueEntry) ∉ queue := by
      intro old
      have low := queued.above _ old
      exact Nat.not_le_of_lt better low
    have falls : ∀ p, (s.improve cost a place).costTo p ≤ s.costTo p :=
      fun p => costTo_improve_le inside
    have here : (s.improve cost a place).costTo a.target = reached := by
      rw [costTo_improve inside, if_pos ⟨rfl, better⟩]
    constructor
    · rw [length_improve, length_improve, queued.size]
    · intro p
      rw [costTo_improve inside, costTo_improve inside', queued.cost]
    · intro p
      rw [via?_improve inside, via?_improve inside', queued.cost, queued.via]
    · exact enqueue_sorted queued.sorted new
    · intro p waiting reached'
      rw [mem_enqueue]
      by_cases same : a.target = p
      · subst same
        exact .inl (by rw [here])
      · rw [reaches, costTo_improve inside, if_neg fun h => same h.1, ← reaches] at reached'
        rw [costTo_improve inside, if_neg fun h => same h.1]
        exact .inr (queued.waits p waiting reached')
    · intro e member
      rcases mem_enqueue.mp member with rfl | old
      · exact here ▸ Nat.le_refl _
      · exact Nat.le_trans (falls _) (queued.above e old)
    · intro e member
      rcases mem_enqueue.mp member with rfl | old
      · rw [Cost.ne_infinite_iff]
        exact Nat.lt_of_lt_of_le better (s.costTo a.target).amount_le
      · exact queued.finite e old
    · intro e member settled
      rcases mem_enqueue.mp member with rfl | old
      · exact absurd settled open'
      · exact Nat.lt_of_le_of_lt (falls _) (queued.outdated e old settled)
  · rename_i worse
    have same {p : PointId} : ¬ (a.target = p ∧ cost + a.cost < s.costTo p) := by
      intro h
      obtain ⟨rfl, better⟩ := h
      exact worse better
    refine queued.congr length_improve (fun p => ?_) fun p => ?_
    · rw [costTo_improve inside, if_neg same]
    · rw [via?_improve inside, if_neg same]

theorem improveAll (queued : Queued order s t queue) {todo : List (Arc × Nat)}
    (inside : ∀ e ∈ todo, e.1.target.index < s.labels.length)
    (top : ∀ p ∈ order, s.costTo p ≤ cost) :
    Queued order (todo.foldl (fun s (arc, place) => s.improve cost arc place) s)
      (todo.foldl (improveQueued cost) (t, queue)).1
      (todo.foldl (improveQueued cost) (t, queue)).2 := by
  induction todo generalizing s t queue with
  | nil => exact queued
  | cons e rest ih =>
    obtain ⟨a, place⟩ := e
    have first := inside (a, place) List.mem_cons_self
    refine ih (queued.improve first top) (fun e later => ?_) fun p settled => ?_
    · rw [length_improve]
      exact inside e (List.mem_cons_of_mem _ later)
    · rw [Settling.costTo_improve_of_mem first top settled]
      exact top p settled

theorem settle (queued : Queued order s t (⟨cost, x⟩ :: queue)) (sound : n.Sound)
    (inv : Settling n source order (Leaving n order) s) (next : s.nearest? = some (x, cost)) :
    Queued (order ++ [x]) (s.settle n x cost)
      ((n.outArcs x).foldl (improveQueued cost) (t, queue)).1
      ((n.outArcs x).foldl (improveQueued cost) (t, queue)).2 := by
  obtain ⟨inside, unsettled, exact', -, least⟩ := nearest?_some next
  have fresh : x ∉ order := by
    rw [← inv.flags, unsettled]
    exact Bool.false_ne_true
  have ⟨first, sorted⟩ := List.pairwise_cons.mp queued.sorted
  have popped : Queued (order ++ [x]) (s.mark x) t queue := by
    constructor
    · exact queued.size.trans (List.length_modify ..).symm
    · intro p
      rw [costTo_mark, queued.cost]
    · intro p
      rw [via?_mark, queued.via]
    · exact sorted
    · intro p waiting reached
      rw [List.mem_append, List.mem_singleton, not_or] at waiting
      rw [reaches, costTo_mark, ← reaches] at reached
      rw [costTo_mark]
      rcases List.mem_cons.mp (queued.waits p waiting.1 reached) with same | later
      · exact absurd (congrArg QueueEntry.point same) waiting.2
      · exact later
    · intro e later
      rw [costTo_mark]
      exact queued.above e (List.mem_cons_of_mem _ later)
    · intro e later
      exact queued.finite e (List.mem_cons_of_mem _ later)
    · intro e later settled
      rw [costTo_mark]
      rcases List.mem_append.mp settled with old | new
      · exact queued.outdated e (List.mem_cons_of_mem _ later) old
      · -- another entry of the point that is settled now must cost more
        have same := List.mem_singleton.mp new
        rcases first e later with less | ⟨equal, behind⟩
        · rw [same, exact']
          exact less
        · exact absurd behind (same ▸ Nat.lt_irrefl _)
  refine popped.improveAll (fun e leaving => ?_) fun p settled => ?_
  · have arc := List.mem_of_getElem? ((Network.mem_outArcs sound).mp leaving).1
    have size : (s.mark x).labels.length = n.pointCount :=
      (List.length_modify ..).trans inv.growing.size
    rw [size]
    exact sound.ends e.1 arc
  · rw [costTo_mark]
    rcases List.mem_append.mp settled with old | new
    · exact exact' ▸ inv.below p old x fresh
    · rw [List.mem_singleton.mp new, exact']
      exact Nat.le_refl _

end Queued

theorem nearestFrom_of_best {labels : List Label} {next : Nat} {best : PointId × Cost}
    (h : nearestFrom next (some best) labels = some (x, cost)) (low : best.2 ≤ cost) :
    best = (x, cost) := by
  induction labels generalizing next with
  | nil => exact Option.some.inj h
  | cons l rest ih =>
    simp only [nearestFrom] at h
    split at h
    · rename_i taken
      have nearer : l.cost < best.2 := by simp_all
      have least := (nearestFrom_some h).2.1 _ rfl
      exact absurd (Nat.lt_of_le_of_lt least nearer) (Nat.not_lt_of_le low)
    · exact ih h

theorem nearestFrom_first {labels : List Label} {next k : Nat} {best : Option (PointId × Cost)}
    {l : Label} (h : nearestFrom next best labels = some (x, cost)) (listed : labels[k]? = some l)
    (unsettled : l.settled = false) (finite : l.cost ≠ .infinite) (low : l.cost ≤ cost) :
    best = some (x, cost) ∨ x.index ≤ next + k := by
  induction labels generalizing next best k with
  | nil => cases listed
  | cons l' rest ih =>
    have least := (nearestFrom_some h).2.1
    simp only [nearestFrom] at h
    split at h
    · right
      cases k with
      | zero =>
        cases listed
        cases nearestFrom_of_best h low
        exact Nat.le_refl _
      | succ k =>
        rcases ih h listed with same | early
        · cases same
          exact Nat.le_add_right _ _
        · omega
    · rename_i passed
      cases k with
      | zero =>
        cases listed
        left
        cases best with
        | none => simp [unsettled, finite] at passed
        | some b =>
          have far : ¬ l.cost < b.2 := by simpa [unsettled, finite] using passed
          rw [nearestFrom_of_best h (Nat.le_trans (Nat.le_of_not_lt far) low)]
      | succ k =>
        rcases ih h listed with same | early
        · exact .inl same
        · exact .inr (by omega)

theorem nearest?_eq (inside : p.index < s.labels.length) (unsettled : s.isSettled p = false)
    (finite : s.costTo p ≠ .infinite)
    (first : ∀ q, q ≠ p → s.isSettled q = false → s.costTo q ≠ .infinite →
      QueueEntry.Before ⟨s.costTo p, p⟩ ⟨s.costTo q, q⟩) :
    s.nearest? = some (p, s.costTo p) := by
  have found := List.getElem?_eq_getElem inside
  cases h : s.nearest? with
  | none => exact absurd (nearest?_none h unsettled) finite
  | some next =>
    obtain ⟨x, cost⟩ := next
    obtain ⟨-, open', rfl, finite', least⟩ := nearest?_some h
    by_cases same : x = p
    · rw [same]
    · have low := least p unsettled
      have before := first x same open' finite'
      simp only [QueueEntry.Before] at before
      rcases before with less | ⟨equal, ahead⟩
      · exact absurd less (Nat.not_lt_of_le low)
      · rw [isSettled, found] at unsettled
        rw [costTo_of_label found] at finite equal
        have low : s.labels[p.index].cost ≤ s.costTo x := equal ▸ Nat.le_refl _
        rcases nearestFrom_first h found unsettled finite low with none | early
        · cases none
        · omega

theorem Queued.nearest? (queued : Queued order s t (⟨cost, x⟩ :: queue))
    (flags : ∀ p, s.isSettled p = true ↔ p ∈ order) (fresh : x ∉ order) :
    s.nearest? = some (x, cost) := by
  obtain ⟨first, -⟩ := List.pairwise_cons.mp queued.sorted
  have low := queued.above _ List.mem_cons_self
  have finite : s.costTo x ≠ .infinite := by
    have finite := queued.finite _ List.mem_cons_self
    rw [Cost.ne_infinite_iff] at finite ⊢
    exact Nat.lt_of_le_of_lt low finite
  have exact' : s.costTo x = cost := by
    rcases List.mem_cons.mp (queued.waits x fresh (decide_eq_true finite)) with same | later
    · exact congrArg QueueEntry.cost same
    · exact Cost.ext (Nat.le_antisymm low (first _ later).cost_le)
  have unsettled : ∀ q, s.isSettled q = false → q ∉ order := by
    intro q open' settled
    rw [(flags q).mpr settled] at open'
    cases open'
  have inside : x.index < s.labels.length := by
    apply Nat.lt_of_not_le
    intro outside
    rw [costTo, List.getElem?_eq_none outside] at finite
    exact finite rfl
  rw [← exact']
  refine nearest?_eq inside ?_ finite fun q other open' reached => ?_
  · rw [← Bool.not_eq_true, flags]
    exact fresh
  · rcases List.mem_cons.mp (queued.waits q (unsettled q open') (decide_eq_true reached)) with
      same | later
    · exact absurd (congrArg QueueEntry.point same) other
    · rw [exact']
      exact first _ later

theorem Queued.drain (queued : Queued order s t queue) (sound : n.Sound)
    (inv : Settling n source order (Leaving n order) s) (ahead : ∀ x ∈ order, target ≠ some x)
    {fuel : Nat} (enough : n.pointCount ≤ order.length + fuel) :
    (∀ p, (drain n target t queue).costTo p = (settleAll n target fuel s).costTo p) ∧
      ∀ p, (drain n target t queue).via? p = (settleAll n target fuel s).via? p := by
  induction t, queue using drain.induct n target generalizing order s fuel with
  | case1 t =>
    have none : s.nearest? = none := by
      cases h : s.nearest? with
      | none => rfl
      | some next =>
        obtain ⟨x, cost⟩ := next
        obtain ⟨-, unsettled, exact', finite, -⟩ := nearest?_some h
        have fresh : x ∉ order := by
          rw [← inv.flags, unsettled]
          exact Bool.false_ne_true
        cases queued.waits x fresh (decide_eq_true (exact' ▸ finite))
    have same : settleAll n target fuel s = s := by
      cases fuel with
      | zero => rfl
      | succ fuel => rw [settleAll, none]
    rw [same, Labels.drain]
    exact ⟨queued.cost, queued.via⟩
  | case2 t cost point rest found =>
    have next := queued.nearest? inv.flags fun settled => ahead point settled found
    have same : settleAll n target fuel s = s := by
      cases fuel with
      | zero => rfl
      | succ fuel => simp only [settleAll, next, found, if_true]
    rw [same, Labels.drain, if_pos found]
    exact ⟨queued.cost, queued.via⟩
  | case3 t cost point rest other outdated ih =>
    rw [Labels.drain, if_neg other, if_pos outdated]
    refine ih ?_ inv ahead enough
    have sorted := (List.pairwise_cons.mp queued.sorted).2
    refine ⟨queued.size, queued.cost, queued.via, sorted, fun p open' reached => ?_,
      fun e later => queued.above e (List.mem_cons_of_mem _ later),
      fun e later => queued.finite e (List.mem_cons_of_mem _ later),
      fun e later => queued.outdated e (List.mem_cons_of_mem _ later)⟩
    rcases List.mem_cons.mp (queued.waits p open' reached) with same | later
    · cases same
      rw [queued.cost] at outdated
      exact absurd outdated (Nat.lt_irrefl _)
    · exact later
  | case4 t cost point rest other current ih =>
    have fresh : point ∉ order := by
      intro settled
      have behind := queued.outdated _ List.mem_cons_self settled
      rw [queued.cost] at current
      exact current behind
    have next := queued.nearest? inv.flags fresh
    cases fuel with
    | zero =>
      have none := inv.costTo_of_full enough fresh
      obtain ⟨-, -, exact', finite, -⟩ := nearest?_some next
      exact absurd (exact'.symm.trans none) finite
    | succ fuel =>
      rw [Labels.drain, if_neg other, if_neg current]
      simp only [settleAll, next, other, if_false]
      refine ih (queued.settle sound inv next) (inv.settle sound next) (fun x settled => ?_) ?_
      · rcases List.mem_append.mp settled with old | new
        · exact ahead x old
        · exact List.mem_singleton.mp new ▸ other
      · rw [List.length_append, List.length_singleton]
        omega

end Labels

namespace Network

open Labels

variable {n : Network} {source : PointId}

def dijkstraQueued (n : Network) (source : PointId) (target : Option PointId) : Labels :=
  if n.contains source then drain n target (initial n source) [⟨0, source⟩] else initial n source

theorem queued_initial (known : source.index < n.pointCount) :
    Queued [] (initial n source) (initial n source) [⟨0, source⟩] where
  size := rfl
  cost p := rfl
  via p := rfl
  sorted := List.pairwise_singleton _ _
  waits p _ reached := by
    rw [reaches_iff, costTo_initial known] at reached
    rw [costTo_initial known]
    split at reached
    · rename_i same
      rw [if_pos same, same]
      exact List.mem_cons_self
    · exact absurd reached (Nat.lt_irrefl _)
  above e member := by
    rw [List.mem_singleton.mp member, costTo_initial known, if_pos rfl]
    exact Nat.le_refl _
  finite e member := by
    rw [List.mem_singleton.mp member, Cost.ne_infinite_iff]
    exact Nat.zero_lt_succ _
  outdated e _ none := absurd none List.not_mem_nil

theorem costTo_initial_of_unknown (unknown : ¬ source.index < n.pointCount) (p : PointId) :
    (initial n source).costTo p = .infinite := by
  rw [costTo, label_initial]
  by_cases inside : p.index < n.pointCount
  · have other : p ≠ source := fun same => unknown (same ▸ inside)
    rw [if_pos inside, if_neg other]
  · rw [if_neg inside]

theorem dijkstra_of_unknown (unknown : ¬ source.index < n.pointCount) (target : Option PointId) :
    n.dijkstra source target = initial n source := by
  have none : (initial n source).nearest? = none := by
    cases h : (initial n source).nearest? with
    | none => rfl
    | some next =>
      obtain ⟨-, -, exact', finite, -⟩ := nearest?_some h
      exact absurd (exact'.symm.trans (costTo_initial_of_unknown unknown next.1)) finite
  rw [dijkstra]
  cases n.pointCount with
  | zero => rfl
  | succ fuel => rw [settleAll, none]

/-- With a queue whose entries are passed over once they are outdated, the search finds what it finds
    by looking for the nearest point each time. -/
theorem dijkstraQueued_eq (sound : n.Sound) (source : PointId) (target : Option PointId) :
    (∀ p, (n.dijkstraQueued source target).costTo p = (n.dijkstra source target).costTo p) ∧
      ∀ p, (n.dijkstraQueued source target).via? p = (n.dijkstra source target).via? p := by
  unfold dijkstraQueued
  split
  · rename_i known
    have known : source.index < n.pointCount := of_decide_eq_true known
    exact (queued_initial known).drain sound (settling_initial known)
      (fun x none => absurd none List.not_mem_nil) (by simp)
  · rename_i unknown
    rw [dijkstra_of_unknown fun known => unknown (decide_eq_true known)]
    exact ⟨fun _ => rfl, fun _ => rfl⟩

end Network

end TrafficControl
