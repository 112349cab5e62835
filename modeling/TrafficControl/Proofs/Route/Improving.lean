import TrafficControl.Proofs.Route.Tree

namespace TrafficControl

namespace Labels

variable {n : Network} {source p : PointId} {s t : Labels} {cost : Cost} {a : Arc} {place : Nat}

theorem length_improve : (s.improve cost a place).labels.length = s.labels.length :=
  List.length_modify ..

theorem label_improve : (s.improve cost a place).labels[p.index]? = s.labels[p.index]?.map fun l =>
    if a.target = p ∧ cost + a.cost < l.cost then
      { l with cost := cost + a.cost, via := some place }
    else l := by
  have index : a.target.index = p.index ↔ a.target = p :=
    ⟨fun h => congrArg Ident.mk h, congrArg Ident.index⟩
  simp only [improve, List.getElem?_modify, index]
  by_cases here : a.target = p <;> cases s.labels[p.index]? <;> simp [here]

theorem costTo_improve (inside : a.target.index < s.labels.length) :
    (s.improve cost a place).costTo p =
      if a.target = p ∧ cost + a.cost < s.costTo p then cost + a.cost else s.costTo p := by
  cases found : s.labels[p.index]? with
  | none =>
    have other : ¬ a.target = p := by
      intro same
      subst same
      rw [List.getElem?_eq_none_iff] at found
      omega
    simp [costTo, label_improve, found, other]
  | some l =>
    simp only [costTo, label_improve, found, Option.map_some]
    split <;> rfl

theorem via?_improve (inside : a.target.index < s.labels.length) :
    (s.improve cost a place).via? p =
      if a.target = p ∧ cost + a.cost < s.costTo p then some place else s.via? p := by
  cases found : s.labels[p.index]? with
  | none =>
    have other : ¬ a.target = p := by
      intro same
      subst same
      rw [List.getElem?_eq_none_iff] at found
      omega
    simp [via?, label_improve, found, other]
  | some l =>
    simp only [costTo, via?, label_improve, found, Option.map_some, Option.bind_some]
    split <;> rfl

theorem costTo_improve_le (inside : a.target.index < s.labels.length) :
    (s.improve cost a place).costTo p ≤ s.costTo p := by
  rw [costTo_improve inside]
  split
  · rename_i better
    exact Nat.le_of_lt better.2
  · exact Nat.le_refl _

/-- The point leads back to the source along so many arcs by which points were reached. -/
inductive Led (n : Network) (source : PointId) (s : Labels) : Nat → PointId → Prop
  | start : Led n source s 0 source
  | follow {k : Nat} {p : PointId} {place : Nat} {a : Arc} (via : s.via? p = some place)
      (arc : n.arcs[place]? = some a) (before : Led n source s k a.source) : Led n source s (k + 1) p

theorem Led.unique (root : s.via? source = none) {k m : Nat} (first : Led n source s k p)
    (second : Led n source s m p) : k = m := by
  induction first generalizing m with
  | start =>
    cases second with
    | start => rfl
    | follow via => rw [root] at via; cases via
  | follow via arc _ ih =>
    cases second with
    | start => rw [root] at via; cases via
    | follow via' arc' before' =>
      rw [via] at via'
      cases via'
      rw [arc] at arc'
      cases arc'
      rw [ih before']

/-- Every point that was reached leads back to the source, by arcs that cost no more together than
    its label says. -/
structure Growing (n : Network) (source : PointId) (s : Labels) : Prop where
  size : s.labels.length = n.pointCount
  start : s.costTo source = 0
  root : s.via? source = none
  back : ∀ p place, s.via? p = some place → ∃ a, n.arcs[place]? = some a ∧ a.target = p ∧
    (s.costTo a.source).amount + a.cost.amount ≤ (s.costTo p).amount
  led : ∀ p, s.reaches p = true → ∃ k, Led n source s k p

namespace Growing

theorem congr (growing : Growing n source s) (size : t.labels.length = s.labels.length)
    (cost : ∀ p, t.costTo p = s.costTo p) (via : ∀ p, t.via? p = s.via? p) :
    Growing n source t where
  size := size.trans growing.size
  start := (cost source).trans growing.start
  root := (via source).trans growing.root
  back p place h := by
    obtain ⟨a, arc, target, low⟩ := growing.back p place ((via p).symm.trans h)
    exact ⟨a, arc, target, by rwa [cost, cost]⟩
  led p reached := by
    rw [reaches, cost, ← reaches] at reached
    obtain ⟨k, led⟩ := growing.led p reached
    refine ⟨k, ?_⟩
    clear reached
    induction led with
    | start => exact .start
    | follow h arc _ ih => exact .follow ((via _).trans h) arc ih

theorem led_of_cheaper (growing : Growing n source s) (inside : a.target.index < s.labels.length)
    {k : Nat} (led : Led n source s k p) (cheaper : s.costTo p < s.costTo a.target) :
    Led n source (s.improve cost a place) k p := by
  induction led with
  | start => exact .start
  | @follow k p via' a' via arc _ ih =>
    obtain ⟨b, arc', -, low⟩ := growing.back p via' via
    rw [arc] at arc'
    cases arc'
    have other : ¬ (a.target = p ∧ cost + a.cost < s.costTo p) := by
      intro h
      obtain ⟨rfl, -⟩ := h
      exact Nat.lt_irrefl _ cheaper
    refine .follow ((via?_improve inside).trans ((if_neg other).trans via)) arc (ih ?_)
    simp only [Cost.lt_def] at cheaper ⊢
    omega

/-- Trying an arc from a point, at the cost that reaches it, keeps all points led: where the target
    gets cheaper, no way to the source of the arc comes from there. -/
theorem improve (growing : Growing n source s) (inside : a.target.index < s.labels.length)
    (arc : n.arcs[place]? = some a) (exact' : s.costTo a.source = cost) :
    Growing n source (s.improve cost a place) := by
  by_cases better : cost + a.cost < s.costTo a.target
  · have bound := (s.costTo a.target).amount_le
    have sum : (cost + a.cost).amount = cost.amount + a.cost.amount := by
      simp only [Cost.lt_def, Cost.amount_add, Cost.limit] at better ⊢
      omega
    have cheaper : s.costTo a.source < s.costTo a.target := by
      rw [exact', Cost.lt_def]
      rw [Cost.lt_def, sum] at better
      omega
    have apart : a.target ≠ source := by
      intro same
      rw [same, growing.start, Cost.lt_def, Cost.amount_zero] at better
      omega
    have other {q : PointId} (h : a.target ≠ q) :
        ¬ (a.target = q ∧ cost + a.cost < s.costTo q) := fun both => h both.1
    have last : ∃ k, Led n source (s.improve cost a place) k a.target := by
      have reached : s.reaches a.source = true := by
        rw [reaches_iff]
        simp only [Cost.lt_def, Cost.limit] at cheaper ⊢
        omega
      obtain ⟨k, led⟩ := growing.led a.source reached
      have via : (s.improve cost a place).via? a.target = some place :=
        (via?_improve inside).trans (if_pos ⟨rfl, better⟩)
      exact ⟨k + 1, .follow via arc (growing.led_of_cheaper inside led cheaper)⟩
    constructor
    · exact length_improve.trans growing.size
    · rw [costTo_improve inside, if_neg (other apart), growing.start]
    · rw [via?_improve inside, if_neg (other apart), growing.root]
    · intro p place' via
      rw [via?_improve inside] at via
      have falls : ∀ q, (s.improve cost a place).costTo q ≤ s.costTo q :=
        fun q => costTo_improve_le inside
      by_cases here : a.target = p
      · subst here
        rw [if_pos ⟨rfl, better⟩] at via
        cases via
        refine ⟨a, arc, rfl, ?_⟩
        have low := falls a.source
        rw [exact', Cost.le_def] at low
        rw [costTo_improve inside (p := a.target), if_pos ⟨rfl, better⟩, sum]
        omega
      · rw [if_neg (other here)] at via
        obtain ⟨b, arc', target, before⟩ := growing.back p place' via
        have low := falls b.source
        refine ⟨b, arc', target, ?_⟩
        rw [costTo_improve inside (p := p), if_neg (other here)]
        rw [Cost.le_def] at low
        omega
    · intro p reached
      by_cases here : a.target = p
      · exact here ▸ last
      · rw [reaches, costTo_improve inside, if_neg (other here), ← reaches] at reached
        obtain ⟨k, led⟩ := growing.led p reached
        clear reached here
        induction led with
        | start => exact ⟨0, .start⟩
        | @follow k p place' a' via arc' _ ih =>
          by_cases here : a.target = p
          · exact here ▸ last
          · obtain ⟨m, before⟩ := ih
            exact ⟨m + 1, .follow ((via?_improve inside).trans ((if_neg (other here)).trans via))
              arc' before⟩
  · have same {q : PointId} : ¬ (a.target = q ∧ cost + a.cost < s.costTo q) := by
      intro h
      obtain ⟨rfl, h⟩ := h
      exact better h
    refine growing.congr length_improve (fun p => ?_) fun p => ?_
    · rw [costTo_improve inside, if_neg same]
    · rw [via?_improve inside, if_neg same]

theorem rooted (growing : Growing n source s) : ∃ rank, s.Rooted n source rank := by
  classical
  have depth {k : Nat} {p : PointId} (led : Led n source s k p) :
      (if h : ∃ k, Led n source s k p then h.choose else 0) = k := by
    have some : ∃ k, Led n source s k p := ⟨k, led⟩
    rw [dif_pos some]
    exact some.choose_spec.unique growing.root led
  refine ⟨fun p => if h : ∃ k, Led n source s k p then h.choose else 0,
    growing.start, growing.root, ?_⟩
  intro p apart reached
  obtain ⟨k, led⟩ := growing.led p reached
  cases led with
  | start => exact absurd rfl apart
  | @follow k _ place a via arc before =>
    obtain ⟨b, arc', target, low⟩ := growing.back p place via
    rw [arc] at arc'
    cases arc'
    refine ⟨place, a, via, arc, target, ?_, low⟩
    rw [depth before, depth (.follow via arc before)]
    exact Nat.lt_succ_self k

end Growing

theorem label_initial : (initial n source).labels[p.index]? =
    if p.index < n.pointCount then some { cost := if p = source then 0 else .infinite } else none := by
  have index : source.index = p.index ↔ p = source :=
    ⟨fun h => congrArg Ident.mk h.symm, fun h => by rw [h]⟩
  simp only [initial, List.getElem?_modify, List.getElem?_replicate, index]
  by_cases here : p = source <;> by_cases known : p.index < n.pointCount <;> simp [here, known]

theorem costTo_initial (known : source.index < n.pointCount) :
    (initial n source).costTo p = if p = source then 0 else .infinite := by
  rw [costTo, label_initial]
  by_cases inside : p.index < n.pointCount
  · rw [if_pos inside]
  · have other : p ≠ source := by
      intro same
      subst same
      exact inside known
    rw [if_neg inside, if_neg other]

theorem via?_initial : (initial n source).via? p = none := by
  rw [via?, label_initial]
  split <;> rfl

theorem growing_initial (known : source.index < n.pointCount) :
    Growing n source (initial n source) where
  size := by simp [initial]
  start := by rw [costTo_initial known, if_pos rfl]
  root := via?_initial
  back p place via := by
    rw [via?_initial] at via
    cases via
  led p reached := by
    rw [reaches_iff, costTo_initial known] at reached
    split at reached
    · rename_i same
      exact ⟨0, same ▸ .start⟩
    · exact absurd reached (Nat.lt_irrefl _)

end Labels

end TrafficControl
