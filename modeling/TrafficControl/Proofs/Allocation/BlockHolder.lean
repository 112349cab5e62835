import Mathlib
import TrafficControl.Proofs.Allocation.Holding
import TrafficControl.Proofs.Allocation.Run

namespace TrafficControl

namespace Occupancy

/-- Of the points and paths of a block, all that are held have the same holder. -/
def OneHolder (o : Occupancy) (p : Plant) : Prop :=
  ∀ b r r', r.isBlock = false → r'.isBlock = false → p.Encloses b r → p.Encloses b r' →
    ∀ c c', o.holder? r = some c → o.holder? r' = some c' → c = c'

variable {o o' : Occupancy} {p q : Plant} {c : ClientId} {r : Resource}

theorem OneHolder.fewer (one : o.OneHolder p)
    (fewer : ∀ r c, o'.holder? r = some c → o.holder? r = some c) : o'.OneHolder p :=
  fun b r r' elementary elementary' inside inside' c c' held held' =>
    one b r r' elementary elementary' inside inside' c c' (fewer r c held) (fewer r' c' held')

theorem OneHolder.vacated (one : o.OneHolder p) {freed : ResourceSet}
    (holders : o'.holders = vacate o.holders freed) : o'.OneHolder p := by
  refine one.fewer fun r c held => ?_
  rw [holder?, holders, get?_vacate] at held
  split at held
  · cases held
  · exact held

theorem OneHolder.congr (one : o.OneHolder p) (alike : q.Alike p) : o.OneHolder q := by
  have within : ∀ b r, r.isBlock = false → q.Encloses b r → p.Encloses b r := by
    intro b r elementary inside
    rw [Plant.encloses_iff_includes elementary] at inside ⊢
    exact alike.includes inside
  exact fun b r r' elementary elementary' inside inside' =>
    one b r r' elementary elementary' (within b r elementary inside)
      (within b r' elementary' inside')

theorem holder?_of_available {expanded : ResourceSet}
    (free : o.availability p c expanded = .available) (taken : r ∈ expanded)
    (elementary : r.isBlock = false) {b : BlockId} (inside : p.Encloses b r) {m : Resource}
    (elementary' : m.isBlock = false) (inside' : p.Encloses b m) {d : ClientId}
    (held : o.holder? m = some d) : d = c := by
  have unobstructed := (availability_available free r taken).2
  have blocked := mt (obstacle?_isSome_iff (o := o) (p := p) (c := c) elementary).mpr
    (by simp [unobstructed])
  rw [not_or] at blocked
  apply Classical.byContradiction
  intro other
  apply blocked.2
  rw [Plant.encloses_iff_includes elementary] at inside
  rw [Plant.encloses_iff_includes elementary'] at inside'
  exact ⟨b, inside, m, elementary', inside', heldByOther_iff.mpr ⟨d, held, other⟩⟩

theorem OneHolder.reserve (one : o.OneHolder p) {request expanded : ResourceSet}
    (free : o.availability p c expanded = .available) :
    (o.reserve c { request, expanded }).OneHolder p := by
  -- the new holder against an old one, for either order of the two
  have old : ∀ b r r', r.isBlock = false → r'.isBlock = false → p.Encloses b r →
      p.Encloses b r' → r ∈ expanded → ∀ d, o.holder? r' = some d → d = c :=
    fun b r r' elementary elementary' inside inside' taken d held =>
      holder?_of_available free taken elementary inside elementary' inside' held
  intro b r r' elementary elementary' inside inside' d d' held held'
  rw [holder?_reserve] at held held'
  split at held
  · rename_i taken
    cases held
    split at held'
    · cases held'
      rfl
    · exact (old b r r' elementary elementary' inside inside' taken d' held').symm
  · split at held'
    · rename_i taken
      cases held'
      exact old b r' r elementary' elementary inside' inside taken d held
    · exact one b r r' elementary elementary' inside inside' d d' held held'

end Occupancy

namespace Scheduler

open Occupancy

variable {s : Scheduler} {a : Action}

theorem oneHolder_turn {o : Occupancy} {agenda : Agenda}
    (one : s.occupancy.OneHolder s.plant.current) (turn : Turn s a o agenda) :
    o.OneHolder s.plant.current := by
  cases turn with
  | unchanged | requested | rechecked | closed | woken | passed | denied | deferred => exact one
  | registered h =>
    obtain ⟨-, rfl⟩ := register?_some h
    exact one
  | unregistered h =>
    obtain ⟨-, -, rfl⟩ := unregister?_some h
    exact one.vacated rfl
  | claimed _ _ h =>
    obtain ⟨rfl, -⟩ := cancelStale_none h
    exact one
  | reclaimed _ _ h =>
    obtain ⟨-, -, rfl⟩ := cancelStale_some h
    exact one.vacated rfl
  | released _ h =>
    obtain ⟨held, -, -, rfl⟩ := release_ok h
    exact one.vacated rfl
  | @reserved first _ _ _ _ _ _ free =>
    exact OneHolder.reserve (o := s.occupancy.withoutDeferred first.client) one free
  | committed _ h =>
    obtain ⟨reservation, -, -, -, rfl⟩ := commit_allocated h
    exact one
  | dropped _ h =>
    obtain ⟨-, -, rfl⟩ := cancelStale_some (commit_stale h)
    exact one.vacated rfl

theorem oneHolder_next (one : s.occupancy.OneHolder s.plant.current)
    (lasting : ∀ plant, a ≠ .replace plant) :
    (s.next a).occupancy.OneHolder (s.next a).plant.current := by
  have before := oneHolder_turn one (s.turn a)
  exact before.congr (alike_next s lasting).symm

theorem oneHolder_ofPlant (plant : PlantVersions) (clock : Clock) :
    (ofPlant plant clock).occupancy.OneHolder (ofPlant plant clock).plant.current := by
  intro b r r' _ _ _ _ c c' held
  cases held

/-- On one plant, no two clients ever hold things in the same block, however blocks overlap, and
    whether or not they include each other or themselves. -/
theorem oneHolder_run (plant : PlantVersions) (clock : Clock) {actions : List Action}
    (lasting : ∀ plant, Action.replace plant ∉ actions) :
    ((ofPlant plant clock).run actions).occupancy.OneHolder
      ((ofPlant plant clock).run actions).plant.current := by
  have along : Along (fun _ a => ∀ plant, a ≠ .replace plant) (ofPlant plant clock) actions := by
    apply along_of_prefixes
    intro done a start plant same
    subst same
    exact lasting plant (start.subset (by simp))
  refine run_induction (P := fun s => s.occupancy.OneHolder s.plant.current) ?_
    (oneHolder_ofPlant plant clock) along
  exact fun s a one lasting => oneHolder_next one lasting

def ring : PlantVersions where
  current := {
    layout := {
      points := [{ name := "A", position := ⟨0, 0⟩ }, { name := "B", position := ⟨1000, 0⟩ },
        { name := "C", position := ⟨2000, 0⟩ }]
      paths := [{ name := "A-->B", source := ⟨0⟩, destination := ⟨1⟩, length := 1000 },
        { name := "B-->C", source := ⟨1⟩, destination := ⟨2⟩, length := 1000 }]
      blocks := [{ name := "west", members := .ofList [.point ⟨0⟩, .block ⟨1⟩] },
        { name := "east", members := .ofList [.point ⟨1⟩, .block ⟨0⟩] },
        { name := "exit", members := .ofList [.point ⟨1⟩, .path ⟨1⟩] }] }
    sound := by decide
    incidence := [[⟨0⟩], [⟨0⟩, ⟨1⟩], [⟨1⟩]]
    incidence_eq := by decide
    memberships := .ofList [(.point ⟨0⟩, [⟨0⟩]), (.point ⟨1⟩, [⟨1⟩, ⟨2⟩]), (.path ⟨1⟩, [⟨2⟩]),
      (.block ⟨0⟩, [⟨1⟩]), (.block ⟨1⟩, [⟨0⟩])]
    memberships_eq := by decide }

theorem oneHolder_ring :
    let actions : List Action := [.register ⟨"v1"⟩ 0, .register ⟨"v2"⟩ 1,
      .claim ⟨"v1"⟩ [.ofList [.point ⟨0⟩], .ofList [.point ⟨1⟩]],
      .claim ⟨"v2"⟩ [.ofList [.point ⟨1⟩]], .allocate ⟨"v1"⟩ (.ofList [.point ⟨0⟩]),
      .work, .work, .answer true, .answer true, .allocate ⟨"v2"⟩ (.ofList [.point ⟨1⟩]), .work,
      .allocate ⟨"v1"⟩ (.ofList [.point ⟨1⟩]), .work, .work, .answer true, .answer true]
    ∃ c, ((ofPlant ring).run actions).occupancy.holder? (.point ⟨0⟩) = some c ∧
      ((ofPlant ring).run actions).occupancy.holder? (.point ⟨1⟩) = some c := by
  intro actions
  have lasting : ∀ plant, Action.replace plant ∉ actions := by
    intro plant member
    simp [actions] at member
  have one := oneHolder_run ring .counting lasting
  obtain ⟨c, held⟩ : ∃ c, ((ofPlant ring).run actions).occupancy.holder? (.point ⟨0⟩) = some c :=
    Option.isSome_iff_exists.mp (by decide_cbv)
  obtain ⟨c', held'⟩ :
      ∃ c, ((ofPlant ring).run actions).occupancy.holder? (.point ⟨1⟩) = some c :=
    Option.isSome_iff_exists.mp (by decide_cbv)
  have west : ((ofPlant ring).run actions).plant.current.Encloses ⟨0⟩ (.point ⟨0⟩) :=
    (Plant.encloses_iff_includes rfl).mpr (Plant.mem_zone.mp (by decide_cbv)).2
  have east : ((ofPlant ring).run actions).plant.current.Encloses ⟨0⟩ (.point ⟨1⟩) :=
    (Plant.encloses_iff_includes rfl).mpr (Plant.mem_zone.mp (by decide_cbv)).2
  have same := one ⟨0⟩ _ _ rfl rfl west east c c' held held'
  exact ⟨c, held, same ▸ held'⟩

end Scheduler

end TrafficControl
