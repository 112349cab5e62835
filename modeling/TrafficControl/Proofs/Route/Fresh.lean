import TrafficControl.Proofs.Route.Kept

namespace TrafficControl

def PlantVersions.Follows (v' v : PlantVersions) : Prop := v' = v ∨ v.generation < v'.generation

theorem PlantVersions.follows_setLocked {v v' : PlantVersions} {path : PathId} {locked : Bool}
    (h : v.setLocked path locked = .ok v') : v'.Follows v := by
  unfold setLocked at h
  split at h
  · cases h
    exact .inl rfl
  · split at h
    · cases h
    · cases h
      exact .inr (Nat.lt_succ_self _)

theorem PlantVersions.follows_replace (v : PlantVersions) (plant : Plant) :
    (v.replace plant).Follows v := .inr (Nat.lt_succ_self _)

namespace Router

variable {r r' r'' : Router} {v : Vehicle}

/-- The navigator is one for vehicles of the group on the plant as it is. -/
def Serves (r : Router) (group : String) (n : Navigator) : Prop :=
  n.method = r.settings.method ∧
    ∃ u, r.groupOf u = group ∧ n.network = .build (r.scope u []) r.plant.current

/-- No navigator is kept that a later plant could take for one of its own. -/
def Fresh (r : Router) : Prop :=
  ∀ group kept, r.navigators.get? group = some kept → kept.generation ≤ r.plant.generation ∧
    (kept.generation = r.plant.generation → r.Serves group kept.navigator)

theorem fresh_ofSettings (plant : PlantVersions) (settings : RouterSettings) :
    (ofSettings plant settings).Fresh := by
  intro group kept h
  cases h

theorem fresh_invalidate : r.invalidate.Fresh := by
  intro group kept h
  cases h

theorem Fresh.follow {plant : PlantVersions} (fresh : r.Fresh) (follows : plant.Follows r.plant) :
    Fresh { r with plant } := by
  rcases follows with rfl | later
  · exact fresh
  · intro group kept h
    have before := (fresh group kept h).1
    refine ⟨Nat.le_of_lt (Nat.lt_of_le_of_lt before later), fun same => ?_⟩
    have same : kept.generation = plant.generation := same
    omega

theorem serves_build : r.Serves (r.groupOf v) (r.build v []).1 := ⟨rfl, v, rfl, rfl⟩

inductive Evolves (r : Router) : Router → Prop
  | refl : Evolves r r
  | asked {r' : Router} (v : Vehicle) (before : Evolves r r') : Evolves r (r'.navigator v).2
  | selected {r' : Router} (v : VehicleId) (routes : List Route) (before : Evolves r r') :
      Evolves r (r'.select v routes)

theorem navigator_basis : (r.navigator v).2.plant = r.plant ∧
    (r.navigator v).2.settings = r.settings ∧ (r.navigator v).2.weighing = r.weighing := by
  simp only [navigator]
  split
  · split <;> exact ⟨rfl, rfl, rfl⟩
  · exact ⟨rfl, rfl, rfl⟩

namespace Evolves

theorem trans (first : r.Evolves r') (second : r'.Evolves r'') : r.Evolves r'' := by
  induction second with
  | refl => exact first
  | asked v _ ih => exact .asked v ih
  | selected v routes _ ih => exact .selected v routes ih

theorem basis (evolves : r.Evolves r') :
    r'.plant = r.plant ∧ r'.settings = r.settings ∧ r'.weighing = r.weighing := by
  induction evolves with
  | refl => exact ⟨rfl, rfl, rfl⟩
  | asked v _ ih =>
    obtain ⟨plant, settings, weighing⟩ := navigator_basis (v := v)
    exact ⟨plant.trans ih.1, settings.trans ih.2.1, weighing.trans ih.2.2⟩
  | selected _ _ _ ih => exact ih

end Evolves

namespace Fresh

theorem navigator (fresh : r.Fresh) (v : Vehicle) :
    r.Serves (r.groupOf v) (r.navigator v).1 ∧ (r.navigator v).2.Fresh := by
  let own : CachedNavigator := { generation := r.plant.generation, navigator := (r.build v []).1 }
  have renewed : Fresh { (r.build v []).2 with
      navigators := r.navigators.insert (r.groupOf v) own } := by
    intro group kept h
    rw [Table.get?_insert] at h
    split at h
    · rename_i same
      cases h
      subst same
      exact ⟨Nat.le_refl _, fun _ => (serves_build : r.Serves _ _)⟩
    · exact fresh group kept h
  simp only [Router.navigator]
  split
  · rename_i kept found
    split
    · rename_i same
      exact ⟨(fresh _ kept found).2 same, fresh⟩
    · exact ⟨serves_build, renewed⟩
  · exact ⟨serves_build, renewed⟩

theorem evolve (fresh : r.Fresh) (evolves : r.Evolves r') : r'.Fresh := by
  induction evolves with
  | refl => exact fresh
  | asked v _ ih => exact (ih.navigator v).2
  | selected _ _ _ ih => exact ih

end Fresh

theorem Serves.drives {group : String} {n : Navigator} (serves : r.Serves group n) :
    n.network.Sound ∧ n.network.pointCount = r.plant.current.pointCount ∧
      ∃ u, r.groupOf u = group ∧
        ∀ a, a ∈ n.network.arcs ↔ (r.scope u []).Drives r.plant.current a := by
  obtain ⟨-, u, group, network⟩ := serves
  rw [network]
  exact ⟨Network.sound_build, Network.pointCount_build, u, group, fun _ => Network.mem_arcs_build⟩

/-- To rank candidates is to ask a navigator for each of them, until one fails. -/
theorem costsOf_keeps {P : Router → Prop} {candidates : List (Vehicle × PointId)}
    (ask : ∀ r, ∀ candidate ∈ candidates, P r → P (r.navigator candidate.1).2) (d : PointId)
    (start : P r) : P (r.costsOf d candidates).2 := by
  induction candidates generalizing r with
  | nil => exact start
  | cons candidate rest ih =>
    obtain ⟨v, source⟩ := candidate
    have first : P (r.cost v source d).2 := ask r _ List.mem_cons_self start
    simp only [costsOf]
    split
    · rename_i answered
      rwa [answered] at first
    · rename_i answered
      rw [answered] at first
      exact ih (fun r other member => ask r other (List.mem_cons_of_mem _ member)) first

end Router

end TrafficControl
