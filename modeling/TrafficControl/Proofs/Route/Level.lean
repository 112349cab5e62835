import TrafficControl.Proofs.Route.Transparent

namespace TrafficControl

namespace Navigator

variable {n m l : Navigator}

theorem Same.refl (n : Navigator) : n.Same n := ⟨rfl, rfl⟩

theorem Same.symm (same : n.Same m) : m.Same n := ⟨same.network.symm, same.method.symm⟩

theorem Same.trans (first : n.Same m) (second : m.Same l) : n.Same l :=
  ⟨first.network.trans second.network, first.method.trans second.method⟩

end Navigator

namespace Router

variable {r r' : Router} {u v : Vehicle} {n : Navigator}

def AtHand (r : Router) (v : Vehicle) (n : Navigator) : Prop :=
  r.navigators.get? (r.groupOf v) = some { generation := r.plant.generation, navigator := n }

theorem AtHand.navigator (atHand : r.AtHand v n) : r.navigator v = (n, r) := by
  unfold AtHand at atHand
  simp only [Router.navigator, atHand, if_true]

theorem atHand_navigator : (r.navigator v).2.AtHand v (r.navigator v).1 := by
  simp only [Router.navigator]
  split
  · rename_i kept found
    split
    · rename_i present
      rw [AtHand, found, ← present]
    · exact Table.get?_insert_self
  · exact Table.get?_insert_self

/-- It does not matter for which of the vehicles a network is built: they are of different groups,
    or pay the same, be it that they drive at the same velocities or that nobody looks at these. -/
def Level (r : Router) (u v : Vehicle) : Prop :=
  r.groupOf u = r.groupOf v → ∀ path d, r.weighing path d u = r.weighing path d v

theorem Level.refl (r : Router) (v : Vehicle) : r.Level v v := fun _ _ _ => rfl

theorem Level.symm (level : r.Level u v) : r.Level v u :=
  fun group path d => (level group.symm path d).symm

theorem Level.evolve (level : r.Level u v) (evolves : r.Evolves r') : r'.Level u v := by
  obtain ⟨-, settings, weighing⟩ := evolves.basis
  unfold Level groupOf
  rwa [settings, weighing]

theorem level_of_uniform {fleet : List Vehicle}
    (weighs : r.weighing = .ofMeasures r.settings.measures) (uniform : r.settings.Uniform fleet)
    (hu : u ∈ fleet) (hv : v ∈ fleet) : r.Level u v := by
  intro group
  rw [weighs]
  exact uniform.pays hu hv group

theorem same_navigator (plant : r'.plant = r.plant) (settings : r'.settings = r.settings)
    (weighing : r'.weighing = r.weighing)
    (kept : r'.navigators.get? (r.groupOf v) = r.navigators.get? (r.groupOf v)) :
    (r.navigator v).1.Same (r'.navigator v).1 := by
  have group : r'.groupOf v = r.groupOf v := by rw [groupOf, settings, groupOf]
  have scope : r'.scope v [] = r.scope v [] := by rw [Router.scope, group, weighing, Router.scope]
  simp only [Router.navigator, group, kept, plant]
  split
  · split
    · exact .refl _
    · exact ⟨by simp only [build, scope, plant], by simp only [build, settings]⟩
  · exact ⟨by simp only [build, scope, plant], by simp only [build, settings]⟩

theorem same_select (r : Router) (id : VehicleId) (routes : List Route) (v : Vehicle) :
    (r.navigator v).1.Same ((r.select id routes).navigator v).1 :=
  same_navigator rfl rfl rfl rfl

theorem Level.same (level : r.Level u v) (group : r.groupOf u = r.groupOf v) :
    (r.navigator u).1.Same (r.navigator v).1 := by
  have built : (r.build u []).1.Same (r.build v []).1 :=
    ⟨Network.build_congr group rfl (level group), rfl⟩
  simp only [Router.navigator, group]
  split
  · split
    · exact .refl _
    · exact built
  · exact built

theorem Level.navigator (level : r.Level u v) :
    (r.navigator v).1.Same ((r.navigator u).2.navigator v).1 := by
  obtain ⟨plant, settings, weighing⟩ := r.navigator_basis (v := u)
  by_cases group : r.groupOf u = r.groupOf v
  · have atHand : (r.navigator u).2.AtHand u (r.navigator u).1 := atHand_navigator
    have groups : (r.navigator u).2.groupOf u = (r.navigator u).2.groupOf v := by
      rwa [groupOf, groupOf, settings]
    have atHand : (r.navigator u).2.AtHand v (r.navigator u).1 := by rwa [AtHand, ← groups]
    rw [atHand.navigator]
    exact (level.same group).symm
  · refine same_navigator plant settings weighing ?_
    have apart : r.groupOf v ≠ r.groupOf u := Ne.symm group
    simp only [Router.navigator]
    split
    · split
      · rfl
      · exact Table.get?_insert_of_ne apart
    · exact Table.get?_insert_of_ne apart

end Router

end TrafficControl
