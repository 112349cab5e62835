import TrafficControl.Proofs.Route.Level

namespace TrafficControl

namespace Table

variable {κ α β : Type} [Ord κ] [Std.LawfulEqOrd κ]

theorem nodup_keys (t : Table κ α) : t.keys.Nodup := by
  rw [keys, List.Nodup, List.pairwise_map]
  refine t.ascending.imp fun less same => ?_
  simp [same] at less

variable [Std.TransOrd κ]

theorem size_congr {t : Table κ α} {u : Table κ β}
    (same : ∀ k, (t.get? k).isSome = (u.get? k).isSome) : t.size = u.size := by
  have keys : t.keys.Perm u.keys := by
    refine (List.perm_ext_iff_of_nodup t.nodup_keys u.nodup_keys).mpr fun k => ?_
    rw [mem_keys, mem_keys, ← Option.isSome_iff_exists, ← Option.isSome_iff_exists, same]
  simpa [Table.keys, size] using keys.length_eq

end Table

/-- The entries are of the same generation and find the same ways. -/
structure CachedNavigator.Same (kept kept' : CachedNavigator) : Prop where
  generation : kept'.generation = kept.generation
  navigator : kept.navigator.Same kept'.navigator

namespace Router

variable {r r' : Router} {v : Vehicle} {α : Type}

/-- The routers differ in nothing but how many networks they have built so far. -/
structure Twin (r r' : Router) : Prop where
  plant : r'.plant = r.plant
  settings : r'.settings = r.settings
  weighing : r'.weighing = r.weighing
  selected : r'.selected = r.selected
  navigators : ∀ group, Option.Rel CachedNavigator.Same (r.navigators.get? group)
    (r'.navigators.get? group)

structure AnswersLike (r r' : Router) : Prop where
  plant : r.plant = r'.plant
  settings : r.settings = r'.settings
  ways : ∀ v, (r.navigator v).1.Same (r'.navigator v).1
  route : ∀ v source d, (r.route v source d).1 = (r'.route v source d).1
  routes : ∀ v source ds, (r.routes v source ds).1 = (r'.routes v source ds).1
  cost : ∀ v source d, (r.cost v source d).1 = (r'.cost v source d).1
  legs : ∀ v source ds, (r.legs v source ds).1 = (r'.legs v source ds).1
  avoiding : ∀ v source d avoided,
    (r.routeAvoiding v source d avoided).1 = (r'.routeAvoiding v source d avoided).1
  rank : ∀ candidates d, (r.rank candidates d).1 = (r'.rank candidates d).1
  selected : ∀ id, r.selected.get? id = r'.selected.get? id
  kept : r.navigators.size = r'.navigators.size

namespace Twin

theorem groupOf (twin : r.Twin r') (v : Vehicle) : r'.groupOf v = r.groupOf v := by
  rw [Router.groupOf, twin.settings, Router.groupOf]

theorem build (twin : r.Twin r') (v : Vehicle) (excluded : List PointId) :
    (r.build v excluded).1.Same (r'.build v excluded).1 ∧
      (r.build v excluded).2.Twin (r'.build v excluded).2 := by
  have scope : r'.scope v excluded = r.scope v excluded := by
    rw [Router.scope, twin.groupOf, twin.weighing, Router.scope]
  refine ⟨⟨?_, ?_⟩, twin.plant, twin.settings, twin.weighing, twin.selected, twin.navigators⟩
  · simp only [Router.build, scope, twin.plant]
  · simp only [Router.build, twin.settings]

theorem keep (twin : r.Twin r') {group group' : String} {kept kept' : CachedNavigator}
    (named : group' = group) (same : kept.Same kept') :
    Twin { r with navigators := r.navigators.insert group kept }
      { r' with navigators := r'.navigators.insert group' kept' } where
  plant := twin.plant
  settings := twin.settings
  weighing := twin.weighing
  selected := twin.selected
  navigators other := by
    subst named
    rw [Table.get?_insert, Table.get?_insert]
    split
    · exact .some same
    · exact twin.navigators other

theorem navigator (twin : r.Twin r') (v : Vehicle) : (r.navigator v).1.Same (r'.navigator v).1 ∧
    (r.navigator v).2.Twin (r'.navigator v).2 := by
  obtain ⟨built, after⟩ := twin.build v []
  have fresh : CachedNavigator.Same ⟨r.plant.generation, (r.build v []).1⟩
      ⟨r'.plant.generation, (r'.build v []).1⟩ :=
    ⟨congrArg PlantVersions.generation twin.plant, built⟩
  have renewed := after.keep (twin.groupOf v) fresh
  have entries := twin.navigators (r.groupOf v)
  simp only [Router.navigator]
  rw [twin.groupOf v]
  cases found : r.navigators.get? (r.groupOf v) with
  | none =>
    cases found' : r'.navigators.get? (r.groupOf v) with
    | none => exact ⟨built, renewed⟩
    | some kept' => rw [found, found'] at entries; cases entries
  | some kept =>
    cases found' : r'.navigators.get? (r.groupOf v) with
    | none => rw [found, found'] at entries; cases entries
    | some kept' =>
      rw [found, found'] at entries
      cases entries with
      | some same =>
        have present : kept'.generation = r'.plant.generation ↔
            kept.generation = r.plant.generation := by rw [same.generation, twin.plant]
        simp only [present]
        split
        · exact ⟨same.navigator, twin⟩
        · exact ⟨built, renewed⟩

theorem ask {n n' : Navigator} (same : n.Same n') (points : List PointId)
    (question : Navigator → α) (answer : question n = question n') :
    Router.ask n points question = Router.ask n' points question := by
  simp only [Router.ask, same.network, answer]

theorem costsOf (twin : r.Twin r') (d : PointId) (candidates : List (Vehicle × PointId)) :
    (r.costsOf d candidates).1 = (r'.costsOf d candidates).1 ∧
      (r.costsOf d candidates).2.Twin (r'.costsOf d candidates).2 := by
  induction candidates generalizing r r' with
  | nil => exact ⟨rfl, twin⟩
  | cons candidate rest ih =>
    obtain ⟨v, source⟩ := candidate
    obtain ⟨same, after⟩ := twin.navigator v
    have answer : (r.cost v source d).1 = (r'.cost v source d).1 :=
      query_congr same _ (same.cost source d)
    have after : (r.cost v source d).2.Twin (r'.cost v source d).2 := after
    simp only [Router.costsOf]
    revert answer after
    rcases r.cost v source d with ⟨first, s⟩
    rcases r'.cost v source d with ⟨first', s'⟩
    rintro rfl after
    cases first with
    | error fault => exact ⟨rfl, after⟩
    | ok cost =>
      obtain ⟨costs, later⟩ := ih after
      exact ⟨by simp only [costs], later⟩

theorem answersLike (twin : r.Twin r') : r.AnswersLike r' where
  plant := twin.plant.symm
  settings := twin.settings.symm
  ways v := (twin.navigator v).1
  route v source d := query_congr (twin.navigator v).1 _ ((twin.navigator v).1.route source d)
  routes v source ds :=
    query_congr (twin.navigator v).1 _ ((twin.navigator v).1.routesFrom source ds)
  cost v source d := query_congr (twin.navigator v).1 _ ((twin.navigator v).1.cost source d)
  legs v source ds := query_congr (twin.navigator v).1 _ ((twin.navigator v).1.legs source ds)
  avoiding v source d avoided :=
    ask (twin.build v avoided).1 _ (·.route source d)
      ((twin.build v avoided).1.route source d)
  rank candidates d := by simp only [Router.rank, (twin.costsOf d candidates).1]
  selected id := by rw [twin.selected]
  kept := by
    refine Table.size_congr fun group => ?_
    have entries := twin.navigators group
    generalize r.navigators.get? group = entry, r'.navigators.get? group = entry' at entries
    cases entries <;> rfl

theorem next (twin : r.Twin r') (a : RouterAction) : (r.next a).Twin (r'.next a) := by
  cases a with
  | lock path locked =>
    simp only [Router.next, twin.plant]
    split
    · exact ⟨rfl, twin.settings, twin.weighing, twin.selected, twin.navigators⟩
    · exact twin
  | replace plant =>
    exact ⟨by simp only [Router.next, twin.plant], twin.settings, twin.weighing, twin.selected,
      twin.navigators⟩
  | invalidate =>
    exact ⟨twin.plant, twin.settings, twin.weighing, twin.selected, fun _ => .none⟩
  | route v | routes v | cost v | legs v => exact (twin.navigator v).2
  | avoiding v source d avoided => exact (twin.build v avoided).2
  | rank candidates d => exact (twin.costsOf d candidates).2
  | select id routes =>
    exact ⟨twin.plant, twin.settings, twin.weighing, congrArg (·.insert id routes) twin.selected,
      twin.navigators⟩
  | deselect id =>
    exact ⟨twin.plant, twin.settings, twin.weighing, congrArg (·.erase id) twin.selected,
      twin.navigators⟩

theorem run (twin : r.Twin r') (actions : List RouterAction) :
    (r.run actions).Twin (r'.run actions) := by
  induction actions generalizing r r' with
  | nil => exact twin
  | cons a rest ih => exact ih (twin.next a)

end Twin

theorem twin_build (r : Router) (v : Vehicle) (excluded : List PointId) :
    r.Twin (r.build v excluded).2 where
  plant := rfl
  settings := rfl
  weighing := rfl
  selected := rfl
  navigators group := by
    have kept : (r.build v excluded).2.navigators = r.navigators := rfl
    rw [kept]
    cases r.navigators.get? group with
    | none => exact .none
    | some entry => exact .some ⟨rfl, .refl _⟩

end Router

end TrafficControl
