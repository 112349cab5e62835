import TrafficControl.Proofs.Route.Sweeping
import TrafficControl.Route.Router

namespace TrafficControl

namespace Router

def Sound (r : Router) : Prop :=
  ∀ group kept, r.navigators.get? group = some kept → kept.navigator.network.Sound

variable {r : Router} {v : Vehicle} {source d : PointId}

theorem sound_ofSettings (plant : PlantVersions) (settings : RouterSettings) :
    (ofSettings plant settings).Sound := by
  intro group kept h
  cases h

theorem Sound.navigator (sound : r.Sound) (v : Vehicle) :
    (r.navigator v).1.network.Sound ∧ (r.navigator v).2.Sound := by
  have fresh : ∀ group kept, (r.navigators.insert (r.groupOf v)
      { generation := r.plant.generation, navigator := (r.build v []).1 }).get? group = some kept →
        kept.navigator.network.Sound := by
    intro group kept h
    rw [Table.get?_insert] at h
    split at h
    · cases h
      exact Network.sound_build
    · exact sound group kept h
  simp only [Router.navigator]
  split
  · rename_i kept found
    split
    · exact ⟨sound _ kept found, sound⟩
    · exact ⟨Network.sound_build, fresh⟩
  · exact ⟨Network.sound_build, fresh⟩

theorem Sound.query (sound : r.Sound) {α : Type} (v : Vehicle) (points : List PointId)
    (question : Navigator → α) : (r.query v points question).2.Sound :=
  (sound.navigator v).2

theorem Sound.legs (sound : r.Sound) (v : Vehicle) (source : PointId)
    (destinations : List PointId) : (r.legs v source destinations).2.Sound :=
  sound.query v (source :: destinations) (·.legs source destinations)

theorem Sound.cost (sound : r.Sound) (v : Vehicle) (source destination : PointId) :
    (r.cost v source destination).2.Sound :=
  sound.query v [source, destination] (·.cost source destination)

theorem ask_ok {α : Type} {n : Navigator} {points : List PointId} {question : Navigator → α}
    {answer : α} (h : ask n points question = .ok answer) :
    (∀ p ∈ points, p.index < n.network.pointCount) ∧ question n = answer := by
  simp only [ask] at h
  split at h
  · cases h
  · rename_i all
    cases h
    refine ⟨fun p asked => ?_, rfl⟩
    have known := List.find?_eq_none.mp all p asked
    simpa [Network.contains] using known

theorem legs_cons {rest : List PointId} {routes : List Route}
    (h : (r.legs v source (d :: rest)).1 = .ok (some routes)) :
    ∃ route later, routes = route :: later ∧
      source.index < (r.navigator v).1.network.pointCount ∧
        (r.navigator v).1.route source d = some route := by
  have asked : ask (r.navigator v).1 (source :: d :: rest) (·.legs source (d :: rest)) =
      .ok (some routes) := h
  obtain ⟨known, answer⟩ := ask_ok asked
  simp only [Navigator.legs] at answer
  cases first : (r.navigator v).1.route source d with
  | none =>
    rw [first] at answer
    cases answer
  | some route =>
    rw [first] at answer
    cases later : (r.navigator v).1.legs d rest with
    | none =>
      rw [later] at answer
      cases answer
    | some routes' =>
      rw [later] at answer
      cases answer
      exact ⟨route, routes', rfl, known source List.mem_cons_self, rfl⟩

end Router

end TrafficControl
