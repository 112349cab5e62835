import TrafficControl.Proofs.Route.Level
import TrafficControl.Proofs.Transport.History

namespace TrafficControl

namespace Router

variable {r r' : Router} {v : Vehicle} {n : Navigator}

theorem splice_congr (same : (r.navigator v).1.Same (r'.navigator v).1) (old new : DriveOrder) :
    (r'.splice v old new).1 = (r.splice v old new).1 := by
  simp only [Router.splice]
  cases spliceSteps old.steps new.steps with
  | error fault => rfl
  | ok steps =>
    cases head : steps.head? with
    | none => simp only [head]
    | some first =>
      cases last : steps.getLast? with
      | none => simp only [head, last]
      | some last' =>
        simp only [head, last]
        have asked : (r'.cost v first.source last'.destination).1 =
            (r.cost v first.source last'.destination).1 :=
          query_congr same.symm _ (same.symm.cost _ _)
        revert asked
        rcases r.cost v _ _ with ⟨answer, after⟩
        rcases r'.cost v _ _ with ⟨answer', after'⟩
        rintro rfl
        cases answer' <;> rfl

theorem AtHand.splice (atHand : r.AtHand v n) (old new : DriveOrder) :
    (r.splice v old new).2 = r := by
  rcases r.splice_router v old new with same | ⟨p, q, asked⟩
  · exact same
  · exact asked.trans (congrArg Prod.snd atHand.navigator)

end Router

namespace Fleet

variable {f g h : Fleet} {v : VehicleReport} {n : Navigator}

/-- The vehicle finds the same ways in both fleets, and fares the same where there are none. -/
structure SameWays (v : Vehicle) (f g : Fleet) : Prop where
  plant : g.plant = f.plant
  fallback : g.fallback = f.fallback
  ways : (f.router.navigator v).1.Same (g.router.navigator v).1

namespace SameWays

theorem refl (v : Vehicle) (f : Fleet) : SameWays v f f := ⟨rfl, rfl, .refl _⟩

theorem symm (same : SameWays v.vehicle f g) : SameWays v.vehicle g f :=
  ⟨same.plant.symm, same.fallback.symm, same.ways.symm⟩

theorem trans (first : SameWays v.vehicle f g) (second : SameWays v.vehicle g h) :
    SameWays v.vehicle f h where
  plant := second.plant.trans first.plant
  fallback := second.fallback.trans first.fallback
  ways := first.ways.trans second.ways

theorem replan (same : SameWays v.vehicle f g) (source : PointId) (orders : List DriveOrder) :
    (g.replan v source orders).1 = (f.replan v source orders).1 := by
  have asked : (g.router.legs v.vehicle source (orders.map (·.destination))).1 =
      (f.router.legs v.vehicle source (orders.map (·.destination))).1 :=
    Router.query_congr same.ways.symm _ (same.ways.symm.legs source _)
  revert asked
  simp only [Fleet.replan, same.plant, same.fallback]
  rcases f.router.legs v.vehicle source _ with ⟨answer, router⟩
  rcases g.router.legs v.vehicle source _ with ⟨answer', router'⟩
  rintro rfl
  rcases answer' with fault | none | routes <;> rfl

theorem adjoin (same : SameWays v.vehicle f g) (current : Option DriveOrder) (source : PointId)
    (plan : List DriveOrder) :
    (g.adjoin v current source plan).1 = (f.adjoin v current source plan).1 := by
  simp only [Fleet.adjoin]
  split
  · rfl
  · cases current with
    | none => rfl
    | some current =>
      cases plan with
      | nil => rfl
      | cons first rest =>
        have joined := Router.splice_congr same.ways current first
        revert joined
        simp only
        split
        · intro
          rfl
        · rcases f.router.splice v.vehicle current first with ⟨answer, router⟩
          rcases g.router.splice v.vehicle current first with ⟨answer', router'⟩
          rintro rfl
          cases answer' <;> rfl

end SameWays

theorem replan_atHand (atHand : f.router.AtHand v.vehicle n) (source : PointId)
    (orders : List DriveOrder) : (f.replan v source orders).2 = f := by
  have still : (f.router.legs v.vehicle source (orders.map (·.destination))).2 = f.router :=
    congrArg Prod.snd atHand.navigator
  rw [replan_fleet, still]

theorem adjoin_atHand (atHand : f.router.AtHand v.vehicle n) (current : Option DriveOrder)
    (source : PointId) (plan : List DriveOrder) : (f.adjoin v current source plan).2 = f := by
  rcases f.adjoin_fleet v current source plan with same | ⟨old, new, spliced⟩
  · exact same
  · rw [spliced, atHand.splice]

end Fleet

end TrafficControl
