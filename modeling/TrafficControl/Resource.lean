import TrafficControl.Ident
import TrafficControl.OrderedSet

namespace TrafficControl

inductive Resource where
  | point (id : PointId)
  | path (id : PathId)
  | block (id : BlockId)
deriving DecidableEq, Repr

namespace Resource

def rank : Resource → Nat
  | .point _ => 0
  | .path _ => 1
  | .block _ => 2

def index : Resource → Nat
  | .point id => id.index
  | .path id => id.index
  | .block id => id.index

theorem eq_of_rank_of_index {r s : Resource} (rank : r.rank = s.rank) (index : r.index = s.index) :
    r = s := by
  cases r <;> cases s <;> simp_all [Resource.rank, Resource.index] <;>
    exact congrArg Ident.mk index

instance : Ord Resource := ⟨compareLex (compareOn Resource.rank) (compareOn Resource.index)⟩

instance : Std.TransOrd Resource :=
  inferInstanceAs (Std.TransCmp (compareLex (compareOn Resource.rank) (compareOn Resource.index)))

instance : Std.LawfulEqOrd Resource where
  eq_of_compare {r s} h := by
    have ⟨rank, index⟩ := compareLex_eq_eq.mp h
    have rank : compare r.rank s.rank = .eq := rank
    have index : compare r.index s.index = .eq := index
    exact eq_of_rank_of_index (Std.LawfulEqCmp.eq_of_compare rank)
      (Std.LawfulEqCmp.eq_of_compare index)

def ofString? (s : String) : Option Resource :=
  match s.splitOn ":" with
  | [kind, number] => do
    let n ← number.toNat?
    match kind with
    | "point" => some (.point ⟨n⟩)
    | "path" => some (.path ⟨n⟩)
    | "block" => some (.block ⟨n⟩)
    | _ => none
  | _ => none

instance : ToString Resource where
  toString
    | .point id => toString id
    | .path id => toString id
    | .block id => toString id

end Resource

abbrev ResourceSet := OrderedSet Resource

def ResourceSet.display (s : ResourceSet) : String :=
  "\x7b" ++ String.intercalate ", " (s.toList.map toString) ++ "\x7d"

end TrafficControl
