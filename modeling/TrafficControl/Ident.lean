namespace TrafficControl

inductive Kind where
  | point
  | path
  | block
  | vehicle
deriving DecidableEq, Repr

def Kind.label : Kind → String
  | .point => "PointId"
  | .path => "PathId"
  | .block => "BlockId"
  | .vehicle => "VehicleId"

instance : ToString Kind where
  toString
    | .point => "point"
    | .path => "path"
    | .block => "block"
    | .vehicle => "vehicle"

structure Ident (kind : Kind) where
  index : Nat
deriving DecidableEq, Repr

abbrev PointId := Ident .point
abbrev PathId := Ident .path
abbrev BlockId := Ident .block
abbrev VehicleId := Ident .vehicle

namespace Ident

variable {kind : Kind}

/-- The greatest number an element can have, itself reserved for no element at all. -/
def last : Nat := 4294967295

def invalid : Ident kind := ⟨last⟩

instance : Inhabited (Ident kind) := ⟨invalid⟩

def ofNat? (n : Nat) : Option (Ident kind) := if n ≤ last then some ⟨n⟩ else none

def rangeMessage : String := "number too large to fit in target type"

instance : ToString (Ident kind) := ⟨fun id => kind.label ++ "(" ++ toString id.index ++ ")"⟩

instance : Ord (Ident kind) := ⟨compareOn fun id => id.index⟩

instance : Std.TransOrd (Ident kind) :=
  inferInstanceAs (Std.TransCmp (compareOn fun id : Ident kind => id.index))

instance : Std.LawfulEqOrd (Ident kind) where
  eq_of_compare {a b} h := by
    have same : compare a.index b.index = .eq := h
    cases a
    exact congrArg _ (Std.LawfulEqCmp.eq_of_compare same)

end Ident

structure ClientId where
  name : String
deriving DecidableEq, Repr, Inhabited

namespace ClientId

instance : ToString ClientId := ⟨ClientId.name⟩

instance : Ord ClientId := ⟨compareOn ClientId.name⟩

instance : Std.TransOrd ClientId := inferInstanceAs (Std.TransCmp (compareOn ClientId.name))

instance : Std.LawfulEqOrd ClientId where
  eq_of_compare {a b} h := by
    have same : compare a.name b.name = .eq := h
    cases a
    exact congrArg _ (Std.LawfulEqCmp.eq_of_compare same)

end ClientId

end TrafficControl
