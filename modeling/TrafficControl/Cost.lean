namespace TrafficControl

/-- What driving costs: a whole number up to the greatest 64-bit one, which stands for no way at
    all. -/
structure Cost where
  amount : Nat
  amount_le : amount ≤ 18446744073709551615
deriving DecidableEq, Repr

namespace Cost

def limit : Nat := 18446744073709551615

def ofNat (n : Nat) : Cost := ⟨min n limit, Nat.min_le_right n limit⟩

def infinite : Cost := ⟨limit, Nat.le_refl limit⟩

instance (n : Nat) : OfNat Cost n := ⟨ofNat n⟩
instance : Inhabited Cost := ⟨0⟩
instance : Add Cost := ⟨fun a b => ofNat (a.amount + b.amount)⟩
instance : LT Cost := ⟨fun a b => a.amount < b.amount⟩
instance : LE Cost := ⟨fun a b => a.amount ≤ b.amount⟩
instance (a b : Cost) : Decidable (a < b) := inferInstanceAs (Decidable (a.amount < b.amount))
instance (a b : Cost) : Decidable (a ≤ b) := inferInstanceAs (Decidable (a.amount ≤ b.amount))
instance : ToString Cost := ⟨fun c => toString c.amount⟩

def sum (l : List Cost) : Cost := l.foldl (· + ·) 0

theorem ext {a b : Cost} (h : a.amount = b.amount) : a = b := by
  cases a; cases b; cases h; rfl

@[simp] theorem amount_ofNat {n : Nat} : (ofNat n).amount = min n limit := rfl

@[simp] theorem amount_infinite : infinite.amount = limit := rfl

@[simp] theorem amount_zero : (0 : Cost).amount = 0 := rfl

theorem amount_add {a b : Cost} : (a + b).amount = min (a.amount + b.amount) limit := rfl

theorem lt_def {a b : Cost} : a < b ↔ a.amount < b.amount := Iff.rfl

theorem le_def {a b : Cost} : a ≤ b ↔ a.amount ≤ b.amount := Iff.rfl

theorem le_infinite (a : Cost) : a ≤ infinite := a.amount_le

theorem ne_infinite_iff {a : Cost} : a ≠ infinite ↔ a.amount < limit := by
  constructor
  · intro h
    exact Nat.lt_of_le_of_ne a.amount_le fun e => h (ext e)
  · intro h e
    subst e
    exact Nat.lt_irrefl _ h

end Cost

end TrafficControl
