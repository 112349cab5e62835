namespace TrafficControl.Decimal

/-- The whole number nearest to a quotient, the even one of two that are equally near. -/
def divNearest (num den : Nat) : Nat :=
  let below := num / den
  let twice := 2 * (num % den)
  if twice < den ∨ (twice = den ∧ below % 2 = 0) then below else below + 1

def tenthsOf (mantissa power : Nat) : Nat :=
  if 1075 ≤ power then 10 * mantissa * Nat.pow 2 (power - 1075)
  else divNearest (10 * mantissa) (Nat.pow 2 (1075 - power))

/-- The exact value of the number, rounded to one decimal place. -/
def tenths (x : Float) : String :=
  let bits := x.toBits.toNat
  let sign := if bits / Nat.pow 2 63 = 1 then "-" else ""
  let power := bits / Nat.pow 2 52 % Nat.pow 2 11
  let fraction := bits % Nat.pow 2 52
  if power = 2047 then
    if fraction = 0 then sign ++ "inf" else "NaN"
  else
    let mantissa := if power = 0 then fraction else Nat.pow 2 52 + fraction
    let count := tenthsOf mantissa (max power 1)
    sign ++ toString (count / 10) ++ "." ++ toString (count % 10)

end TrafficControl.Decimal
