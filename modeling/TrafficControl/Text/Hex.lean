namespace TrafficControl.Text

def hexValue? (c : Char) : Option Nat :=
  if '0' ≤ c ∧ c ≤ '9' then some (c.toNat - '0'.toNat)
  else if 'a' ≤ c ∧ c ≤ 'f' then some (c.toNat - 'a'.toNat + 10)
  else if 'A' ≤ c ∧ c ≤ 'F' then some (c.toNat - 'A'.toNat + 10)
  else none

def ofHex? (s : String) : Option Nat :=
  match s.toList with
  | '0' :: 'x' :: digits => digits.foldlM (fun n c => (hexValue? c).map (16 * n + ·)) 0
  | _ => none

def hex (width n : Nat) : String :=
  let digits := Nat.toDigits 16 n
  String.ofList ('0' :: 'x' :: List.replicate (width - digits.length) '0' ++ digits)

end TrafficControl.Text
