import TrafficControl.Text.Hidden

namespace TrafficControl.Text

def hexCode (c : Char) : String := String.ofList (Nat.toDigits 16 c.toNat)

def quotedChar (c : Char) : String :=
  if c = '\x00' then "\\0"
  else if c = '\t' then "\\t"
  else if c = '\n' then "\\n"
  else if c = '\r' then "\\r"
  else if c = '\\' then "\\\\"
  else if c = '"' then "\\\""
  else if isHidden c then "\\u\x7b" ++ hexCode c ++ "\x7d"
  else String.singleton c

/-- The text between double quotes, with everything that would not show written as an escape. -/
def quoted (s : String) : String := "\"" ++ String.join (s.toList.map quotedChar) ++ "\""

end TrafficControl.Text
