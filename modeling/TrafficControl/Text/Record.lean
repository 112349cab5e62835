namespace TrafficControl.Text

def needsQuotes (field : String) : Bool :=
  field.toList.any fun c => c = ',' || c = '"' || c = '\r' || c = '\n'

def byte (c : Char) : UInt8 := c.toUInt8

/-- The bytes of a field in pieces that are not parted: between quotes, every quote in the field is
    written twice. -/
def fieldPieces (field : String) : List (List UInt8) :=
  let bytes := field.toUTF8.toList
  if needsQuotes field then
    let quote := byte '"'
    [quote] :: bytes.map (fun b => if b = quote then [quote, quote] else [b]) ++ [[quote]]
  else bytes.map ([·])

def recordPieces (fields : List String) : List (List UInt8) :=
  ((fields.map fieldPieces).intersperse [[byte ',']]).flatten ++ [[byte '\n']]

end TrafficControl.Text
