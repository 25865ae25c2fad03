import MarketFormula.Datum

/-!
# Writing JSON

Characters outside ASCII stand for themselves; quotation marks, backslashes and control characters
are escaped.
-/
namespace MarketFormula.Json

def escapeChar (c : Char) : List Char :=
  if c = '\x22' ∨ c = '\\' then ['\\', c]
  else if c = '\n' then ['\\', 'n']
  else if c = '\r' then ['\\', 'r']
  else if c = '\t' then ['\\', 't']
  else if c = '\x08' then ['\\', 'b']
  else if c = '\x0c' then ['\\', 'f']
  else if c.toNat < 0x20 then '\\' :: 'u' :: Text.hexDigits 4 c.toNat
  else [c]

def writeText (s : String) : String :=
  String.ofList ('\x22' :: s.toList.flatMap escapeChar ++ ['\x22'])

def writeFloat (x : Float) : String :=
  if x.isNaN then "NaN"
  else if x.isInf then if Decimal.isSigned x then "-Infinity" else "Infinity"
  else Decimal.text x

mutual

def write : Datum → String
  | .null => "null"
  | .bool b => if b then "true" else "false"
  | .int n => toString n
  | .float x => writeFloat x
  | .text s => writeText s
  | .list items => "[" ++ ", ".intercalate (writeItems items) ++ "]"
  | .record fields => "\x7b" ++ ", ".intercalate (writeFields fields) ++ "\x7d"

def writeItems : List Datum → List String
  | [] => []
  | item :: items => write item :: writeItems items

def writeFields : List (String × Datum) → List String
  | [] => []
  | (key, value) :: fields => (writeText key ++ ": " ++ write value) :: writeFields fields

end

/-- A record with one field to a line. -/
def writeBlock (fields : List (String × Datum)) : String :=
  "\x7b\n" ++ ",\n".intercalate ((writeFields fields).map ("  " ++ ·)) ++ "\n\x7d"

end MarketFormula.Json
