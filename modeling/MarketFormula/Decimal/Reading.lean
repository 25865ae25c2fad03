import MarketFormula.Decimal.Shortest
import MarketFormula.Text.Blank
import MarketFormula.Text.DecimalDigit

/-!
# Reading numbers

A number may be surrounded by blanks, and its digits may come from any script. Single underscores
may separate digits.
-/
namespace MarketFormula.Decimal

open Text

/-- `mantissa * 10 ^ exponent` as the nearest double. Exponents far outside the range of doubles
are decided by the magnitude alone. -/
def ofScaled (mantissa : Nat) (exponent : Int) : Float :=
  let magnitude := digitCount mantissa + exponent
  if mantissa = 0 || magnitude < -400 then 0.0
  else if 400 < magnitude then infinity
  else Float.ofScientific mantissa (exponent < 0) exponent.natAbs

def ofDigitParts (whole fraction : List Nat) (exponent : Int) : Float :=
  ofScaled (ofDigits (whole ++ fraction)) (exponent - fraction.length)

/-- The character in ASCII: blanks become spaces and digits those of ASCII. A text in ASCII is
left as it is. -/
def asciiChar? (c : Char) : Option Char :=
  if c.toNat < 0x7f then some c
  else if isBlank c then some ' '
  else (digitValue? c).map Nat.digitChar

def ascii? (cs : List Char) : Option (List Char) :=
  if cs.all (·.toNat < 0x80) then some cs else cs.mapM asciiChar?

/-- Removes underscores, each of which must stand between two digits. -/
def removeUnderscores? : (afterDigit : Bool) → List Char → Option (List Char)
  | _, [] => some []
  | afterDigit, '_' :: rest =>
    match rest with
    | next :: _ =>
      if afterDigit && next.isDigit then removeUnderscores? false rest else none
    | [] => none
  | _, c :: rest => (removeUnderscores? c.isDigit rest).map (c :: ·)

def digitsOf (cs : List Char) : List Nat :=
  cs.filterMap digitValue?

def ofPlain (cs : List Char) : Float :=
  ofDigitParts (digitsOf (cs.takeWhile isDigit)) (digitsOf (cs.dropWhile isDigit)) 0

def splitSign : List Char → Bool × List Char
  | '-' :: rest => (true, rest)
  | '+' :: rest => (false, rest)
  | rest => (false, rest)

def integer? (cs : List Char) : Option Int :=
  let (negative, digits) := splitSign cs
  if digits.isEmpty || !digits.all Char.isDigit then none
  else
    let n : Int := ofDigits (digitsOf digits)
    some (if negative then -n else n)

/-- The exponent mark and digits at the end of a decimal; none at all means zero. -/
def exponent? : List Char → Option Int
  | [] => some 0
  | mark :: rest => if mark = 'e' ∨ mark = 'E' then integer? rest else none

/-- An unsigned decimal: digits with at most one point among them, and an exponent. -/
def unsigned? (cs : List Char) : Option Float :=
  let whole := cs.takeWhile Char.isDigit
  let (fraction, tail) :=
    match cs.dropWhile Char.isDigit with
    | '.' :: rest => (rest.takeWhile Char.isDigit, rest.dropWhile Char.isDigit)
    | rest => ([], rest)
  if whole.isEmpty && fraction.isEmpty then none
  else (exponent? tail).map (ofDigitParts (digitsOf whole) (digitsOf fraction))

def special? (cs : List Char) : Option Float :=
  match String.ofList (cs.map Char.toLower) with
  | "inf" => some infinity
  | "infinity" => some infinity
  | "nan" => some nan
  | _ => none

/-- The characters of a number text in ASCII, without the blanks around it and its underscores. -/
def plain? (s : String) : Option (List Char) := do
  let cs ← ascii? s.toList
  removeUnderscores? false (strip isPlainBlank cs)

def read? (s : String) : Option Float := do
  let (negative, cs) := splitSign (← plain? s)
  let x ← special? cs <|> unsigned? cs
  some (if negative then -x else x)

/-- Integers may have this many digits, leading zeros included. -/
def maxIntegerDigits : Nat := 4300

def readInteger? (s : String) : Option Int := do
  let cs ← plain? s
  if (splitSign cs).2.length ≤ maxIntegerDigits then integer? cs else none

end MarketFormula.Decimal
