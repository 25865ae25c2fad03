import MarketFormula.Decimal.Shortest

/-!
# The text of a double

Numbers from `10 ^ -4` up to below `10 ^ 16` are written positionally and always with a decimal
point; others with an exponent of at least two digits and an explicit sign.
-/
namespace MarketFormula.Decimal

/-- Decimal point positions written without an exponent. -/
def isPositional (point : Int) : Bool :=
  -4 < point && point ≤ 16

def exponentText (exponent : Int) : List Char :=
  let digits := Nat.toDigits 10 exponent.natAbs
  'e' :: (if exponent < 0 then '-' else '+') ::
    (List.replicate (2 - digits.length) '0' ++ digits)

def layOut (d : Digits) : List Char :=
  let n : Int := d.digits.length
  if isPositional d.point then
    if d.point ≤ 0 then '0' :: '.' :: List.replicate (-d.point).toNat '0' ++ d.digits
    else if n ≤ d.point then d.digits ++ List.replicate (d.point - n).toNat '0' ++ ['.', '0']
    else d.digits.take d.point.toNat ++ '.' :: d.digits.drop d.point.toNat
  else
    match d.digits with
    | [] => []
    | [lead] => lead :: exponentText (d.point - 1)
    | lead :: rest => lead :: '.' :: rest ++ exponentText (d.point - 1)

def magnitudeText (x : Float) : List Char :=
  if x == 0 then ['0', '.', '0'] else layOut (Dyadic.ofFloat x).shortest

/-- The shortest text that reads back as the same double. -/
def text (x : Float) : String :=
  if x.isNaN then "nan"
  else if x.isInf then if isSigned x then "-inf" else "inf"
  else String.ofList ((if isSigned x then ['-'] else []) ++ magnitudeText x)

end MarketFormula.Decimal
