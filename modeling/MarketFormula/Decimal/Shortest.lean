import MarketFormula.Decimal.Dyadic

/-!
# Shortest decimals

Among the decimals that round to a given double, the ones with the fewest digits are found by
trying the grids of 1, 2, … 17 significant digits.
-/
namespace MarketFormula.Decimal

/-- The number `0.d₁d₂… * 10 ^ point`, without trailing zeros. -/
structure Digits where
  digits : List Char
  point : Int
  deriving DecidableEq, Repr

def digitCount (n : Nat) : Nat :=
  (Nat.toDigits 10 n).length

def Digits.ofScaled (digits : Nat) (exponent : Int) : Digits :=
  let all := Nat.toDigits 10 digits
  ⟨(all.reverse.dropWhile (· == '0')).reverse, all.length + exponent⟩

def tenPow (e : Int) : Nat :=
  Nat.pow 10 e.toNat

namespace Dyadic

/-- The least `k` with `mantissa * 2 ^ exponent < 10 ^ k`, for a positive mantissa. -/
def magnitude (d : Dyadic) : Int :=
  let up := d.mantissa * twoPow d.exponent
  let down := twoPow (-d.exponent)
  if down ≤ up then digitCount (up / down) else 1 - digitCount ((down - 1) / up)

/-- The decimal `c * 10 ^ grid` rounds to this double. Quarter units of the last binary place are
compared; the ends of the interval belong to it if the mantissa is even. -/
def roundsFrom (d : Dyadic) (c : Nat) (grid : Int) : Bool :=
  let unit := twoPow (d.exponent - 2) * tenPow (-grid)
  let candidate := c * (twoPow (2 - d.exponent) * tenPow grid)
  let low := (4 * d.mantissa - if d.narrowBelow then 1 else 2) * unit
  let high := (4 * d.mantissa + 2) * unit
  if d.mantissa % 2 = 0 then low ≤ candidate && candidate ≤ high
  else low < candidate && candidate < high

/-- The shortest decimal on the grid of multiples of `10 ^ grid`, if one rounds to this double. -/
def onGrid? (d : Dyadic) (grid : Int) : Option Nat :=
  let value := 4 * d.mantissa * (twoPow (d.exponent - 2) * tenPow (-grid))
  let step := twoPow (2 - d.exponent) * tenPow grid
  let below := value / step
  match d.roundsFrom below grid, d.roundsFrom (below + 1) grid with
  | true, true =>
    match compare (2 * value) ((2 * below + 1) * step) with
    | .lt => some below
    | .gt => some (below + 1)
    | .eq => some (if below % 2 = 0 then below else below + 1)
  | true, false => some below
  | false, true => some (below + 1)
  | false, false => none

/-- The shortest decimal of a positive magnitude; its exact value if no grid had a hit. -/
def shortest (d : Dyadic) : Digits :=
  let found := (List.range 17).findSome? fun (n : Nat) =>
    let grid := d.magnitude - (n + 1)
    (d.onGrid? grid).map (Digits.ofScaled · grid)
  found.getD (Digits.ofScaled
    (d.mantissa * twoPow d.exponent * Nat.pow 5 (-d.exponent).toNat) (min d.exponent 0))

end Dyadic

end MarketFormula.Decimal
