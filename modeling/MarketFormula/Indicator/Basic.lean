import MarketFormula.Datum
import MarketFormula.Indicator.Average
import MarketFormula.Indicator.Rolling

/-!
# Indicators

Functions of whole columns that look back from each bar: averages, delays and extremes over a
window, and crossings of two columns.
-/
namespace MarketFormula

/-- Indicators of one column and the length of a window. -/
inductive Windowed
  | ma
  | ema
  | ref
  | hhv
  | llv
  deriving DecidableEq, Repr

inductive Indicator
  | windowed (function : Windowed)
  | cross
  deriving DecidableEq, Repr

namespace Indicator

/-- The weight of the newest value in an exponential average over `n` bars. -/
def smoothing (n : Int) : Except DataError Float := do
  let span ← Datum.floatOfInt (n + 1)
  return 2.0 / span

def exponentialFrom (weight previous : Float) : List Float → List Float
  | [] => []
  | x :: rest =>
    let next := x * weight + previous * (1.0 - weight)
    next :: exponentialFrom weight next rest

/-- The exponential average, which starts with the first value. -/
def exponentialAverage (weight : Float) : List Float → List Float
  | [] => []
  | x :: rest => x :: exponentialFrom weight x rest

def delayed (n : Nat) (xs : List Float) : List Float :=
  List.replicate (min n xs.length) Decimal.nan ++ xs.take (xs.length - n)

def crossingFrom : (previous : Option (Float × Float)) → List (Float × Float) → List Bool
  | _, [] => []
  | previous, now :: rest =>
    (decide (now.2 < now.1) && previous.any fun before => decide (before.1 ≤ before.2)) ::
      crossingFrom (some now) rest

/-- The bars where the first column is above the second and was not above it the bar before. -/
def crossing (xs ys : List Float) : List Bool :=
  crossingFrom none (xs.zip ys)

def name : Indicator → String
  | windowed .ma => "MA"
  | windowed .ema => "EMA"
  | windowed .ref => "REF"
  | windowed .hhv => "HHV"
  | windowed .llv => "LLV"
  | cross => "CROSS"

def all : List Indicator :=
  [windowed .ma, windowed .ema, windowed .ref, windowed .hhv, windowed .llv, cross]

end Indicator

namespace Windowed

open Indicator

def values (function : Windowed) (n : Nat) (xs : List Float) : Except DataError (List Float) :=
  match function with
  | ma => .ok (movingAverage n xs)
  | ema => (smoothing n).map (exponentialAverage · xs)
  | ref => .ok (delayed n xs)
  | hhv => .ok (highest n xs)
  | llv => .ok (lowest n xs)

/-- Whether all windows that reach beyond the first bar of a column give the same values. -/
def isClipped : Windowed → Bool
  | ma | ref | hhv | llv => true
  | ema => false

/-- The values of an indicator over windows of any given length, which must be at least one and, for
windows that are laid over bars, fit in 64 bits. -/
def compute (function : Windowed) (n : Int) (xs : List Float) : Except DataError (List Float) :=
  if n < 1 then .error (.windowBelowOne n)
  else if function.isClipped && !xs.isEmpty && 0x8000000000000000 ≤ n then .error .windowTooLarge
  else function.values n.toNat xs

end Windowed

end MarketFormula
