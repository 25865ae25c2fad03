import MarketFormula.DataError
import MarketFormula.Decimal.Dyadic
import MarketFormula.Market.Series

/-!
# Values of expressions

A value is one number or truth value for all bars, or one for each bar. As a truth value a number
is true unless it is zero or missing; as a number a truth value is one or zero.
-/
namespace MarketFormula

inductive Scalar
  | number (x : Float)
  | truth (b : Bool)
  deriving DecidableEq, Repr

inductive Value
  | scalar (s : Scalar)
  | numeric (xs : List Float)
  | boolean (bs : List Bool)
  deriving DecidableEq, Repr

def isTrue (x : Float) : Bool :=
  if x.isNaN then false else x != 0.0

/-- The bars where a column has a number. -/
def present (xs : List Float) : List Bool :=
  xs.map (!·.isNaN)

/-- The bars where the number of a column counts as true. -/
def truths (xs : List Float) : List Bool :=
  List.zipWith Bool.and (xs.map (· != 0.0)) (present xs)

def ofTruth (b : Bool) : Float :=
  if b then 1.0 else 0.0

namespace Scalar

def isTruth : Scalar → Bool
  | number _ => false
  | truth _ => true

def toFloat : Scalar → Float
  | number x => x
  | truth b => ofTruth b

def toBool : Scalar → Bool
  | number x => isTrue x
  | truth b => b

end Scalar

namespace Value

def isVector : Value → Bool
  | scalar _ => false
  | _ => true

def toNumeric (n : Nat) : Value → List Float
  | scalar s => List.replicate n s.toFloat
  | numeric xs => xs
  | boolean bs => bs.map ofTruth

def toBoolean (n : Nat) : Value → List Bool
  | scalar s => List.replicate n s.toBool
  | numeric xs => truths xs
  | boolean bs => bs

/-- The truth value at a bar, counted from the end if negative. -/
def truthAt (value : Value) (i : Int) : Except DataError Bool :=
  let entry? :=
    match value with
    | scalar s => some s.toBool
    | numeric xs => (entryAt? xs i).map isTrue
    | boolean bs => entryAt? bs i
  match entry? with
  | some b => .ok b
  | none => .error .noSuchEntry

end Value

end MarketFormula
