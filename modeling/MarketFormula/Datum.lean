import MarketFormula.DataError
import MarketFormula.Decimal.Layout
import MarketFormula.Decimal.Reading

/-!
# Untyped data

The values of rule files, records and table cells before they are given a type: what JSON can
write, with integers and other numbers kept apart.
-/
namespace MarketFormula

inductive Datum
  | null
  | bool (b : Bool)
  | int (n : Int)
  | float (x : Float)
  | text (s : String)
  | list (items : List Datum)
  | record (fields : List (String × Datum))
  deriving Repr

namespace Datum

def shape : Datum → Shape
  | null => .null
  | bool _ => .bool
  | int _ => .int
  | float _ => .float
  | text _ => .text
  | list _ => .list
  | record _ => .record

def isTruthy : Datum → Bool
  | null => false
  | bool b => b
  | int n => n != 0
  | float x => x != 0
  | text s => !s.isEmpty
  | list items => !items.isEmpty
  | record fields => !fields.isEmpty

def field? : Datum → String → Option Datum
  | record fields, key => fields.lookup key
  | _, _ => none

def isNull : Datum → Bool
  | null => true
  | _ => false

def isText : Datum → Bool
  | text _ => true
  | _ => false

def isFloat : Datum → Bool
  | float _ => true
  | _ => false

/-- Truth values are not numbers. -/
def isNumber : Datum → Bool
  | int _ | float _ => true
  | _ => false

/-- The integer that a number or a truth value equals, if there is one. -/
def integer? : Datum → Option Int
  | bool b => some (if b then 1 else 0)
  | int n => some n
  | float x => (Decimal.natural? x.abs).map fun n => if x < 0 then -n else n
  | _ => none

/-- Whether two values name the same thing. Numbers and truth values are compared by their size. -/
def sameKey : Datum → Datum → Bool
  | null, null => true
  | text s, text t => s == t
  | a, b =>
    match a.integer?, b.integer? with
    | some m, some n => m == n
    | none, none =>
      match a, b with
      | float x, float y => x == y || x.isNaN && y.isNaN
      | _, _ => false
    | _, _ => false

/-- Lists and records cannot name anything. -/
def checkKey : Datum → Except DataError Unit
  | list _ => .error (.unusableKey .list)
  | record _ => .error (.unusableKey .record)
  | _ => .ok ()

mutual

/-- A value as part of a larger one: texts are quoted. -/
def literal : Datum → String
  | null => "None"
  | bool b => if b then "True" else "False"
  | int n => toString n
  | float x => Decimal.text x
  | text s => Text.quote s
  | list items => "[" ++ ", ".intercalate (literals items) ++ "]"
  | record fields => "\x7b" ++ ", ".intercalate (fieldLiterals fields) ++ "\x7d"

def literals : List Datum → List String
  | [] => []
  | item :: items => literal item :: literals items

def fieldLiterals : List (String × Datum) → List String
  | [] => []
  | (key, value) :: fields => (Text.quote key ++ ": " ++ literal value) :: fieldLiterals fields

end

/-- A value on its own: a text stands for itself. -/
def display : Datum → String
  | text s => s
  | value => value.literal

def floatOfInt (n : Int) : Except DataError Float :=
  let x := Float.ofNat n.natAbs
  if x.isInf then .error .integerTooLarge else .ok (if n < 0 then -x else x)

/-- An integer as a double where that is possible, and nothing as a missing number. -/
def widen : Datum → Datum
  | int n =>
    match floatOfInt n with
    | .ok x => float x
    | .error _ => int n
  | null => float Decimal.nan
  | value => value

def toFloat : Datum → Except DataError Float
  | bool b => .ok (if b then 1.0 else 0.0)
  | int n => floatOfInt n
  | float x => .ok x
  | text s =>
    match Decimal.read? s with
    | some x => .ok x
    | none => .error (.unreadableNumber s)
  | value => .error (.wrongType value.shape)

end Datum

end MarketFormula
