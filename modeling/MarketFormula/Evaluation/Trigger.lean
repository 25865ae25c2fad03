import MarketFormula.Evaluation.Eval
import MarketFormula.Formula.Parse

/-!
# Triggers

A formula triggers on a series if its value at the last bar counts as true. The signal of a series
says for every bar whether the formula is true there.
-/
namespace MarketFormula

structure TriggerResult where
  triggered : Bool
  index : Int
  date : String
  explanation : String
  deriving DecidableEq, Repr

namespace TriggerResult

def noData : TriggerResult :=
  ⟨false, -1, "", "no data"⟩

def atBar (triggered : Bool) (index : Nat) (date : String) : TriggerResult :=
  ⟨triggered, index, date, if triggered then "triggered at " ++ date else "not triggered"⟩

end TriggerResult

/-- The tree of a formula as it is found in a rule: a text, or nothing, which counts as empty. -/
def Expr.ofDatum : Datum → Except Fault Expr
  | .text formula => Fault.ofFormula (parse formula)
  | .null => .error (.formula .emptyFormula)
  | value => .error (.data (.wrongType value.shape))

namespace Series

variable {α : Type} [ToFloat α]

def resolve (s : Series α) (value : Value) : Except DataError TriggerResult :=
  match s.getLast? with
  | none => .ok .noData
  | some last => do
    let triggered ← value.truthAt (s.length - 1)
    return .atBar triggered (s.length - 1) last.date

def evaluateTree (s : Series α) (e : Expr) : Except Fault TriggerResult :=
  if s.isEmpty then .ok .noData
  else do
    let frame ← Fault.ofData s.toFrame
    let value ← e.eval frame
    Fault.ofData (s.resolve value)

/-- Whether a formula is true at the last bar. Without bars the formula is not looked at. -/
def evaluate (s : Series α) (formula : Datum) : Except Fault TriggerResult :=
  if s.isEmpty then .ok .noData
  else do
    let e ← Expr.ofDatum formula
    s.evaluateTree e

/-- For every bar, whether a formula is true there. -/
def signal (s : Series α) (formula : Datum) : Except Fault (List Bool) :=
  if s.isEmpty then .ok []
  else do
    let frame ← Fault.ofData s.toFrame
    let e ← Expr.ofDatum formula
    let value ← e.eval frame
    return value.toBoolean frame.length

end Series

end MarketFormula
