import MarketFormula.Evaluation.Trigger
import MarketFormula.Log

/-!
# What an evaluation logs

Progress is logged for debugging only: a formula that has been read, and the result for a series.
-/
namespace MarketFormula

namespace Expr

def source : String := "tdx_alert.src.formula_parser"

def log (formula : Datum) : List Log.Entry :=
  match ofDatum formula with
  | .ok e => [⟨Log.debug, source, "parsed formula " ++ formula.literal ++ " into " ++ e.kindName⟩]
  | .error _ => []

end Expr

namespace Series

def source : String := "tdx_alert.src.trigger"

variable {α : Type} [ToFloat α]

/-- The entries of evaluating a formula at the last bar. -/
def evaluationLog (s : Series α) (formula : Datum) : List Log.Entry :=
  if s.isEmpty then [⟨Log.debug, source, "empty series; skipping formula " ++ formula.literal⟩]
  else
    Expr.log formula ++
      match s.evaluate formula with
      | .ok result =>
        [⟨Log.debug, source,
          "formula " ++ formula.literal ++ s!" on {s.length} bars -> " ++ result.explanation⟩]
      | .error _ => []

/-- The entries of evaluating a formula at every bar. -/
def signalLog (s : Series α) (formula : Datum) : List Log.Entry :=
  if s.isEmpty then [] else Expr.log formula

end Series

end MarketFormula
