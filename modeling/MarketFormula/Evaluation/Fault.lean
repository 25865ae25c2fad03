import MarketFormula.DataError
import MarketFormula.Formula.Error

/-!
# Faults of an evaluation

Evaluating a formula over given data can fail because of the formula or because of the data.
-/
namespace MarketFormula

inductive Fault
  | formula (error : FormulaError)
  | data (error : DataError)
  deriving DecidableEq

namespace Fault

def message : Fault → String
  | formula error => error.message
  | data error => error.message

def ofFormula {α : Type} (result : Except FormulaError α) : Except Fault α :=
  result.mapError .formula

def ofData {α : Type} (result : Except DataError α) : Except Fault α :=
  result.mapError .data

end Fault

end MarketFormula
