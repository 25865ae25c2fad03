import MarketFormula.Decimal.Reading

/-!
# Settings from the environment

A variable that is absent or empty leaves its default, and so does a number that cannot be read.
-/
namespace MarketFormula

structure Settings where
  /-- Bars that a single formula is tested on. -/
  testBarCount : Int
  /-- Bars that each rule of a sweep is checked on. -/
  sweepBarCount : Int
  /-- Checks that a sweep may run at once. -/
  sweepWorkers : Int
  logLevel : String
  deriving DecidableEq, Repr

namespace Settings

def integer (value? : Option String) (default : Int) : Int :=
  (value?.bind Decimal.readInteger?).getD default

def text (value? : Option String) (default : String) : String :=
  (value?.filter (!·.isEmpty)).getD default

def ofEnvironment (lookup : String → Option String) : Settings where
  testBarCount := integer (lookup "TDX_TEST_BAR_COUNT") 200
  sweepBarCount := integer (lookup "TDX_SWEEP_BAR_COUNT") 50
  sweepWorkers := integer (lookup "TDX_SWEEP_MAX_WORKERS") 1
  logLevel := text (lookup "TDX_LOG_LEVEL") "INFO"

end Settings

end MarketFormula
