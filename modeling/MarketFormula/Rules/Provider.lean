import MarketFormula.Market.Table

/-!
# Providers of series

A source gives the most recent bars of a security or says why it has none. A provider is a source
that holds a series for each of some securities by code.
-/
namespace MarketFormula

/-- The most recent bars of a security, by its code and the number of bars. -/
abbrev Source := Datum → Int → Except DataError (Series Float)

structure Provider where
  series : List (String × Series Float) := []
  deriving Repr

namespace Provider

def ofTables (readDate : DateReader) (tables : List (String × Table)) :
    Except DataError Provider := do
  let series ← tables.mapM fun (code, table) => return (code, ← table.toSeries readDate)
  return ⟨series⟩

/-- The series of a code; only texts are codes of securities. -/
def find? (provider : Provider) : Datum → Option (Series Float)
  | .text code => provider.series.lookup code
  | _ => none

def get (provider : Provider) (code : Datum) (count : Int) : Except DataError (Series Float) := do
  code.checkKey
  match provider.find? code with
  | some s => return s.tail count
  | none => .error (.noSeries code.literal)

instance : Coe Provider Source where
  coe := Provider.get

end Provider

end MarketFormula
