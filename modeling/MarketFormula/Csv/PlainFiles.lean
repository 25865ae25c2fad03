import MarketFormula.CalendarDate
import MarketFormula.Csv.Table
import MarketFormula.FileTree
import MarketFormula.Market.Library

/-! A library for files of plain text: it takes no file as packed, whatever its name, reads decimals
to the nearest double, and knows dates in the more common forms only. -/
namespace MarketFormula.Csv

def plainFiles : Library FileTree where
  readTable files path := do table (← files.read path)
  writeColumn files path column := files.write path column.text
  readDate := CalendarDate.read

end MarketFormula.Csv
