import MarketFormula.Market.Table

/-! Tables are read and written, and dates are read, by a library of which only its interface is
known. -/
namespace MarketFormula

/-- A column of whole numbers with a label for each of them. -/
structure LabelledColumn where
  labelName : String
  name : String
  entries : List (String × Int)
  deriving DecidableEq, Repr

/-- The lines of a column as text, if no cell needs quotation marks. -/
def LabelledColumn.text (column : LabelledColumn) : String :=
  column.labelName ++ "," ++ column.name ++ "\n" ++
    String.join (column.entries.map fun entry => entry.1 ++ "," ++ toString entry.2 ++ "\n")

/-- What is taken from a library; `F` stands for all files. -/
structure Library (F : Type) where
  readTable : F → String → Except DataError Table
  writeColumn : F → String → LabelledColumn → Except DataError F
  readDate : DateReader

end MarketFormula
