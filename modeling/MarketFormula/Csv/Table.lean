import MarketFormula.Csv.Cell
import MarketFormula.Csv.Row
import MarketFormula.Market.Table

/-!
# Tables from comma-separated text

The first row names the columns. If the second row is longer than the first, its first cells and
those below them label the rows. Later rows must not be longer than the longer of the two.
-/
namespace MarketFormula.Csv

/-- Names of columns, with a name of its own for each column without one and for each repetition. -/
def columnNames (header : List String) : List String :=
  let named := header.zipIdx.map fun (name, i) => if name.isEmpty then s!"Unnamed: {i}" else name
  named.zipIdx.map fun (name, i) =>
    let earlier := (named.take i).count name
    if earlier = 0 then name else s!"{name}.{earlier}"

/-- The first row that is longer than allowed is at fault. -/
def checkLengths (width : Nat) (rows : List Row) : Except DataError Unit :=
  match rows.find? (width < ·.cells.length) with
  | some row =>
    .error (.malformedTable (s!"Error tokenizing data. C error: Expected {width} fields in " ++
      s!"line {row.line}, saw {row.cells.length}\n"))
  | none => .ok ()

/-- The cells at one place of all rows; short rows have empty cells there. -/
def cellsAt (rows : List Row) (i : Nat) : List String :=
  rows.map fun row => row.cells[i]?.getD ""

def table (s : String) : Except DataError Table := do
  let text := Scan.ofString s
  let header := (text.filled.head?.map (·.cells)).getD []
  let body := text.filled.drop 1
  let width := max ((body.head?.map (·.cells.length)).getD 0) header.length
  checkLengths width (body.drop 1)
  text.checkClosed
  if text.filled.isEmpty then throw .emptyTable
  let leading := width - header.length
  let columns := (List.range header.length).map fun i => column (cellsAt body (leading + i))
  return {
    columns := columnNames header
    rows := (List.range body.length).map fun i => columns.map fun cells => cells[i]?.getD .null
    labels :=
      if leading = 0 then [⟨none, Labels.numbered body.length⟩]
      else (List.range leading).map fun i => ⟨none, column (cellsAt body i)⟩ }

end MarketFormula.Csv
