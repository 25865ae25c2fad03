import MarketFormula.DataError

/-!
# Rows of comma-separated text

Cells are separated by commas and rows by line ends. A cell that starts with a quotation mark runs
up to the next single one and may hold commas and line ends; two marks stand for one.
-/
namespace MarketFormula.Csv

structure Row where
  cells : List String
  /-- The number of the row in the text, from 1, with the skipped rows counted. -/
  line : Nat
  deriving DecidableEq, Repr

inductive Mode
  | cellStart
  | plain
  | quoted
  | afterQuote
  deriving DecidableEq, Repr

/-- A row that is being read, latest first. -/
structure Partial where
  cell : List Char := []
  cells : List String := []
  hasQuotes : Bool := false

namespace Partial

def push (p : Partial) (c : Char) : Partial :=
  { p with cell := c :: p.cell }

/-- The row with its last cell finished. Nothing of a cell counts from a zero character on. -/
def endCell (p : Partial) : Partial :=
  { p with
    cell := [], cells := String.ofList (p.cell.reverse.takeWhile (· != '\x00')) :: p.cells }

def isEmpty (p : Partial) : Bool :=
  p.cells.isEmpty && p.cell.isEmpty && !p.hasQuotes

/-- The cells of a finished row, unless the row is blank. -/
def finish? (p : Partial) : Option (List String) :=
  if p.cells.isEmpty && !p.hasQuotes && p.cell.all (fun c => c == ' ' || c == '\t') then none
  else some (p.endCell.cells.reverse)

end Partial

structure Scan where
  /-- The cells of each row; blank rows are `none`. -/
  rows : List (Option (List String))
  /-- Whether the text ends inside a quoted cell, whose row is not finished. -/
  isOpen : Bool

def Scan.cons (p : Partial) (scan : Scan) : Scan :=
  { scan with rows := p.finish? :: scan.rows }

def scan : Mode → Partial → List Char → Scan
  | .quoted, _, [] => ⟨[], true⟩
  | _, p, [] => ⟨if p.isEmpty then [] else [p.finish?], false⟩
  | .quoted, p, '\x22' :: rest => scan .afterQuote p rest
  | .quoted, p, c :: rest => scan .quoted (p.push c) rest
  | .cellStart, p, '\x22' :: rest => scan .quoted { p with hasQuotes := true } rest
  | .afterQuote, p, '\x22' :: rest => scan .quoted (p.push '\x22') rest
  | _, p, ',' :: rest => scan .cellStart p.endCell rest
  | _, p, '\r' :: '\n' :: rest => (scan .cellStart {} rest).cons p
  | _, p, '\r' :: rest => (scan .cellStart {} rest).cons p
  | _, p, '\n' :: rest => (scan .cellStart {} rest).cons p
  | _, p, c :: rest => scan .plain (p.push c) rest

/-- The scan of a whole text, which may start with a byte order mark. -/
def Scan.ofString (s : String) : Scan :=
  match s.toList with
  | '\ufeff' :: rest => scan .cellStart {} rest
  | cs => scan .cellStart {} cs

def Scan.filled (scan : Scan) : List Row :=
  scan.rows.zipIdx.filterMap fun (cells?, i) => cells?.map fun cells => ⟨cells, i + 1⟩

/-- A text must not end inside a quoted cell. -/
def Scan.checkClosed (scan : Scan) : Except DataError Unit :=
  if scan.isOpen then
    .error (.malformedTable
      s!"Error tokenizing data. C error: EOF inside string starting at row {scan.rows.length}")
  else .ok ()

end MarketFormula.Csv
