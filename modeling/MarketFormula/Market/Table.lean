import MarketFormula.Market.Record
import MarketFormula.Text.LetterCase

/-!
# Tables

A table has named columns and labelled rows. Its columns are matched by name without regard to
letter case; of several columns with one name the last counts.
-/
namespace MarketFormula

/-- One label for each row of a table, and a name for them. -/
structure Labels where
  name : Option String := none
  cells : List Datum
  deriving Repr

def Labels.numbered (count : Nat) : List Datum :=
  (List.range count).map fun (i : Nat) => .int i

structure Table where
  columns : List String
  rows : List (List Datum)
  /-- The labels of the rows by level, at least one level. -/
  labels : List Labels
  deriving Repr

namespace Table

/-- Whether integers cannot stand in one column of fixed width: they fit in 64 bits neither with a
sign nor without. -/
def overflows (numbers : List Int) : Bool :=
  numbers.any (fun n => n < -0x8000000000000000 ∨ 0x10000000000000000 ≤ n) ||
    numbers.any (· < 0) && numbers.any (0x8000000000000000 ≤ ·)

def integers (cells : List Datum) : List Int :=
  cells.filterMap fun
    | .int n => some n
    | _ => none

/-- The cells of one column as they are stored. In a column of numbers or of texts an empty cell
is a missing number, and whole numbers beside others are doubles. A column whose integers overflow
stays as it is. -/
def settle (cells : List Datum) : List Datum :=
  let present := cells.filter (!Datum.isNull ·)
  if present.isEmpty || overflows (integers present) then cells
  else if present.all Datum.isNumber then
    if cells.all fun cell => !Datum.isNull cell && !Datum.isFloat cell then cells
    else cells.map Datum.widen
  else if present.all Datum.isText then
    cells.map fun cell => if Datum.isNull cell then .float Decimal.nan else cell
  else cells

/-- The table of cells as they are given, with one level of labels. The longest row must have a cell
for each column; shorter rows have empty cells at their ends. -/
def ofCells (columns : List String) (rows : List (List Datum)) (labels : Labels) :
    Except DataError Table :=
  let width := rows.foldl (fun width row => max width row.length) 0
  if !rows.isEmpty && width != columns.length then .error (.columnCount columns.length width)
  else
    let settled := (List.range columns.length).map fun i =>
      settle (rows.map fun row => row[i]?.getD .null)
    .ok {
      columns
      rows := (List.range rows.length).map fun i => settled.map fun cells => cells[i]?.getD .null
      labels := [⟨labels.name, settle labels.cells⟩] }

def columnAt (t : Table) (i : Nat) : List Datum :=
  t.rows.map fun row => row[i]?.getD .null

/-- The columns by name in lower case. -/
def named (t : Table) : List (String × List Datum) :=
  t.columns.zipIdx.map fun (name, i) => (Text.lower name, t.columnAt i)

def column? (columns : List (String × List Datum)) (name : String) : Option (List Datum) :=
  columns.reverse.lookup name

/-- The name of a column of labels, the only one or that of a level. -/
def labelName (t : Table) (columns : List (String × List Datum)) (labels : Labels)
    (level : Nat) : String :=
  let spare :=
    if 1 < t.labels.length then s!"level_{level}"
    else if (columns.lookup "index").isSome then "level_0"
    else "index"
  labels.name.getD spare

/-- The columns behind those of the labels. The innermost level is put in front first, and no column
may have its name yet. -/
def withLabels (t : Table) (columns : List (String × List Datum)) :
    Except DataError (List (String × List Datum)) :=
  t.labels.zipIdx.reverse.foldlM (fun behind (labels, level) => do
    let name := t.labelName columns labels level
    if (behind.lookup name).isSome then .error (.columnExists name)
    else return (name, settle labels.cells) :: behind) columns

/-- The name of the column that takes the place of a missing date column. -/
def dateSource (t : Table) : String :=
  match t.labels with
  | [⟨some name, _⟩] => if name.isEmpty then "index" else name
  | _ => "index"

/-- The columns with a date column, if the table has dates at all. -/
def dated (t : Table) : Except DataError (List (String × List Datum)) := do
  let columns := t.named
  if (columns.lookup "date").isSome then return columns
  else
    let columns ← t.withLabels columns
    return columns.map fun (name, cells) => (if name = t.dateSource then "date" else name, cells)

/-- The rows as records of a date and the fields of a quote. -/
def records (t : Table) : Except DataError (List Datum) := do
  let columns ← t.dated
  let missing := (Field.all.map Field.name).filter fun name => (columns.lookup name).isNone
  if !missing.isEmpty then .error (.missingColumns missing)
  else if (columns.lookup "date").isNone then .error .noDateColumn
  else
    return (List.range t.rows.length).map fun i =>
      .record (("date" :: Field.all.map Field.name).map fun name =>
        (name, ((column? columns name).bind (·[i]?)).getD .null))

def toSeries (readDate : DateReader) (t : Table) : Except DataError (Series Float) := do
  Series.ofRecords readDate (← t.records)

end Table

end MarketFormula
