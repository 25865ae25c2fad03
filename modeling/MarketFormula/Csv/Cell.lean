import MarketFormula.Datum

/-!
# Columns of comma-separated text

A column holds whole numbers, doubles, truth values or texts. Empty cells and some words stand for
missing numbers.
-/
namespace MarketFormula.Csv

def missingWords : List String :=
  ["", "#N/A", "#N/A N/A", "#NA", "-1.#IND", "-1.#QNAN", "-NaN", "-nan", "1.#IND", "1.#QNAN", "<NA>",
    "N/A", "NA", "NULL", "NaN", "None", "n/a", "nan", "null"]

def isMissing (cell : String) : Bool :=
  missingWords.contains cell

def trimmed (cell : String) : List Char :=
  Text.strip Text.isPlainBlank cell.toList

def whole? (cell : String) : Option Int :=
  let (negative, digits) := Decimal.splitSign (trimmed cell)
  if digits.isEmpty || !digits.all Char.isDigit then none
  else
    let n : Int := Text.ofDigits (Decimal.digitsOf digits)
    some (if negative then -n else n)

inductive Misfit
  | notWhole
  | outOfRange
  deriving DecidableEq, Repr

/-- The whole numbers of cells between two bounds. The first cell that does not fit decides. -/
def wholeBetween (least most : Int) (cells : List String) : Except Misfit (List Int) :=
  cells.mapM fun cell =>
    match whole? cell with
    | none => .error .notWhole
    | some n => if n < least ∨ most < n then .error .outOfRange else .ok n

def signed : List String → Except Misfit (List Int) :=
  wholeBetween (-0x8000000000000000) 0x7fffffffffffffff

def unsigned : List String → Except Misfit (List Int) :=
  wholeBetween 0 0xffffffffffffffff

def hasMinus (cell : String) : Bool :=
  (trimmed cell).head? == some '-'

/-- A whole number of any size, which may have underscores between its digits. -/
def large? (cell : String) : Option Int :=
  if cell.toList.all (·.toNat < 0x80) then Decimal.readInteger? cell else none

def infinity? (cell : String) : Option Float :=
  let (negative, cs) := Decimal.splitSign cell.toList
  match String.ofList (cs.map Char.toLower) with
  | "inf" | "infinity" => some (if negative then -Decimal.infinity else Decimal.infinity)
  | _ => none

def decimal? (cell : String) : Option Float :=
  let (negative, cs) := Decimal.splitSign (trimmed cell)
  infinity? cell <|> (Decimal.unsigned? cs).map fun x => if negative then -x else x

def truth? (cell : String) : Option Bool :=
  match String.ofList (cell.toList.map Char.toLower) with
  | "true" => some true
  | "false" => some false
  | _ => none

def texts (cells : List String) : List Datum :=
  cells.map fun cell => if isMissing cell then .float Decimal.nan else .text cell

/-- The cells of a column if all that are not missing can be read. -/
def readAll? {α : Type} (read? : String → Option α) (store : α → Datum) (cells : List String) :
    Option (List Datum) :=
  cells.mapM fun cell =>
    if isMissing cell then some (.float Decimal.nan) else (read? cell).map store

/-- The numbers of a column that lacks some of them. -/
def besideMissing (numbers : List Int) : (cells : List String) → List Datum
  | [] => []
  | cell :: cells =>
    if isMissing cell then .float Decimal.nan :: besideMissing numbers cells
    else
      match numbers with
      | n :: numbers => (Datum.int n).widen :: besideMissing numbers cells
      | [] => []

def notWhole (cells : List String) : List Datum :=
  (readAll? decimal? .float cells <|> readAll? truth? .bool cells).getD (texts cells)

/-- The cells of a column with whole numbers beyond 64 bits. -/
def large (cells : List String) : List Datum :=
  (readAll? large? .int cells).getD (cells.map .text)

/-- The cells of a column. If numbers that fit in 64 bits only without a sign stand beside a minus
sign or a missing number, all cells stay texts as they are. -/
def column (cells : List String) : List Datum :=
  let present := cells.filter (!isMissing ·)
  let hasMissing := present.length < cells.length
  match signed present with
  | .ok numbers => if hasMissing then besideMissing numbers cells else numbers.map .int
  | .error .notWhole => notWhole cells
  | .error .outOfRange =>
    let withoutMinus := present.filter (!hasMinus ·)
    let hasSign := withoutMinus.length < present.length
    match unsigned withoutMinus with
    | .error .notWhole => notWhole cells
    | .error .outOfRange => large cells
    | .ok numbers =>
      let needsUnsigned := numbers.any (0x8000000000000000 ≤ ·)
      if needsUnsigned && (hasSign || hasMissing) then cells.map .text
      else if hasSign then large cells
      else numbers.map .int

end MarketFormula.Csv
