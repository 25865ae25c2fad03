import MarketFormula.Market.Series

/-!
# Series from records

A record names its date and numbers by long names, by single letters or in Chinese; the first
accepted name that is present counts. The bars are sorted by date, and bars of one date keep their
order.
-/
namespace MarketFormula

/-- The text of the day that a value stands for, as a library of dates reads it. -/
abbrev DateReader := Datum → Except DataError String

def dateKeys : List String :=
  ["date", "t", "日期"]

def Field.keys : Field → List String
  | opening => ["open", "o", "开盘"]
  | high => ["high", "h", "最高"]
  | low => ["low", "l", "最低"]
  | close => ["close", "c", "收盘"]
  | volume => ["volume", "v", "成交量"]

namespace Datum

/-- Whether a key occurs in a value: as a name of a record, an item of a list, a part of a text. -/
def mentions : Datum → String → Bool
  | .record fields, key => (fields.lookup key).isSome
  | .list items, key => items.any fun item => match item with
    | .text s => s == key
    | _ => false
  | .text s, key => 1 < (s.splitOn key).length
  | _, _ => false

/-- The value of the first key that is present. Lists and texts can mention a key but have no values
for it. -/
def pick (record : Datum) (field : String) (keys : List String) : Except DataError Datum :=
  match record with
  | .record _ | .list _ | .text _ =>
    match keys.find? record.mentions with
    | some key =>
      match record.field? key with
      | some value => .ok value
      | none => .error (.wrongType record.shape)
    | none => .error (.missingField field keys)
  | _ => .error (.wrongType record.shape)

/-- The bar of a record. Its date is read first and then its numbers from left to right. -/
def toBar (readDate : DateReader) (record : Datum) : Except DataError (Bar Float) := do
  let date ← readDate (← record.pick "date" dateKeys)
  let quote ← Quote.make fun field => do
    let value ← record.pick field.name field.keys
    value.toFloat
  return ⟨quote, date⟩

end Datum

namespace Series

def sortByDate {α : Type} (s : Series α) : Series α :=
  s.mergeSort fun a b => a.date ≤ b.date

def ofRecords (readDate : DateReader) (records : List Datum) : Except DataError (Series Float) := do
  let bars ← records.mapM (Datum.toBar readDate)
  return sortByDate bars

end Series

end MarketFormula
