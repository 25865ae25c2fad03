import MarketFormula.Datum

/-!
# Daily bars

A bar is the quote of one day: opening, highest, lowest and closing price and the volume traded.
Quotes may hold numbers or data that still have to be read as numbers.
-/
namespace MarketFormula

inductive Field
  | opening
  | high
  | low
  | close
  | volume
  deriving DecidableEq, Repr

namespace Field

def all : List Field :=
  [opening, high, low, close, volume]

def name : Field → String
  | opening => "open"
  | high => "high"
  | low => "low"
  | close => "close"
  | volume => "volume"

/-- The letter that stands for a field in formulas. -/
def letter : Field → String
  | opening => "O"
  | high => "H"
  | low => "L"
  | close => "C"
  | volume => "V"

theorem mem_all (field : Field) : field ∈ all := by
  cases field <;> decide

end Field

structure Quote (α : Type) where
  opening : α
  high : α
  low : α
  close : α
  volume : α
  deriving DecidableEq, Repr

namespace Quote

def get {α : Type} (q : Quote α) : Field → α
  | .opening => q.opening
  | .high => q.high
  | .low => q.low
  | .close => q.close
  | .volume => q.volume

/-- Makes each field in turn, in the order of `Field.all`. -/
def make {α : Type} {m : Type → Type} [Monad m] (f : Field → m α) : m (Quote α) := do
  let opening ← f .opening
  let high ← f .high
  let low ← f .low
  let close ← f .close
  let volume ← f .volume
  return ⟨opening, high, low, close, volume⟩

end Quote

structure Bar (α : Type) extends Quote α where
  date : String
  deriving DecidableEq, Repr

class ToFloat (α : Type) where
  toFloat : α → Except DataError Float

instance : ToFloat Float where
  toFloat := .ok

instance : ToFloat Datum where
  toFloat := Datum.toFloat

def Quote.read {α : Type} [ToFloat α] (q : Quote α) : Except DataError (Quote Float) :=
  make fun field => ToFloat.toFloat (q.get field)

theorem Quote.read_float (q : Quote Float) : q.read = .ok q := rfl

def Bar.read {α : Type} [ToFloat α] (bar : Bar α) : Except DataError (Bar Float) := do
  let quote ← bar.toQuote.read
  return ⟨quote, bar.date⟩

end MarketFormula
