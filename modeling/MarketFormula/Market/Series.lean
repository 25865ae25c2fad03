import MarketFormula.Market.Bar

/-!
# Series of bars

The bars of one security in ascending order of date, and the frame of numbers that formulas are
evaluated over.
-/
namespace MarketFormula

abbrev Series (α : Type) := List (Bar α)

/-- The quotes of a series as numbers, one for each bar. -/
abbrev Frame := List (Quote Float)

def Frame.column (frame : Frame) (field : Field) : List Float :=
  frame.map (·.get field)

/-- An entry by its place, counted from the end if negative. -/
def entryAt? {α : Type} (entries : List α) (i : Int) : Option α :=
  if 0 ≤ i then entries[i.toNat]?
  else if -i ≤ entries.length then entries[(entries.length + i).toNat]?
  else none

namespace Series

variable {α : Type}

/-- The most recent `count` bars. -/
def tail (s : Series α) (count : Int) : Series α :=
  s.drop (s.length - count.toNat)

/-- The bar at a place, which must fit in 64 bits. -/
def get (s : Series α) (i : Int) : Except DataError (Bar α) :=
  match entryAt? s i with
  | some bar => .ok bar
  | none =>
    .error (if -0x8000000000000000 ≤ i ∧ i < 0x8000000000000000 then .noSuchBar else .indexTooLarge)

def dates (s : Series α) : List String :=
  s.map (·.date)

/-- The numbers of all bars. Fields are read column by column, so the first fault is that of the
first column with one. -/
def toFrame [ToFloat α] (s : Series α) : Except DataError Frame := do
  Field.all.forM fun field => s.forM fun bar => discard (ToFloat.toFloat (bar.get field))
  s.mapM (·.toQuote.read)

def read [ToFloat α] (s : Series α) : Except DataError (Series Float) :=
  s.mapM Bar.read

theorem length_tail (s : Series α) (count : Int) :
    (tail s count).length = min count.toNat s.length := by
  simp only [tail, List.length_drop]
  omega

end Series

end MarketFormula
