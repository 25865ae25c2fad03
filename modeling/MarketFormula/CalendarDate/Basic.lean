import MarketFormula.Datum

/-!
# Calendar dates

Bars carry their day as the text `YYYY-MM-DD`. A day may be given as an instant in nanoseconds since
the start of 1970.
-/
namespace MarketFormula

structure CalendarDate where
  year : Nat
  month : Nat
  day : Nat
  deriving DecidableEq, Repr

namespace CalendarDate

def isLeapYear (year : Nat) : Bool :=
  year % 4 == 0 && (year % 100 != 0 || year % 400 == 0)

def daysInMonth (year month : Nat) : Nat :=
  match month with
  | 2 => if isLeapYear year then 29 else 28
  | 4 | 6 | 9 | 11 => 30
  | _ => 31

def rangeFault? (d : CalendarDate) : Option String :=
  if d.month = 0 ∨ 12 < d.month then some "month must be in 1..12"
  else if d.day = 0 ∨ daysInMonth d.year d.month < d.day then some "day is out of range for month"
  else none

def padded (width n : Nat) : String :=
  let digits := Nat.toDigits 10 n
  String.ofList (List.replicate (width - digits.length) '0' ++ digits)

def render (d : CalendarDate) : String :=
  toString d.year ++ "-" ++ padded 2 d.month ++ "-" ++ padded 2 d.day

/-- The date of a day counted from 1970-01-01. Years are taken to start in March, in cycles of
400 years. -/
def ofDayNumber (n : Int) : CalendarDate :=
  let shifted := n + 719468
  let cycle := shifted.fdiv 146097
  let dayOfCycle := (shifted - cycle * 146097).toNat
  let yearOfCycle :=
    (dayOfCycle - dayOfCycle / 1460 + dayOfCycle / 36524 - dayOfCycle / 146096) / 365
  let dayOfYear := dayOfCycle - (365 * yearOfCycle + yearOfCycle / 4 - yearOfCycle / 100)
  let monthFromMarch := (5 * dayOfYear + 2) / 153
  let day := dayOfYear - (153 * monthFromMarch + 2) / 5 + 1
  let month := if monthFromMarch < 10 then monthFromMarch + 3 else monthFromMarch - 9
  let year := (cycle * 400 + yearOfCycle).toNat + if month ≤ 2 then 1 else 0
  ⟨year, month, day⟩

def nanosecondsPerDay : Int := 86400000000000

/-- The day of an instant in nanoseconds since the start of 1970, which must fit in 64 bits; the
lowest number of 64 bits stands for no instant. A fault shows the instant as it was written. -/
def ofNanoseconds (n : Int) (written : String) : Except DataError CalendarDate :=
  if n = -0x8000000000000000 then .error .missingDate
  else if n < -0x8000000000000000 ∨ 0x8000000000000000 ≤ n then .error (.instantOutOfRange written)
  else .ok (ofDayNumber (n.fdiv nanosecondsPerDay))

end CalendarDate

end MarketFormula
