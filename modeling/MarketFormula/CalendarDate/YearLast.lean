import MarketFormula.CalendarDate.Basic
import MarketFormula.CalendarDate.TimeOfDay

/-!
# Dates with the year last

A year of four digits from 1000 on may follow month and day, in either order where that is clear, or
the month alone. Texts of this form have faults of their own.
-/
namespace MarketFormula.CalendarDate

open TimeOfDay (mark? number?)

def yearLastParts? (cs : List Char) : Option (Nat × Nat × Nat) := do
  let marks := ['/', '-', '.', ' ']
  let (first, rest) ← number? 1 2 cs
  let (_, rest) ← mark? marks rest
  let (second, rest) ← number? 1 2 rest
  let (_, rest) ← mark? marks rest
  let (year, rest) ← number? 4 4 rest
  if rest.isEmpty && 1000 ≤ year then some (first, second, year) else none

def monthYearParts? (cs : List Char) : Option (Nat × Nat) := do
  let (month, rest) ← number? 1 2 cs
  let (_, rest) ← mark? ['/', '-', ' '] rest
  let (year, rest) ← number? 4 4 rest
  if rest.isEmpty && 1000 ≤ year then some (month, year) else none

/-- Month and day before the year; a first number over 12 is the day. -/
def monthFirst (first second year : Nat) : CalendarDate :=
  if 12 < first then ⟨year, second, first⟩ else ⟨year, first, second⟩

def ofYearLast (first second year : Nat) : Except DataError CalendarDate :=
  let date := monthFirst first second year
  if first = 0 ∨ second = 0 ∨ 31 < first ∨ 31 < second ∨ (12 < first ∧ 12 < second) then
    .error (.unreadableDate s!"Invalid date specified ({first}/{second})")
  else if daysInMonth date.year date.month < date.day then .error .dayOutOfRange
  else .ok date

def ofMonthYear (month year : Nat) : Except DataError CalendarDate :=
  if month = 0 ∨ 31 < month then .error (.unreadableDate s!"Invalid date specified ({month}/1)")
  else if 12 < month then .error .monthOutOfRange
  else .ok ⟨year, month, 1⟩

def yearLast? (cs : List Char) : Option (Except DataError CalendarDate) :=
  (yearLastParts? cs).map (fun (first, second, year) => ofYearLast first second year) <|>
    (monthYearParts? cs).map fun (month, year) => ofMonthYear month year

end MarketFormula.CalendarDate
