import MarketFormula.CalendarDate.Basic
import MarketFormula.CalendarDate.TimeOfDay

/-!
# Dates with the year first

The standard form of a date is a year of four digits, the month and the day, with equal marks
between them or none, and perhaps a time of day. Month and day, or the day, may be left out.
-/
namespace MarketFormula.CalendarDate

open TimeOfDay (mark? number?)

def marks : List Char :=
  ['-', '/', '.', ' ', '\\']

def yearFirst? (cs : List Char) : Option (CalendarDate × List Char) := do
  let (year, rest) ← number? 4 4 cs
  let (mark, rest) ← mark? marks rest
  let (month, rest) ← number? 1 2 rest
  let (_, rest) ← mark? [mark] rest
  let (day, rest) ← number? 1 2 rest
  return (⟨year, month, day⟩, rest)

def eightDigits? (cs : List Char) : Option (CalendarDate × List Char) := do
  let (n, rest) ← number? 8 8 cs
  return (⟨n / 10000, n / 100 % 100, n % 100⟩, rest)

/-- The first day of a month or of a year. -/
def dayless? (cs : List Char) : Option CalendarDate := do
  let (year, rest) ← number? 4 4 cs
  if rest.isEmpty then return ⟨year, 1, 1⟩
  let (_, rest) ← mark? marks rest
  let (month, rest) ← number? 1 2 rest
  if rest.isEmpty then return ⟨year, month, 1⟩ else none

def timeAfter? (cs : List Char) : Option TimeOfDay := do
  if cs.isEmpty then return .midnight
  let (_, rest) ← mark? ['T', ' '] cs
  TimeOfDay.read? rest

def standardParts? (cs : List Char) : Option (CalendarDate × TimeOfDay) :=
  let dated? := do
    let (date, rest) ← yearFirst? cs <|> eightDigits? cs
    return (date, ← timeAfter? rest)
  dated? <|> (dayless? cs).map (·, .midnight)

def standard? (cs : List Char) : Option CalendarDate := do
  let (date, time) ← standardParts? (cs.dropWhile Text.isPlainBlank)
  if date.rangeFault?.isNone && time.rangeFault?.isNone && time.zone.hours < 24 &&
      time.zone.minutes < 60 then
    some date
  else none

end MarketFormula.CalendarDate
