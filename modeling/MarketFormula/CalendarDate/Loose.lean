import MarketFormula.CalendarDate.Basic
import MarketFormula.CalendarDate.TimeOfDay

/-!
# Dates of numbers in any order

A date that is in no exact form is read from up to three numbers. Their sizes tell which of them are
year, month and day; what is left out is the first year, month or day.
-/
namespace MarketFormula.CalendarDate

open TimeOfDay (mark? number? ofDigits)

structure Part where
  value : Nat
  /-- Whether the number is written as a year with its century. -/
  isYear : Bool
  deriving DecidableEq, Repr

namespace Part

/-- A number that a mark other than a space joins to another one. Three digits make a year. -/
def joined (digits : List Char) : Part :=
  ⟨ofDigits digits, 2 < digits.length⟩

/-- A number that stands by itself. A value over 100 makes a year. -/
def single (digits : List Char) : Part :=
  ⟨ofDigits digits, 100 < ofDigits digits⟩

def read (isJoined : Bool) (digits : List Char) : Part :=
  if isJoined then joined digits else single digits

end Part

def digitRun? (cs : List Char) : Option (List Char × List Char) :=
  let digits := cs.takeWhile Char.isDigit
  if 1 ≤ digits.length ∧ digits.length ≤ 5 then some (digits, cs.dropWhile Char.isDigit) else none

/-- Three numbers. A point between two numbers only would make them one. -/
def threeParts? (cs : List Char) : Option (List Part × List Char) := do
  let marks := ['-', '/', '.', ' ']
  let (first, rest) ← digitRun? cs
  let (mark, rest) ← mark? marks rest
  let (second, rest) ← digitRun? rest
  let (mark', rest) ← mark? marks rest
  let (third, rest) ← digitRun? rest
  if (mark == '.') != (mark' == '.') then none
  else
    return ([.read (mark != ' ') first, .read (mark != ' ' || mark' != ' ') second,
      .read (mark' != ' ' && (mark == ' ' || mark == mark')) third], rest)

def twoParts? (cs : List Char) : Option (List Part × List Char) := do
  let (first, rest) ← digitRun? cs
  let (mark, rest) ← mark? ['-', '/', ' '] rest
  let (second, rest) ← digitRun? rest
  if rest.isEmpty then return ([.read (mark != ' ') first, .read (mark != ' ') second], [])
  else none

/-- One number, or three in one run of six or eight digits. -/
def runParts? (cs : List Char) : Option (List Part × List Char) :=
  let digits := cs.takeWhile Char.isDigit
  let rest := cs.dropWhile Char.isDigit
  let cut (start count : Nat) : Part := .joined ((digits.drop start).take count)
  match digits.length with
  | 6 => some ([cut 0 2, cut 2 2, cut 4 2], rest)
  | 8 => some ([cut 0 4, cut 4 2, cut 6 2], rest)
  | 1 | 2 | 3 | 4 | 5 | 7 | 9 => if rest.isEmpty then some ([.single digits], []) else none
  | _ => none

/-- A year without a century lies between 1976 and 2075. -/
def withCentury (year : Nat) : Nat :=
  if year < 76 then 2000 + year else if year < 100 then 1900 + year else year

def arrange (parts : List Part) : Option CalendarDate :=
  let year (n : Nat) : Nat := if parts.any (·.isYear) then n else withCentury n
  if 1 < parts.countP (·.isYear) then none
  else
    match parts with
    | [first] =>
      if 31 < first.value then some ⟨year first.value, 1, 1⟩ else some ⟨1, 1, first.value⟩
    | [first, second] =>
      if 31 < first.value then some ⟨year first.value, second.value, 1⟩
      else if 31 < second.value then some ⟨year second.value, first.value, 1⟩
      else some ⟨1, first.value, second.value⟩
    | [first, second, third] =>
      if 31 < first.value ∨ first.isYear then
        some ⟨year first.value, second.value, third.value⟩
      else if 12 < first.value then some ⟨year third.value, second.value, first.value⟩
      else some ⟨year third.value, first.value, second.value⟩
    | _ => none

def looseTimeAfter? (cs : List Char) : Option TimeOfDay := do
  if cs.isEmpty then return .midnight
  let (_, rest) ← mark? ['T', ' '] cs
  let rest := rest.dropWhile Text.isPlainBlank
  if rest.isEmpty then return .midnight else TimeOfDay.read? rest

def looseParts? (cs : List Char) : Option (CalendarDate × TimeOfDay) := do
  let (parts, rest) ← threeParts? cs <|> twoParts? cs <|> runParts? cs
  return (← arrange parts, ← looseTimeAfter? rest)

def looseFault? (d : CalendarDate) (t : TimeOfDay) : Option String :=
  if d.year = 0 ∨ 9999 < d.year then some s!"year {d.year} is out of range"
  else d.rangeFault? <|> t.rangeFault?

/-- The date of a text of numbers. The minutes of a zone may exceed an hour as long as the zone
stays within a day. -/
def loose? (s : String) : Option (Except DataError CalendarDate) := do
  let (date, time) ← looseParts? (Text.strip Text.isPlainBlank s.toList)
  match looseFault? date time with
  | some fault => return .error (.unreadableDate (fault ++ ": " ++ s))
  | none =>
    if 24 * 60 ≤ time.zone.hours * 60 + time.zone.minutes then return .error (.zoneOutOfRange s)
    else return .ok date

end MarketFormula.CalendarDate
