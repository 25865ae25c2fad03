import MarketFormula.Decimal.Reading

/-!
# Times of day

Dates may be followed by a time of day and a distance to universal time. The time has colons or none
and may end after any of its parts.
-/
namespace MarketFormula

/-- A distance to universal time. -/
structure Zone where
  hours : Nat
  minutes : Nat
  deriving DecidableEq, Repr

structure TimeOfDay where
  hour : Nat
  minute : Nat
  second : Nat
  zone : Zone
  deriving DecidableEq, Repr

namespace TimeOfDay

def ofDigits (digits : List Char) : Nat :=
  Text.ofDigits (Decimal.digitsOf digits)

/-- A number of between `least` and `most` digits at the front of a text. -/
def number? (least most : Nat) (cs : List Char) : Option (Nat × List Char) :=
  let digits := cs.takeWhile Char.isDigit
  if least ≤ digits.length ∧ digits.length ≤ most then
    some (ofDigits digits, cs.dropWhile Char.isDigit)
  else none

def mark? (marks : List Char) : List Char → Option (Char × List Char)
  | c :: rest => if marks.contains c then some (c, rest) else none
  | [] => none

def oneOrTwo? (cs : List Char) : Option (Nat × List Char) :=
  match (cs.take 2).takeWhile Char.isDigit with
  | [] => none
  | digits => some (ofDigits digits, cs.drop digits.length)

/-- Nothing, the letter of universal time, or hours and minutes of distance to it. -/
def zone? (cs : List Char) : Option Zone := do
  match Text.strip Text.isPlainBlank cs with
  | [] => return ⟨0, 0⟩
  | ['Z'] => return ⟨0, 0⟩
  | sign :: rest =>
    if sign == '+' || sign == '-' then
      match ← oneOrTwo? rest with
      | (hours, []) => return ⟨hours, 0⟩
      | (hours, rest) =>
        let (minutes, rest) ← oneOrTwo? (((mark? [':'] rest).map (·.2)).getD rest)
        if rest.isEmpty then return ⟨hours, minutes⟩ else none
    else none

def fractionTail : List Char → List Char
  | '.' :: rest => rest.dropWhile Char.isDigit
  | rest => rest

/-- Hours, perhaps minutes and perhaps seconds with colons between them. -/
def spaced? (cs : List Char) : Option TimeOfDay := do
  let (hour, rest) ← number? 1 2 cs
  match mark? [':'] rest with
  | some (_, rest) =>
    let (minute, rest) ← number? 1 2 rest
    match mark? [':'] rest with
    | some (_, rest) =>
      let (second, rest) ← number? 1 2 rest
      return ⟨hour, minute, second, ← zone? (fractionTail rest)⟩
    | none => return ⟨hour, minute, 0, ← zone? rest⟩
  | none =>
    let (hour, rest) ← number? 2 2 cs
    return ⟨hour, 0, 0, ← zone? rest⟩

/-- Hours, minutes and perhaps seconds of two digits each. -/
def compact? (cs : List Char) : Option TimeOfDay :=
  let minutes? := do
    let (n, rest) ← number? 4 4 cs
    return ⟨n / 100, n % 100, 0, ← zone? rest⟩
  let seconds? := do
    let (n, rest) ← number? 6 6 cs
    return ⟨n / 10000, n / 100 % 100, n % 100, ← zone? (fractionTail rest)⟩
  minutes? <|> seconds?

def read? (cs : List Char) : Option TimeOfDay :=
  spaced? cs <|> compact? cs

def midnight : TimeOfDay :=
  ⟨0, 0, 0, ⟨0, 0⟩⟩

def rangeFault? (t : TimeOfDay) : Option String :=
  if 23 < t.hour then some "hour must be in 0..23"
  else if 59 < t.minute then some "minute must be in 0..59"
  else if 59 < t.second then some "second must be in 0..59"
  else none

end TimeOfDay

end MarketFormula
