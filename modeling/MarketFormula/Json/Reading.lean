import MarketFormula.Datum
import MarketFormula.Text.CodePoint

/-!
# Reading JSON

A whole text is read as one value. Numbers without fraction and exponent are integers; the words
`NaN`, `Infinity` and `-Infinity` are accepted as numbers.
-/
namespace MarketFormula.Json

open Decimal (ofDigitParts digitsOf)

/-- A reader takes what it needs from the front of a text. -/
abbrev Reader (α : Type) := List Char → Except DataError (α × List Char)

def isSpace (c : Char) : Bool :=
  c == ' ' || c == '\t' || c == '\n' || c == '\r'

def skipSpace (cs : List Char) : List Char :=
  cs.dropWhile isSpace

def hexValue? (c : Char) : Option Nat :=
  let n := c.toNat
  if 0x30 ≤ n ∧ n ≤ 0x39 then some (n - 0x30)
  else if 0x61 ≤ n ∧ n ≤ 0x66 then some (n - 0x61 + 10)
  else if 0x41 ≤ n ∧ n ≤ 0x46 then some (n - 0x41 + 10)
  else none

def codeUnit? (cs : List Char) : Option (Nat × List Char) :=
  match cs.take 4 |>.mapM hexValue? with
  | some [a, b, c, d] => some (((a * 16 + b) * 16 + c) * 16 + d, cs.drop 4)
  | _ => none

/-- A code point written as one code unit, or as a pair of surrogates. -/
def escapedCodePoint? (cs : List Char) : Option (Nat × List Char) := do
  let (first, rest) ← codeUnit? cs
  match Text.isHighSurrogate first, rest with
  | true, '\\' :: 'u' :: more =>
    match codeUnit? more with
    | some (second, rest') =>
      if Text.isLowSurrogate second then return (Text.pairCodePoint first second, rest')
      else return (first, rest)
    | none => return (first, rest)
  | _, _ => return (first, rest)

def simpleEscape? : Char → Option Char
  | '\x22' => some '\x22'
  | '\\' => some '\\'
  | '/' => some '/'
  | 'b' => some '\x08'
  | 'f' => some '\x0c'
  | 'n' => some '\n'
  | 'r' => some '\r'
  | 't' => some '\t'
  | _ => none

/-- The characters of a string up to its closing quotation mark. Each step takes a character, so
the length of the text is fuel enough. -/
def stringTail : Nat → Reader (List Char)
  | 0, _ => .error .malformedJson
  | _ + 1, [] => .error .malformedJson
  | _ + 1, '\x22' :: rest => .ok ([], rest)
  | fuel + 1, '\\' :: rest =>
    let escaped? :=
      match rest with
      | 'u' :: more => (escapedCodePoint? more).map fun (n, more) => (Text.held n, more)
      | c :: more => (simpleEscape? c).map fun c => ([c], more)
      | [] => none
    match escaped? with
    | some (taken, more) => do
      let (cs, rest') ← stringTail fuel more
      return (taken ++ cs, rest')
    | none => .error .malformedJson
  | fuel + 1, c :: rest =>
    if c.toNat < 0x20 then .error .malformedJson
    else do
      let (cs, rest') ← stringTail fuel rest
      return (c :: cs, rest')

def string (cs : List Char) : Except DataError (String × List Char) := do
  let (chars, rest) ← stringTail (cs.length + 1) cs
  return (String.ofList chars, rest)

/-- Digits after a point, if there are any; otherwise nothing is taken. -/
def fractionPart : List Char → Option (List Char) × List Char
  | '.' :: rest =>
    match rest.takeWhile Char.isDigit with
    | [] => (none, '.' :: rest)
    | digits => (some digits, rest.dropWhile Char.isDigit)
  | rest => (none, rest)

def exponentPart (cs : List Char) : Option Int × List Char :=
  match cs with
  | mark :: rest =>
    if mark = 'e' ∨ mark = 'E' then
      let (negative, tail) := Decimal.splitSign rest
      match tail.takeWhile Char.isDigit with
      | [] => (none, cs)
      | digits =>
        let n : Int := Text.ofDigits (digitsOf digits)
        (some (if negative then -n else n), tail.dropWhile Char.isDigit)
    else (none, cs)
  | [] => (none, cs)

/-- An unsigned number whose digits before the point are given. -/
def numberFrom (negative : Bool) (whole rest : List Char) : Except DataError (Datum × List Char) :=
  let (fraction?, afterFraction) := fractionPart rest
  let (exponent?, afterExponent) := exponentPart afterFraction
  if fraction?.isNone && exponent?.isNone then
    if Decimal.maxIntegerDigits < whole.length then .error (.integerTooLong whole.length)
    else
      let n : Int := Text.ofDigits (digitsOf whole)
      .ok (.int (if negative then -n else n), rest)
  else
    let x := ofDigitParts (digitsOf whole) (digitsOf (fraction?.getD [])) (exponent?.getD 0)
    .ok (.float (if negative then -x else x), afterExponent)

def number (negative : Bool) (cs : List Char) : Except DataError (Datum × List Char) :=
  match cs with
  | '0' :: rest => numberFrom negative ['0'] rest
  | c :: _ =>
    if c.isDigit then numberFrom negative (cs.takeWhile Char.isDigit) (cs.dropWhile Char.isDigit)
    else .error .malformedJson
  | [] => .error .malformedJson

def scalar (cs : List Char) : Except DataError (Datum × List Char) :=
  match cs with
  | 'n' :: 'u' :: 'l' :: 'l' :: rest => .ok (.null, rest)
  | 't' :: 'r' :: 'u' :: 'e' :: rest => .ok (.bool true, rest)
  | 'f' :: 'a' :: 'l' :: 's' :: 'e' :: rest => .ok (.bool false, rest)
  | 'N' :: 'a' :: 'N' :: rest => .ok (.float Decimal.nan, rest)
  | 'I' :: 'n' :: 'f' :: 'i' :: 'n' :: 'i' :: 't' :: 'y' :: rest => .ok (.float Decimal.infinity, rest)
  | '-' :: 'I' :: 'n' :: 'f' :: 'i' :: 'n' :: 'i' :: 't' :: 'y' :: rest =>
    .ok (.float (-Decimal.infinity), rest)
  | '-' :: rest => number true rest
  | rest => number false rest

/-- Sets a field, at its old place if the name is already there. -/
def setField (key : String) (value : Datum) :
    List (String × Datum) → List (String × Datum)
  | [] => [(key, value)]
  | field :: fields =>
    if field.1 = key then (key, value) :: fields else field :: setField key value fields

mutual

/-- A value after optional space, within so many more levels of lists and records. Every call takes
at least one character or ends, so twice the length of the text is fuel enough. -/
def value (levels : Nat) : Nat → Reader Datum
  | 0, _ => .error .malformedJson
  | fuel + 1, cs =>
    match skipSpace cs, levels with
    | '\x22' :: rest, _ => do
      let (s, rest') ← string rest
      return (.text s, rest')
    | '[' :: _, 0 => .error .nestedTooDeeply
    | '\x7b' :: _, 0 => .error .nestedTooDeeply
    | '[' :: rest, levels + 1 =>
      match skipSpace rest with
      | ']' :: rest' => .ok (.list [], rest')
      | rest' => do
        let (items, rest'') ← items levels fuel rest'
        return (.list items, rest'')
    | '\x7b' :: rest, levels + 1 =>
      match skipSpace rest with
      | '\x7d' :: rest' => .ok (.record [], rest')
      | rest' => do
        let (fields, rest'') ← fields levels fuel [] rest'
        return (.record fields, rest'')
    | rest, _ => scalar rest

def items (levels : Nat) : Nat → Reader (List Datum)
  | 0, _ => .error .malformedJson
  | fuel + 1, cs => do
    let (item, rest) ← value levels fuel cs
    match skipSpace rest with
    | ',' :: rest' => do
      let (more, rest'') ← items levels fuel rest'
      return (item :: more, rest'')
    | ']' :: rest' => return ([item], rest')
    | _ => .error .malformedJson

def fields (levels : Nat) : Nat → List (String × Datum) → Reader (List (String × Datum))
  | 0, _, _ => .error .malformedJson
  | fuel + 1, read, cs =>
    match skipSpace cs with
    | '\x22' :: rest => do
      let (key, rest) ← string rest
      match skipSpace rest with
      | ':' :: rest => do
        let (item, rest) ← value levels fuel rest
        let read := setField key item read
        match skipSpace rest with
        | ',' :: rest => fields levels fuel read rest
        | '\x7d' :: rest => return (read, rest)
        | _ => .error .malformedJson
      | _ => .error .malformedJson
    | _ => .error .malformedJson

end

def readWithin (levels : Nat) (s : String) : Except DataError Datum := do
  let (datum, rest) ← value levels (2 * s.length + 1) s.toList
  if (skipSpace rest).isEmpty then return datum else .error .malformedJson

/-- Levels of lists and records that a file may have. -/
def maxLevels : Nat := 987

def read (s : String) : Except DataError Datum :=
  readWithin maxLevels s

end MarketFormula.Json
