import MarketFormula.CalendarDate.Loose
import MarketFormula.CalendarDate.Standard
import MarketFormula.CalendarDate.YearLast

/-!
# Reading calendar dates

Days arrive as texts in a few common forms, with or without a time of day, or as instants; the local
day as written counts, whatever the time zone. Days of the year 0 can be read but not written.
-/
namespace MarketFormula.CalendarDate

/-- Whether a text is more like a number or a half of the day than like a date. -/
def isUnlikely (s : String) : Bool :=
  let (negative, cs) := Decimal.splitSign (Text.strip Text.isPlainBlank s.toList)
  !s.startsWith "0" &&
    (["a", "A", "m", "M", "p", "P", "t", "T"].contains s ||
      (Decimal.unsigned? cs).any fun x => negative || x < 1000)

def missingTexts : List String :=
  ["", "NaT", "nat", "NAT", "nan", "NaN", "NAN"]

/-- The date of a text. A text in no exact form is read as numbers in any order. -/
def ofText (s : String) : Except DataError CalendarDate :=
  if missingTexts.contains s then .error .missingDate
  else if let some run := Text.surrogateRun? (fun _ => false) (Text.codePoints s.toList) then
    .error (.straySurrogates run)
  else if let some date := standard? s.toList then
    if date.year = 0 then .error .yearZero else .ok date
  else if isUnlikely s then .error (.unlikelyDate s)
  else
    match yearLast? s.toList <|> loose? s with
    | some result => result
    | none => .error (.unreadableDate ("Unknown datetime string format, unable to parse: " ++ s))

def ofDatum : Datum → Except DataError CalendarDate
  | .null => .error .missingDate
  | .int n => ofNanoseconds n (toString n)
  | .float x =>
    if x.isNaN then .error .missingDate
    else if x.isInf then .error (.instantOutOfRange (Decimal.text x))
    else ofNanoseconds (Decimal.truncate x) (Decimal.text x)
  | .text s => ofText s
  | value => .error (.wrongType value.shape)

def read (value : Datum) : Except DataError String :=
  (ofDatum value).map render

end MarketFormula.CalendarDate
