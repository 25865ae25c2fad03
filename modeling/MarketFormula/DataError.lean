import MarketFormula.Text.Quoted

/-!
# Faults of input data

Everything that can be wrong with records, tables, files and settings, apart from the formula
itself.
-/
namespace MarketFormula

inductive Shape
  | null
  | bool
  | int
  | float
  | text
  | list
  | record
  deriving DecidableEq, Repr

def Shape.name : Shape → String
  | null => "NoneType"
  | bool => "bool"
  | int => "int"
  | float => "float"
  | text => "str"
  | list => "list"
  | record => "dict"

/-- The families of faults that a caller may tell apart. -/
inductive FaultFamily
  | system
  | lookup
  | value
  | other
  deriving DecidableEq, Repr

inductive DataError
  /-- A value of a type that the operation does not take. -/
  | wrongType (shape : Shape)
  | unreadableNumber (text : String)
  | integerTooLarge
  | integerTooLong (digits : Nat)
  | missingDate
  | instantOutOfRange (instant : String)
  | unreadableDate (reason : String)
  | unlikelyDate (text : String)
  | monthOutOfRange
  | dayOutOfRange
  | zoneOutOfRange (text : String)
  /-- Days of the year 0 have no written form. -/
  | yearZero
  | missingKey (key : String)
  | missingField (field : String) (accepted : List String)
  | missingColumns (names : List String)
  | noDateColumn
  | columnExists (name : String)
  | columnCount (named given : Nat)
  /-- No series under a code, which is given as it is shown. -/
  | noSeries (code : String)
  /-- A list or a record in the place of a name. -/
  | unusableKey (shape : Shape)
  | noSuchBar
  | indexTooLarge
  | noSuchEntry
  | windowBelowOne (window : Int)
  | windowTooLarge
  | unknownLevel (name : String)
  | malformedJson
  | nestedTooDeeply
  | emptyTable
  | malformedTable (reason : String)
  | fileNotFound (path : String)
  | fileIsDirectory (path : String)
  | notDirectory (path : String)
  | unwritable (directory : String)
  /-- A path or the name of one of its steps is too long. -/
  | nameTooLong (path : String)
  | zeroByte
  /-- Surrogates where bytes are needed. -/
  | straySurrogates (run : Text.SurrogateRun)
  /-- A fault of a library, with its message as it is shown. -/
  | foreign (family : FaultFamily) (message : String)
  deriving DecidableEq, Repr

namespace DataError

open Text (quote quoteAll)

def family : DataError → FaultFamily
  | missingKey _ | missingField .. | missingColumns _ | noDateColumn | noSeries _ => .lookup
  | fileNotFound _ | fileIsDirectory _ | notDirectory _ | unwritable _ | nameTooLong _ => .system
  | wrongType _ | unusableKey _ | integerTooLarge | windowTooLarge | yearZero | noSuchBar
  | indexTooLarge | noSuchEntry | nestedTooDeeply => .other
  | foreign family _ => family
  | _ => .value

def detail : DataError → String
  | wrongType shape => "unsupported type: '" ++ shape.name ++ "'"
  | unreadableNumber text => "could not convert string to float: " ++ quote text
  | integerTooLarge => "int too large to convert to float"
  | integerTooLong digits =>
    s!"Exceeds the limit (4300 digits) for integer string conversion: value has {digits} digits; " ++
      "use sys.set_int_max_str_digits() to increase the limit"
  | missingDate => "NaTType does not support strftime"
  | instantOutOfRange instant => "Out of bounds timestamp " ++ instant
  | unreadableDate reason => reason
  | unlikelyDate text => "Given date string \x22" ++ text ++ "\x22 not likely a datetime"
  | monthOutOfRange => "month must be in 1..12"
  | dayOutOfRange => "day is out of range for month"
  | zoneOutOfRange text =>
    "Parsed string \x22" ++ text ++ "\x22 gives an invalid tzoffset, which must be between " ++
      "-timedelta(hours=24) and timedelta(hours=24)"
  | yearZero => "year 0 has no written form"
  | missingKey key => key
  | missingField field accepted =>
    "record is missing '" ++ field ++ "' (accepted keys: " ++ ", ".intercalate accepted ++ ")"
  | missingColumns names => "frame is missing required columns: " ++ quoteAll names
  | noDateColumn => "['date'] not in index"
  | columnCount named given => s!"{named} columns passed, passed data had {given} columns"
  | columnExists name => "cannot insert " ++ name ++ ", already exists"
  | noSeries code => "no data for code " ++ code
  | unusableKey shape => "unhashable type: '" ++ shape.name ++ "'"
  | noSuchBar => "tuple index out of range"
  | indexTooLarge => "cannot fit 'int' into an index-sized integer"
  | noSuchEntry => "single positional indexer is out-of-bounds"
  | windowBelowOne window => s!"window must be >= 1, got {window}"
  | windowTooLarge => "Python int too large to convert to C long"
  | unknownLevel name => "Unknown level: " ++ quote name
  | malformedJson => "malformed JSON"
  | nestedTooDeeply => "JSON nested too deeply"
  | emptyTable => "No columns to parse from file"
  | malformedTable reason => reason
  | fileNotFound path => "[Errno 2] No such file or directory: " ++ quote path
  | fileIsDirectory path => "[Errno 21] Is a directory: " ++ quote path
  | notDirectory path => "[Errno 20] Not a directory: " ++ quote path
  | unwritable directory =>
    "Cannot save file into a non-existent directory: " ++ quote directory
  | nameTooLong path => "[Errno 36] File name too long: " ++ quote path
  | zeroByte => "embedded null byte"
  | straySurrogates run =>
    let place :=
      if run.count = 1 then
        "character '" ++ String.ofList (Text.escapeCode run.first) ++ s!"' in position {run.start}"
      else s!"characters in position {run.start}-{run.start + run.count - 1}"
    "'utf-8' codec can't encode " ++ place ++ ": surrogates not allowed"
  | foreign _ message => message

/-- A fault about a missing key shows the key in quotation marks. -/
def message : DataError → String
  | foreign _ message => message
  | e => if e.family = .lookup then quote e.detail else e.detail

end DataError

end MarketFormula
