import MarketFormula.Datum
import MarketFormula.Text.LetterCase

/-!
# Log entries

An entry has a level, the part of the program that it comes from and a message. It is written if
its level is positive and reaches the threshold of the log.
-/
namespace MarketFormula.Log

structure Entry where
  level : Int
  source : String
  message : String
  deriving DecidableEq, Repr

def debug : Int := 10
def info : Int := 20
def warning : Int := 30
def error : Int := 40
def critical : Int := 50

def levels : List (String × Int) :=
  [("CRITICAL", critical), ("FATAL", critical), ("ERROR", error), ("WARNING", warning),
    ("WARN", warning), ("INFO", info), ("DEBUG", debug), ("NOTSET", 0)]

def levelName (level : Int) : String :=
  if level = critical then "CRITICAL"
  else if level = error then "ERROR"
  else if level = warning then "WARNING"
  else if level = info then "INFO"
  else if level = debug then "DEBUG"
  else if level = 0 then "NOTSET"
  else s!"Level {level}"

/-- The threshold that a setting stands for: a number, or a name in any letter case. An empty
setting asks for `info`. -/
def threshold (setting : Datum) : Except DataError Datum :=
  if !setting.isTruthy then .ok (.int info)
  else
    match setting with
    | .text name =>
      match levels.lookup (Text.upper name) with
      | some level => .ok (.int level)
      | none => .error (.unknownLevel (Text.upper name))
    | .int level => .ok (.int level)
    | .bool b => .ok (.bool b)
    | value => .error (.wrongType value.shape)

/-- Whether a level reaches a threshold; a truth value counts as zero or one. -/
def reaches (threshold : Datum) (level : Int) : Bool :=
  match threshold with
  | .int bound => bound ≤ level
  | .bool b => (if b then 1 else 0) ≤ level
  | _ => false

def written (threshold : Datum) (entries : List Entry) : List Entry :=
  entries.filter fun entry => 0 < entry.level && reaches threshold entry.level

def Entry.render (time : String) (entry : Entry) : String :=
  time ++ " [" ++ levelName entry.level ++ "] " ++ entry.source ++ ": " ++ entry.message

end MarketFormula.Log
