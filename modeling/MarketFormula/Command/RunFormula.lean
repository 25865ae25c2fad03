import MarketFormula.Command.Options
import MarketFormula.Command.Outcome
import MarketFormula.Evaluation.Progress
import MarketFormula.Json.Writing
import MarketFormula.Market.Library
import MarketFormula.Settings

/-!
# Testing one formula

The command reads daily bars from a file, evaluates a formula on the most recent ones and prints the
result. On request it writes the signal of every bar to another file.
-/
namespace MarketFormula.Command.RunFormula

structure Options where
  csv : String
  formula : String
  count : Int
  exportSignals : Option String
  logLevel : String
  deriving Repr

def specs : List OptionSpec :=
  [⟨"--csv", true, false⟩, ⟨"--formula", true, false⟩, ⟨"--count", false, true⟩,
    ⟨"--export-signals", false, false⟩, ⟨"--log-level", false, false⟩]

def Options.read (settings : Settings) (arguments : List String) : Except Refusal Options := do
  let g ← readOptions specs arguments
  return {
    csv := (g.text? "--csv").getD ""
    formula := (g.text? "--formula").getD ""
    count := (g.integer? "--count").getD settings.testBarCount
    exportSignals := (g.text? "--export-signals").filter (!·.isEmpty)
    logLevel := (g.text? "--log-level").getD settings.logLevel }

section

variable {F : Type} (library : Library F)

def load (files : F) (path : String) (count : Int) : Except DataError (Series Float) := do
  let table ← library.readTable files path
  let series ← table.toSeries library.readDate
  return series.tail count

def printResult (result : TriggerResult) : String :=
  Json.writeBlock [("triggered", .bool result.triggered), ("index", .int result.index),
    ("date", .text result.date), ("explain", .text result.explanation)]

/-- The signal of every bar as one or zero, labelled with its date. -/
def signalColumn (dates : List String) (signal : List Bool) : LabelledColumn :=
  ⟨"date", "signal", dates.zip (signal.map fun b => if b then 1 else 0)⟩

def evaluate (series : Series Float) (options : Options) :
    Except Fault (TriggerResult × Option (List Bool)) := do
  let result ← series.evaluate (.text options.formula)
  match options.exportSignals with
  | some _ => return (result, some (← series.signal (.text options.formula)))
  | none => return (result, none)

def log (series : Series Float) (options : Options) : List Log.Entry :=
  let formula := Datum.text options.formula
  series.evaluationLog formula ++
    if options.exportSignals.isSome && (series.evaluate formula).toOption.isSome then
      series.signalLog formula
    else []

/-- Prints a result and writes the signal file if it is asked for. -/
def report (files : F) (options : Options) (series : Series Float)
    (entries : List Line) (result : TriggerResult) (signal? : Option (List Bool)) :
    Except DataError (Outcome F) :=
  let lines := entries ++ [.text (printResult result)]
  match options.exportSignals, signal? with
  | some path, some signal => do
    let files ← library.writeColumn files path (signalColumn series.dates signal)
    return ⟨0, lines ++ [.text ("Signals exported to " ++ path)], files⟩
  | _, _ => .ok ⟨0, lines, files⟩

/-- Runs the command; faults that bad data cannot cause end it without an outcome. -/
def execute (files : F) (options : Options) : Except DataError (Outcome F) := do
  let threshold ← Log.threshold (.text options.logLevel)
  match load library files options.csv options.count with
  | .error e =>
    if e.family = .other then .error e
    else
      return ⟨1, [.text ("ERROR: could not load bars from " ++ options.csv ++ ": " ++ e.message)],
        files⟩
  | .ok series =>
    let entries := (Log.written threshold (log series options)).map .entry
    match evaluate series options with
    | .ok (result, signal?) => report library files options series entries result signal?
    | .error (.formula e) =>
      return ⟨2, entries ++ [.text ("ERROR: formula error: " ++ e.message)], files⟩
    | .error (.data e) => .error e

def run (settings : Settings) (files : F) (arguments : List String) :
    Except DataError (Outcome F) :=
  match Options.read settings arguments with
  | .ok options => execute library files options
  | .error refusal => .ok (.refused files refusal)

end

end MarketFormula.Command.RunFormula
