import MarketFormula.Command.Options
import MarketFormula.Command.Outcome
import MarketFormula.FileTree
import MarketFormula.Market.Library
import MarketFormula.Rules.Sweep
import MarketFormula.Settings

/-!
# Checking all rules

The command reads rules from a file and daily bars from the tables in a directory, one for each
security and named by its code. It checks every enabled rule and prints the alerts and the failures.
-/
namespace MarketFormula.Command

/-- The tables of the files in a directory that hold comma-separated text, by code. -/
def readTables (library : Library FileTree) (files : FileTree) (directory : String) :
    Except DataError (List (String × Table)) := do
  (← files.entries directory ".csv").mapM fun name => do
    let path := if directory.isEmpty then name else directory ++ "/" ++ name
    return (FileTree.stem name, ← library.readTable files path)

namespace CheckRules

structure Options where
  rules : String
  dataDirectory : String
  count : Int
  workers : Int
  logLevel : String
  deriving Repr

def specs : List OptionSpec :=
  [⟨"--rules", true, false⟩, ⟨"--data-dir", true, false⟩, ⟨"--count", false, true⟩,
    ⟨"--workers", false, true⟩, ⟨"--log-level", false, false⟩]

def Options.read (settings : Settings) (arguments : List String) : Except Refusal Options := do
  let g ← readOptions specs arguments
  return {
    rules := (g.text? "--rules").getD ""
    dataDirectory := (g.text? "--data-dir").getD ""
    count := (g.integer? "--count").getD settings.sweepBarCount
    workers := (g.integer? "--workers").getD settings.sweepWorkers
    logLevel := (g.text? "--log-level").getD settings.logLevel }

def alertLine (alert : Alert) : String :=
  alert.triggerDate.display ++ " " ++ alert.code.display ++ " " ++ alert.name.display ++ " | " ++
    alert.message.display

def failureLine (check : RuleCheck) : String :=
  check.rule.id.display ++ " " ++ check.rule.code.display ++ ": " ++ check.outcome.error?.getD ""

def summary (report : SweepReport) (alerts : List Alert) : List String :=
  "=== Alerts ===" :: alerts.map alertLine ++
    (if report.failed.isEmpty then []
      else "=== Failed rules ===" :: report.failed.map failureLine) ++
    [s!"Checked {report.checks.length} rules, triggered {report.triggeredCount}"]

def execute (library : Library FileTree) (files : FileTree) (options : Options) :
    Except DataError (Outcome FileTree) := do
  let threshold ← Log.threshold (.text options.logLevel)
  let store ← RuleStore.ofJson (← files.read options.rules)
  let tables ← readTables library files options.dataDirectory
  let provider ← Provider.ofTables library.readDate tables
  let (report, alerts) := store.sweep provider options.count options.workers []
  let report ← report
  let entries := Log.written threshold (Sweep.log provider options.count report)
  return ⟨0, entries.map .entry ++ (summary report alerts).map .text, files⟩

def run (library : Library FileTree) (settings : Settings) (files : FileTree)
    (arguments : List String) : Except DataError (Outcome FileTree) :=
  match Options.read settings arguments with
  | .ok options => execute library files options
  | .error refusal => .ok (.refused files refusal)

end CheckRules

end MarketFormula.Command
