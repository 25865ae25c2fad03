import MarketFormula.Command.CheckRules
import MarketFormula.Command.RunFormula
import MarketFormula.Csv.PlainFiles
import Std.Time.Format

/-!
# The command line

The first argument names the command and the others belong to it. Files are read before the command
runs, and the file that it sets is written after it.
-/
namespace MarketFormula.Main

def pathsAlong (path : String) : List String :=
  let parts := path.splitOn "/"
  ((List.range parts.length).map fun i => "/".intercalate (parts.take (i + 1))).filter (!·.isEmpty)

/-- The part of the file system that the given paths lead through; paths that lead nowhere add
nothing. -/
def readFiles (paths : List String) : IO FileTree := do
  let mut files := []
  let mut directories := []
  for path in paths.flatMap pathsAlong do
    if let .ok place ← (IO.FS.realPath (Text.shown path)).toBaseIO then
      if ← place.isDir then directories := path :: directories
      else if let .ok content ← (IO.FS.readFile place).toBaseIO then
        files := (path, Text.hold content) :: files
  return .ofPaths files directories

def entryPaths (directory : String) : IO (List String) := do
  match ← (IO.FS.realPath (Text.shown directory)).toBaseIO with
  | .ok place =>
    if ← place.isDir then
      return (← place.readDir).toList.map fun entry =>
        directory ++ "/" ++ Text.hold entry.fileName
    else return []
  | .error _ => return []

def readSettings : IO Settings := do
  let names :=
    ["TDX_TEST_BAR_COUNT", "TDX_SWEEP_BAR_COUNT", "TDX_SWEEP_MAX_WORKERS", "TDX_LOG_LEVEL"]
  let values ← names.filterMapM fun name => do
    return (← IO.getEnv name).map fun value => (name, Text.hold value)
  return .ofEnvironment fun name => values.lookup name

def finish (exported : Option String) (result : Except DataError (Command.Outcome FileTree)) :
    IO UInt32 := do
  match result with
  | .error e =>
    IO.eprintln (Text.shown e.message)
    return 1
  | .ok outcome =>
    let now ← Std.Time.PlainDateTime.now
    IO.print (Text.shown (outcome.output (now.format "uuuu-MM-dd HH:mm:ss")))
    if let some path := exported then
      if let .ok content := outcome.files.read path then
        if outcome.status = 0 then IO.FS.writeFile (Text.shown path) (Text.shown content)
    return UInt32.ofNat outcome.status

def runFormula (settings : Settings) (arguments : List String) : IO UInt32 := do
  match Command.RunFormula.Options.read settings arguments with
  | .ok options =>
    let exported := options.exportSignals
    let tree ← readFiles (options.csv :: exported.toList)
    finish exported (Command.RunFormula.execute Csv.plainFiles tree options)
  | .error refusal => finish none (.ok (.refused {} refusal))

def checkRules (settings : Settings) (arguments : List String) : IO UInt32 := do
  match Command.CheckRules.Options.read settings arguments with
  | .ok options =>
    let entries ← entryPaths options.dataDirectory
    let tree ← readFiles (options.rules :: options.dataDirectory :: entries)
    finish none (Command.CheckRules.execute Csv.plainFiles tree options)
  | .error refusal => finish none (.ok (.refused {} refusal))

end MarketFormula.Main

def main (arguments : List String) : IO UInt32 := do
  let settings ← MarketFormula.Main.readSettings
  match arguments.map MarketFormula.Text.hold with
  | "run_formula" :: rest => MarketFormula.Main.runFormula settings rest
  | "check_rules" :: rest => MarketFormula.Main.checkRules settings rest
  | _ =>
    IO.eprintln "usage: run_formula OPTIONS | check_rules OPTIONS"
    return 2
