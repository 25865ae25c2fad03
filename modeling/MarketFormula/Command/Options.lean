import MarketFormula.Decimal.Reading

/-!
# Options of a command

All options but the request for help take a value, as the next argument or after an equals sign.
The name of an option may be cut short as long as it stays unambiguous.
-/
namespace MarketFormula.Command

structure OptionSpec where
  name : String
  isRequired : Bool := false
  isInteger : Bool := false
  deriving DecidableEq, Repr

inductive Refusal
  | helpRequested
  | misused
  deriving DecidableEq, Repr

/-- What an argument is, before the values of options are taken. -/
inductive Argument
  | value (s : String)
  | option (spec : OptionSpec) (attached : Option String)
  /-- A request for help, or a misuse of one. -/
  | help (refusal : Refusal)
  | unknown
  /-- The mark behind which all arguments are values. -/
  | separator
  deriving DecidableEq, Repr

def splitAttached (s : String) : String × Option String :=
  let cs := s.toList
  let name := String.ofList (cs.takeWhile (· != '='))
  match cs.dropWhile (· != '=') with
  | _ :: rest => (name, some (String.ofList rest))
  | [] => (name, none)

/-- Whether an argument reads as a negative number, perhaps with a line end behind it. -/
def isNegativeNumber (s : String) : Bool :=
  let cs := s.toList
  match if cs.getLast? = some '\n' then cs.dropLast else cs with
  | '-' :: rest =>
    match rest.dropWhile Text.isDigit with
    | [] => !rest.isEmpty
    | '.' :: fraction => !fraction.isEmpty && fraction.all Text.isDigit
    | _ => false
  | _ => false

/-- What comes of letters behind the letter for help in one argument; no other one is known. -/
def helpCluster (letters : List Char) : Refusal :=
  if letters.all (· == 'h') then .helpRequested else .misused

namespace Argument

/-- A request for help with something attached to it. Only letters for help may follow it. -/
def attachedHelp (name attached : String) : Refusal :=
  if name = "-h" && !attached.isEmpty then helpCluster attached.toList else .misused

def named? (specs : List OptionSpec) (name : String) (attached : Option String) :
    Option Argument :=
  if name = "-h" ∨ name = "--help" then
    some (.help ((attached.map (attachedHelp name)).getD .helpRequested))
  else (specs.find? (·.name == name)).map (.option · attached)

/-- The options that a name cut short may stand for. -/
def abbreviated (specs : List OptionSpec) (s : String) : List Argument :=
  if s.startsWith "--" then
    let (name, attached) := splitAttached s
    ("--help" :: specs.map (·.name)).filter (·.startsWith name) |>.filterMap
      (named? specs · attached)
  else if s.startsWith "-h" then [.help (helpCluster (s.toList.drop 2))]
  else []

def ofString (specs : List OptionSpec) (s : String) : Except Refusal Argument :=
  if !s.startsWith "-" || s = "-" then .ok (.value s)
  else
    let (name, attached) := splitAttached s
    match named? specs s none, (if attached.isSome then named? specs name attached else none) with
    | some argument, _ => .ok argument
    | none, some argument => .ok argument
    | none, none =>
      match abbreviated specs s with
      | [argument] => .ok argument
      | _ :: _ :: _ => .error .misused
      | [] =>
        if isNegativeNumber s || s.contains ' ' then .ok (.value s) else .ok .unknown

def ofStrings (specs : List OptionSpec) : List String → Except Refusal (List Argument)
  | [] => .ok []
  | s :: rest =>
    if s = "--" then .ok (.separator :: rest.map .value)
    else do
      let argument ← ofString specs s
      return argument :: (← ofStrings specs rest)

end Argument

structure Gathered where
  /-- Values by the name of their option, the latest first. -/
  values : List (String × String) := []
  /-- Whether there were arguments that belong to no option. -/
  hasExtras : Bool := false
  deriving Repr

namespace Gathered

def add (g : Gathered) (spec : OptionSpec) (value : String) : Except Refusal Gathered :=
  if spec.isInteger && (Decimal.readInteger? value).isNone then .error .misused
  else .ok { g with values := (spec.name, value) :: g.values }

def read (g : Gathered) : List Argument → Except Refusal Gathered
  | [] => .ok g
  | .help refusal :: _ => .error refusal
  | .option spec (some value) :: rest => do (← g.add spec value).read rest
  | .option spec none :: .value value :: rest => do (← g.add spec value).read rest
  | .option _ none :: _ => .error .misused
  | _ :: rest => read { g with hasExtras := true } rest

def text? (g : Gathered) (name : String) : Option String :=
  g.values.lookup name

def integer? (g : Gathered) (name : String) : Option Int :=
  (g.text? name).bind Decimal.readInteger?

end Gathered

/-- The values that arguments give to options. -/
def readOptions (specs : List OptionSpec) (arguments : List String) : Except Refusal Gathered := do
  let g ← Gathered.read {} (← Argument.ofStrings specs arguments)
  let missing := specs.filter fun spec => spec.isRequired && (g.text? spec.name).isNone
  if g.hasExtras || !missing.isEmpty then .error .misused else return g

end MarketFormula.Command
