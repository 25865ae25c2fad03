import MarketFormula.Command.Options
import MarketFormula.Log

/-!
# Outcomes of commands

A command ends with a status, the lines that it printed and the files as it left them.
-/
namespace MarketFormula.Command

inductive Line
  | text (s : String)
  | entry (e : Log.Entry)
  deriving DecidableEq, Repr

def Line.render (time : String) : Line → String
  | text s => s
  | entry e => e.render time

/-- How a command ends; `F` stands for all files. -/
structure Outcome (F : Type) where
  status : Nat
  lines : List Line
  files : F
  deriving Repr

section

variable {F : Type}

def Outcome.refused (files : F) : Refusal → Outcome F
  | .helpRequested => ⟨0, [], files⟩
  | .misused => ⟨2, [], files⟩

def Outcome.output (outcome : Outcome F) (time : String) : String :=
  String.join (outcome.lines.map fun line => line.render time ++ "\n")

end

end MarketFormula.Command
