import MarketFormula.Formula.Error
import MarketFormula.Indicator.Basic
import MarketFormula.Market.Bar
import MarketFormula.Text.LetterCase

/-!
# Names that formulas may use

A name stands for a bar field or an indicator if its upper case does. Every indicator takes two
arguments.
-/
namespace MarketFormula

def Indicator.arity : Int := 2

def Field.ofLetter? (letter : String) : Option Field :=
  Field.all.find? (·.letter == letter)

def Indicator.ofName? (name : String) : Option Indicator :=
  Indicator.all.find? (·.name == name)

def Field.resolve (name : String) (position : Option Int) : Except FormulaError Field :=
  match Field.ofLetter? (Text.upper name) with
  | some field => .ok field
  | none => .error (.unknownField name position)

/-- The indicator that a name stands for, if it takes that many arguments. -/
def Indicator.resolve (name : String) (argumentCount : Int) (position : Option Int) :
    Except FormulaError Indicator :=
  match Indicator.ofName? (Text.upper name) with
  | some indicator =>
    if argumentCount = arity then .ok indicator
    else .error (.wrongArity name arity argumentCount position)
  | none => .error (.unknownFunction name position)

end MarketFormula
