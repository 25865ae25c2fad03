import MarketFormula.Decimal.Layout
import MarketFormula.Formula.Token
import MarketFormula.Text.Quoted

/-!
# Faults of a formula

Each fault names the token or name at fault and, where it is known, its place in the formula,
which the message gives in parentheses.
-/
namespace MarketFormula

inductive FormulaError
  | unexpectedCharacter (text : String) (position : Nat)
  | emptyFormula
  | unexpectedEnd (position : Nat)
  | expectedAtEnd (description : String) (position : Nat)
  | expected (description : String) (found : Token)
  | missingOperand (previous : Option Token) (position : Nat)
  | notAnOperand (found : Token)
  | chainedComparison (found : Token)
  | unbalancedParenthesis (found : Token)
  | trailing (found : Token)
  | nestedTooDeeply (token : String) (position : Int)
  | unknownField (name : String) (position : Option Int)
  | unknownFunction (name : String) (position : Option Int)
  | wrongArity (name : String) (expected received : Int) (position : Option Int)
  | windowPerBar (function : String) (position : Int)
  | windowBoolean (function : String) (position : Int)
  | windowNotPositive (function : String) (window : Float) (position : Int)
  | unknownUnary (op : String) (position : Int)
  | unknownBinary (op : String) (position : Int)
  | unknownNode
  deriving DecidableEq

namespace FormulaError

inductive Kind
  | malformed
  | unknownField
  | unknownFunction
  | argumentCount
  | argumentType
  | unsupported
  deriving DecidableEq, Repr

def kind : FormulaError → Kind
  | unknownField .. => .unknownField
  | unknownFunction .. => .unknownFunction
  | wrongArity .. => .argumentCount
  | windowPerBar .. | windowBoolean .. | windowNotPositive .. => .argumentType
  | unknownUnary .. | unknownBinary .. | unknownNode => .unsupported
  | _ => .malformed

/-- The token or name at fault; empty where the formula ends too early. -/
def token? : FormulaError → Option String
  | unexpectedCharacter text _ => some text
  | emptyFormula | unexpectedEnd _ | expectedAtEnd .. | missingOperand .. => some ""
  | expected _ found | notAnOperand found | chainedComparison found
  | unbalancedParenthesis found | trailing found => some found.text
  | nestedTooDeeply token _ => some token
  | unknownField name _ | unknownFunction name _ | wrongArity name .. => some name
  | windowPerBar function _ | windowBoolean function _ | windowNotPositive function .. =>
    some function
  | unknownUnary op _ | unknownBinary op _ => some op
  | unknownNode => none

def position? : FormulaError → Option Int
  | unexpectedCharacter _ position => some position
  | emptyFormula => some 0
  | unexpectedEnd position | expectedAtEnd _ position | missingOperand _ position => some position
  | expected _ found | notAnOperand found | chainedComparison found
  | unbalancedParenthesis found | trailing found => some found.position
  | nestedTooDeeply _ position => some position
  | unknownField _ position | unknownFunction _ position | wrongArity _ _ _ position => position
  | windowPerBar _ position | windowBoolean _ position | windowNotPositive _ _ position =>
    some position
  | unknownUnary _ position | unknownBinary _ position => some position
  | unknownNode => none

open Text (quote)

def detail : FormulaError → String
  | unexpectedCharacter text _ => "Unexpected character " ++ quote text
  | emptyFormula => "Empty formula"
  | unexpectedEnd _ => "Unexpected end of formula"
  | expectedAtEnd description _ => "Expected " ++ description ++ " but reached end of formula"
  | expected description found => "Expected " ++ description ++ " but got " ++ quote found.text
  | missingOperand none _ => "Missing operand"
  | missingOperand (some previous) _ => "Missing operand after " ++ quote previous.text
  | notAnOperand found => "Unexpected token " ++ quote found.text ++ ", expected an operand"
  | chainedComparison found =>
    "Comparison operators cannot be chained: unexpected " ++ quote found.text
  | unbalancedParenthesis _ => "Unbalanced ')'"
  | trailing found => "Unexpected token " ++ quote found.text ++ " after end of expression"
  | nestedTooDeeply .. => "Formula nested too deeply"
  | unknownField name _ => "Unknown identifier '" ++ name ++ "'"
  | unknownFunction name _ => "Unknown function '" ++ name ++ "'"
  | wrongArity name arity received _ =>
    name ++ s!" expects {arity} arguments but received {received}"
  | windowPerBar function _ => function ++ " window must be a constant, not a per-bar series"
  | windowBoolean function _ => function ++ " window must be a number, not a boolean"
  | windowNotPositive function window _ =>
    function ++ " window must be a positive integer, got " ++ Decimal.text window
  | unknownUnary op _ => "Unknown unary op: " ++ op
  | unknownBinary op _ => "Unknown binary op: " ++ op
  | unknownNode => "Unknown AST node type: ASTNode"

def message (e : FormulaError) : String :=
  match e.position? with
  | some position => e.detail ++ s!" (position {position})"
  | none => e.detail

end FormulaError

end MarketFormula
