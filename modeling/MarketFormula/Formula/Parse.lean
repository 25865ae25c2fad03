import MarketFormula.Formula.Lexer
import MarketFormula.Formula.Parser

/-!
# From formula to tree

A formula is split into tokens, read as one expression, and refused if its tree is too deep. The
check visits nodes with a stack, so that the rightmost branch comes first.
-/
namespace MarketFormula

def maxTreeDepth : Int := 200

namespace Expr

mutual

def size : Expr → Nat
  | binary _ left right _ => left.size + right.size + 1
  | unary _ operand _ => operand.size + 1
  | call _ args _ => sizeAll args + 1
  | _ => 1

def sizeAll : List Expr → Nat
  | [] => 0
  | e :: es => e.size + sizeAll es

end

/-- The first node below `limit` levels, with the nodes that wait to be visited on a stack. Every
round visits one node. -/
def firstBelow? (limit : Int) : (rounds : Nat) → (stack : List (Expr × Int)) → Option Expr
  | 0, _ => none
  | _, [] => none
  | rounds + 1, (e, depth) :: stack =>
    if limit < depth then some e
    else firstBelow? limit rounds ((e.children.map (·, depth + 1)).reverse ++ stack)

def checkDepth (limit : Int) (e : Expr) : Except FormulaError Unit :=
  match firstBelow? limit e.size [(e, 1)] with
  | some node => .error (.nestedTooDeeply node.label node.position)
  | none => .ok ()

def ofTokens (tokens : List Token) (length : Nat) : Except FormulaError Expr :=
  match Reader.formula 0 (.start tokens length) with
  | .ok (e, _) => .ok e
  | .error stop => .error stop.error

def parse (formula : String) : Except FormulaError Expr := do
  let tokens ← Token.scan formula
  let e ← ofTokens tokens formula.length
  checkDepth maxTreeDepth e
  return e

end Expr

end MarketFormula
