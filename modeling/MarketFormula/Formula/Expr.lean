import MarketFormula.Decimal.Layout

/-!
# Expression trees

Every node remembers the place in the formula of the token that introduces it. Trees do not only
come from formulas, so operators outside the language can be written down; they have no value.
-/
namespace MarketFormula

inductive BinaryOp
  | and
  | or
  | add
  | sub
  | mul
  | div
  | gt
  | ge
  | lt
  | le
  | eq
  | ne
  | other (symbol : String)
  deriving DecidableEq, Repr

inductive UnaryOp
  | not
  | neg
  | other (symbol : String)
  deriving DecidableEq, Repr

inductive Expr
  | binary (op : BinaryOp) (left right : Expr) (position : Int)
  | unary (op : UnaryOp) (operand : Expr) (position : Int)
  | literal (value : Float) (position : Int)
  /-- The value of a bar field, such as `C`. -/
  | field (name : String) (position : Int)
  | call (name : String) (args : List Expr) (position : Int)
  /-- A node of no known kind. -/
  | bare

def BinaryOp.symbol : BinaryOp → String
  | and => "AND"
  | or => "OR"
  | add => "+"
  | sub => "-"
  | mul => "*"
  | div => "/"
  | gt => ">"
  | ge => ">="
  | lt => "<"
  | le => "<="
  | eq => "=="
  | ne => "!="
  | other symbol => symbol

def BinaryOp.known : List BinaryOp :=
  [.and, .or, .add, .sub, .mul, .div, .gt, .ge, .lt, .le, .eq, .ne]

def BinaryOp.ofSymbol (symbol : String) : BinaryOp :=
  (known.find? (·.symbol == symbol)).getD (.other symbol)

def UnaryOp.symbol : UnaryOp → String
  | not => "NOT"
  | neg => "NEG"
  | other symbol => symbol

def UnaryOp.ofSymbol (symbol : String) : UnaryOp :=
  (([not, neg] : List UnaryOp).find? (·.symbol == symbol)).getD (.other symbol)

namespace Expr

def position : Expr → Int
  | binary _ _ _ position => position
  | unary _ _ position => position
  | literal _ position => position
  | field _ position => position
  | call _ _ position => position
  | bare => 0

def label : Expr → String
  | binary op .. => op.symbol
  | unary op .. => op.symbol
  | literal value _ => Decimal.text value
  | field name _ => name
  | call name .. => name
  | bare => ""

/-- The word for the kind of a node in progress messages. -/
def kindName : Expr → String
  | binary .. => "BinaryOp"
  | unary .. => "UnaryOp"
  | literal .. => "Literal"
  | field .. => "SeriesRef"
  | call .. => "FuncCall"
  | bare => "ASTNode"

def children : Expr → List Expr
  | binary _ left right _ => [left, right]
  | unary _ operand _ => [operand]
  | call _ args _ => args
  | _ => []

mutual

/-- Two trees that differ at most in the places of their nodes. -/
def same : Expr → Expr → Bool
  | binary op left right _, binary op' left' right' _ =>
    op == op' && same left left' && same right right'
  | unary op operand _, unary op' operand' _ => op == op' && same operand operand'
  | literal value _, literal value' _ => value == value'
  | field name _, field name' _ => name == name'
  | call name args _, call name' args' _ => name == name' && sameAll args args'
  | bare, bare => true
  | _, _ => false

def sameAll : List Expr → List Expr → Bool
  | [], [] => true
  | e :: es, e' :: es' => same e e' && sameAll es es'
  | _, _ => false

end

end Expr

end MarketFormula
