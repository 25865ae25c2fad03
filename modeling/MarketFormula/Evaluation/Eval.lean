import MarketFormula.Evaluation.Fault
import MarketFormula.Evaluation.Value
import MarketFormula.Evaluation.Vocabulary
import MarketFormula.Formula.Expr

/-!
# The value of an expression over a frame

Operators act on scalars directly and on columns bar by bar. Scalars decide about missing numbers
before they compute; columns compute first and then discard.
-/
namespace MarketFormula

/-- An operation on two numbers, for scalars and for columns. -/
structure Arithmetic where
  onScalars : Float → Float → Float
  onColumns : List Float → List Float → List Float

namespace Arithmetic

/-- An operation that columns carry out bar by bar as scalars do. -/
def barwise (f : Float → Float → Float) : Arithmetic :=
  ⟨f, List.zipWith f⟩

/-- Division without a result at zero. -/
def division : Arithmetic where
  onScalars x y := if y == 0.0 then Decimal.nan else x / y
  onColumns xs ys :=
    List.zipWith (fun quotient y => if y != 0.0 then quotient else Decimal.nan)
      (List.zipWith (· / ·) xs ys) ys

end Arithmetic

namespace BinaryOp

def arithmetic? : BinaryOp → Option Arithmetic
  | add => some (.barwise (· + ·))
  | sub => some (.barwise (· - ·))
  | mul => some (.barwise (· * ·))
  | div => some .division
  | _ => none

/-- The relation of an operator on numbers, before missing ones are looked for. -/
def comparison? : BinaryOp → Option (Float → Float → Bool)
  | gt => some fun x y => decide (y < x)
  | ge => some fun x y => decide (y ≤ x)
  | lt => some fun x y => decide (x < y)
  | le => some fun x y => decide (x ≤ y)
  | eq => some fun x y => x == y
  | ne => some fun x y => x != y
  | _ => none

def logical? : BinaryOp → Option (Bool → Bool → Bool)
  | and => some Bool.and
  | or => some Bool.or
  | _ => none

end BinaryOp

def compareScalars (f : Float → Float → Bool) (x y : Float) : Bool :=
  if x.isNaN || y.isNaN then false else f x y

/-- A relation of two columns, which holds at no bar where one is missing. -/
def compareColumns (f : Float → Float → Bool) (xs ys : List Float) : List Bool :=
  List.zipWith Bool.and (List.zipWith Bool.and (List.zipWith f xs ys) (present xs)) (present ys)

namespace Value

/-- A number from two, for each bar unless both are scalars. -/
def arithmetic (n : Nat) (op : Arithmetic) : Value → Value → Value
  | scalar a, scalar b => scalar (.number (op.onScalars a.toFloat b.toFloat))
  | a, b => numeric (op.onColumns (a.toNumeric n) (b.toNumeric n))

def comparison (n : Nat) (f : Float → Float → Bool) : Value → Value → Value
  | scalar a, scalar b => scalar (.truth (compareScalars f a.toFloat b.toFloat))
  | a, b => boolean (compareColumns f (a.toNumeric n) (b.toNumeric n))

def logical (n : Nat) (f : Bool → Bool → Bool) : Value → Value → Value
  | scalar a, scalar b => scalar (.truth (f a.toBool b.toBool))
  | a, b => boolean (List.zipWith f (a.toBoolean n) (b.toBoolean n))

def negation (n : Nat) : Value → Value
  | scalar s => scalar (.truth !s.toBool)
  | v => boolean ((v.toBoolean n).map (!·))

def opposite (n : Nat) : Value → Value
  | scalar s => scalar (.number (-s.toFloat))
  | v => numeric ((v.toNumeric n).map (- ·))

/-- The window length that an argument gives: a constant whole number of at least one. -/
def window (function : String) (position : Int) : Value → Except FormulaError Nat
  | scalar (.number x) =>
    match Decimal.natural? x with
    | some (n + 1) => .ok (n + 1)
    | _ => .error (.windowNotPositive function x position)
  | scalar (.truth _) => .error (.windowBoolean function position)
  | _ => .error (.windowPerBar function position)

end Value

namespace Indicator

/-- An indicator of two values. The second argument of all but crossings is a window length;
`position` is its place in the formula. -/
def eval (n : Nat) (position : Int) (x y : Value) : Indicator → Except Fault Value
  | cross => .ok (.boolean (crossing (x.toNumeric n) (y.toNumeric n)))
  | windowed function => do
    let window ← Fault.ofFormula (y.window (windowed function).name position)
    let length := if function.isClipped then min window (n + 1) else window
    let column ← Fault.ofData (function.values length (x.toNumeric n))
    return .numeric column

end Indicator

namespace Expr

def evalUnary (n : Nat) (op : UnaryOp) (position : Int) (x : Value) : Except Fault Value :=
  match op with
  | .not => .ok (x.negation n)
  | .neg => .ok (x.opposite n)
  | .other symbol => .error (.formula (.unknownUnary symbol position))

def evalBinary (n : Nat) (op : BinaryOp) (position : Int) (x y : Value) : Except Fault Value :=
  match op.logical?, op.arithmetic?, op.comparison? with
  | some f, _, _ => .ok (.logical n f x y)
  | _, some f, _ => .ok (.arithmetic n f x y)
  | _, _, some f => .ok (.comparison n f x y)
  | none, none, none => .error (.formula (.unknownBinary op.symbol position))

mutual

def eval (frame : Frame) : Expr → Except Fault Value
  | literal x _ => .ok (.scalar (.number x))
  | field name position => do
    let field ← Fault.ofFormula (Field.resolve name (some position))
    return .numeric (frame.column field)
  | unary op operand position => do
    let x ← eval frame operand
    evalUnary frame.length op position x
  | binary op left right position => do
    let x ← eval frame left
    let y ← eval frame right
    evalBinary frame.length op position x y
  | call name args position => do
    let name := Text.upper name
    let indicator ← Fault.ofFormula (Indicator.resolve name args.length (some position))
    let values ← evalAll frame args
    match args, values with
    | [_, second], [x, y] => indicator.eval frame.length second.position x y
    | _, _ => .error (.formula (.wrongArity name Indicator.arity args.length (some position)))
  | bare => .error (.formula .unknownNode)

def evalAll (frame : Frame) : List Expr → Except Fault (List Value)
  | [] => .ok []
  | e :: es => do
    let x ← eval frame e
    let xs ← evalAll frame es
    return x :: xs

end

end Expr

end MarketFormula
