import MarketFormula.Decimal.Reading
import MarketFormula.Formula.Cursor
import MarketFormula.Formula.Expr

/-!
# Reading expressions

Chains associate to the left and comparisons do not chain. The readers of one level are built from
those of the next deeper level, so the number of levels still allowed decreases.
-/
namespace MarketFormula

def maxNesting : Nat := 64

/-- Where reading stopped, with the number of nesting levels open there. -/
structure Stop where
  error : FormulaError
  cursor : Cursor
  depth : Nat
  deriving DecidableEq

abbrev Reader := Cursor → Except Stop (Expr × Cursor)

structure Readers where
  orExpr : Reader
  andExpr : Reader
  notExpr : Reader
  comparison : Reader
  additive : Reader
  term : Reader
  unary : Reader
  primary : Reader

namespace TokenKind

def orOp? : TokenKind → Option BinaryOp
  | .or => some .or
  | _ => none

def andOp? : TokenKind → Option BinaryOp
  | .and => some .and
  | _ => none

def comparisonOp? : TokenKind → Option BinaryOp
  | .gt => some .gt
  | .ge => some .ge
  | .lt => some .lt
  | .le => some .le
  | .eq => some .eq
  | .ne => some .ne
  | _ => none

def additiveOp? : TokenKind → Option BinaryOp
  | .plus => some .add
  | .minus => some .sub
  | _ => none

def termOp? : TokenKind → Option BinaryOp
  | .times => some .mul
  | .div => some .div
  | _ => none

theorem isComparison_eq (kind : TokenKind) : kind.isComparison = kind.comparisonOp?.isSome := by
  cases kind <;> rfl

end TokenKind

def Token.value (token : Token) : Float :=
  Decimal.ofPlain token.text.toList

namespace Reader

/-- Continues a left-associative chain. Every round takes an operator, so the number of remaining
tokens bounds the rounds. -/
def chain (op? : TokenKind → Option BinaryOp) (operand : Reader) : Nat → Expr → Reader
  | 0, left, c => .ok (left, c)
  | rounds + 1, left, c =>
    match c.next? with
    | some (token, c') =>
      match op? token.kind with
      | some op => do
        let (right, c'') ← operand c'
        chain op? operand rounds (.binary op left right token.position) c''
      | none => .ok (left, c)
    | none => .ok (left, c)

/-- Operands joined by operators of one precedence. -/
def leftAssociative (op? : TokenKind → Option BinaryOp) (operand : Reader) : Reader := fun c => do
  let (first, c') ← operand c
  chain op? operand c'.rest.length first c'

/-- The readers one level deeper, if one more level may be opened by this token. -/
def deepen (depth : Nat) (deeper : Option Readers) (opener : Token) (c : Cursor) :
    Except Stop Readers :=
  match deeper with
  | some readers => .ok readers
  | none => .error ⟨.nestedTooDeeply opener.text opener.position, c, depth + 1⟩

/-- Takes a closing parenthesis of a level that is open. -/
def close (depth : Nat) (description : String) (c : Cursor) : Except Stop Cursor :=
  match c.expect (· == .rightParen) description with
  | .ok (_, c') => .ok c'
  | .error e => .error ⟨e, c, depth + 1⟩

/-- Further arguments, each after a comma. Every round takes a comma, so the number of remaining
tokens bounds the rounds. -/
def moreArguments (argument : Reader) : Nat → Cursor → Except Stop (List Expr × Cursor)
  | 0, c => .ok ([], c)
  | rounds + 1, c =>
    match c.next? with
    | some (token, c') =>
      if token.kind = .comma then do
        let (arg, c'') ← argument c'
        let (args, c''') ← moreArguments argument rounds c''
        return (arg :: args, c''')
      else .ok ([], c)
    | none => .ok ([], c)

/-- The arguments of a call, none if the call is closed at once or the formula ends. -/
def arguments (argument : Reader) (c : Cursor) : Except Stop (List Expr × Cursor) :=
  match c.rest with
  | [] => .ok ([], c)
  | token :: _ =>
    if token.kind = .rightParen then .ok ([], c)
    else do
      let (arg, c') ← argument c
      let (args, c'') ← moreArguments argument c'.rest.length c'
      return (arg :: args, c'')

section Level

variable (depth : Nat) (deeper : Option Readers)

def call (name : Token) (c : Cursor) : Except Stop (Expr × Cursor) := do
  let inner ← deepen depth deeper name c
  let (args, c') ← arguments inner.orExpr c
  let c'' ← close depth ("')' to close " ++ name.text ++ "(") c'
  return (.call name.text args name.position, c'')

def primary : Reader := fun c =>
  match c.next? with
  | none => .error ⟨.missingOperand c.seen.head? c.finish, c, depth⟩
  | some (token, c') =>
    match token.kind with
    | .number => .ok (.literal token.value token.position, c')
    | .name =>
      match c'.next? with
      | some (paren, c'') =>
        if paren.kind = .leftParen then call depth deeper token c''
        else .ok (.field token.text token.position, c')
      | none => .ok (.field token.text token.position, c')
    | .leftParen => do
      let inner ← deepen depth deeper token c'
      let (e, c'') ← inner.orExpr c'
      let c''' ← close depth "')'" c''
      return (e, c''')
    | _ => .error ⟨.notAnOperand token, c, depth⟩

def unary : Reader := fun c =>
  match c.next? with
  | some (token, c') =>
    if token.kind = .minus then do
      let inner ← deepen depth deeper token c'
      let (e, c'') ← inner.unary c'
      return (.unary .neg e token.position, c'')
    else primary depth deeper c
  | none => primary depth deeper c

def term : Reader :=
  leftAssociative TokenKind.termOp? (unary depth deeper)

def additive : Reader :=
  leftAssociative TokenKind.additiveOp? (term depth deeper)

/-- At most one comparison; a second one in a row is a fault. -/
def comparison : Reader := fun c => do
  let (left, c') ← additive depth deeper c
  match c'.next? with
  | some (token, behind) =>
    match token.kind.comparisonOp? with
    | some op => do
      let (right, c'') ← additive depth deeper behind
      match c''.rest with
      | second :: _ =>
        if second.kind.isComparison then .error ⟨.chainedComparison second, c'', depth⟩
        else .ok (.binary op left right token.position, c'')
      | [] => .ok (.binary op left right token.position, c'')
    | none => .ok (left, c')
  | none => .ok (left, c')

def notExpr : Reader := fun c =>
  match c.next? with
  | some (token, c') =>
    if token.kind = .not then do
      let inner ← deepen depth deeper token c'
      let (e, c'') ← inner.notExpr c'
      return (.unary .not e token.position, c'')
    else comparison depth deeper c
  | none => comparison depth deeper c

def andExpr : Reader :=
  leftAssociative TokenKind.andOp? (notExpr depth deeper)

def orExpr : Reader :=
  leftAssociative TokenKind.orOp? (andExpr depth deeper)

end Level

end Reader

/-- The readers at a depth, above those of the next deeper level. -/
def Readers.over (depth : Nat) (deeper : Option Readers) : Readers where
  orExpr := Reader.orExpr depth deeper
  andExpr := Reader.andExpr depth deeper
  notExpr := Reader.notExpr depth deeper
  comparison := Reader.comparison depth deeper
  additive := Reader.additive depth deeper
  term := Reader.term depth deeper
  unary := Reader.unary depth deeper
  primary := Reader.primary depth deeper

/-- The readers at a depth from which `budget` more levels may be opened. -/
def Readers.within : (budget depth : Nat) → Readers
  | 0, depth => .over depth none
  | budget + 1, depth => .over depth (some (within budget (depth + 1)))

def Readers.atDepth (depth : Nat) : Readers :=
  within (maxNesting - depth) depth

/-- A whole formula: one expression and nothing behind it. -/
def Reader.formula (depth : Nat) : Reader := fun c =>
  if c.tokens.isEmpty then .error ⟨.emptyFormula, c, depth⟩
  else do
    let (e, c') ← (Readers.atDepth depth).orExpr c
    match c'.rest with
    | [] => .ok (e, c')
    | token :: _ =>
      if token.kind = .rightParen then .error ⟨.unbalancedParenthesis token, c', depth⟩
      else .error ⟨.trailing token, c', depth⟩

end MarketFormula
