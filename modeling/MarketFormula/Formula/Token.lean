/-!
# Tokens of a formula

A token is a lexeme with the place of its first character in the formula. Names and keywords are
kept in upper case; the symbols `&&`, `||` and `!` have the kinds of their keywords.
-/
namespace MarketFormula

inductive TokenKind
  | number
  | name
  | and
  | or
  | not
  | ge
  | le
  | eq
  | ne
  | gt
  | lt
  | leftParen
  | rightParen
  | comma
  | plus
  | minus
  | times
  | div
  deriving DecidableEq, Repr

structure Token where
  kind : TokenKind
  text : String
  position : Nat
  deriving DecidableEq, Repr

def TokenKind.isComparison : TokenKind → Bool
  | .ge | .le | .eq | .ne | .gt | .lt => true
  | _ => false

end MarketFormula
