import Mathlib.Order.Nat
import MarketFormula.Formula.Parser

/-!
# The grammar of formulas

From loosest to tightest:

    or         := and (OR and)*
    and        := not (AND not)*
    not        := NOT not | comparison
    comparison := additive [CMP additive]
    additive   := term ((+|-) term)*
    term       := unary ((*|/) unary)*
    unary      := - unary | primary
    primary    := NUMBER | NAME | NAME '(' [or (',' or)*] ')' | '(' or ')'

A derivation is a tree of these rules over tokens. It has the list of its tokens, the expression it
stands for and the number of nesting levels that are open at once in it.
-/
namespace MarketFormula.Grammar

/-- Levels whose operands are joined by operators, to the left first. -/
inductive Chain
  | or
  | and
  | additive
  | term
  deriving DecidableEq, Repr

inductive Level
  | chain (chain : Chain)
  | not
  | comparison
  | unary
  | primary
  deriving DecidableEq, Repr

namespace Chain

def op? : Chain → TokenKind → Option BinaryOp
  | or => TokenKind.orOp?
  | and => TokenKind.andOp?
  | additive => TokenKind.additiveOp?
  | term => TokenKind.termOp?

def operand : Chain → Level
  | or => .chain .and
  | and => .not
  | additive => .chain .term
  | term => .unary

end Chain

/-- What a rule derives: an expression of a level, or a part of one that may be empty. -/
inductive Nonterminal
  | expr (level : Level)
  /-- The operators of a chain, each with the operand behind it. -/
  | links (chain : Chain)
  | arguments
  /-- The arguments behind the first, each with the comma before it. -/
  | moreArguments

abbrev Nonterminal.formula : Nonterminal :=
  .expr (.chain .or)

inductive Derivation : Nonterminal → Type
  | chain {chain : Chain} (first : Derivation (.expr chain.operand))
    (rest : Derivation (.links chain)) : Derivation (.expr (.chain chain))
  | noLink {chain : Chain} : Derivation (.links chain)
  | link {chain : Chain} (operator : Token) (op : BinaryOp)
    (h : chain.op? operator.kind = some op) (operand : Derivation (.expr chain.operand))
    (rest : Derivation (.links chain)) : Derivation (.links chain)
  | negation (operator : Token) (h : operator.kind = .not)
    (operand : Derivation (.expr .not)) : Derivation (.expr .not)
  | positive (inner : Derivation (.expr .comparison)) : Derivation (.expr .not)
  | comparing (left : Derivation (.expr (.chain .additive))) (operator : Token) (op : BinaryOp)
    (h : operator.kind.comparisonOp? = some op)
    (right : Derivation (.expr (.chain .additive))) : Derivation (.expr .comparison)
  | single (inner : Derivation (.expr (.chain .additive))) : Derivation (.expr .comparison)
  | opposite (operator : Token) (h : operator.kind = .minus)
    (operand : Derivation (.expr .unary)) : Derivation (.expr .unary)
  | unsigned (inner : Derivation (.expr .primary)) : Derivation (.expr .unary)
  | number (token : Token) (h : token.kind = .number) : Derivation (.expr .primary)
  | field (name : Token) (h : name.kind = .name) : Derivation (.expr .primary)
  | call (name opener closer : Token) (hname : name.kind = .name)
    (hopener : opener.kind = .leftParen) (hcloser : closer.kind = .rightParen)
    (args : Derivation .arguments) : Derivation (.expr .primary)
  | group (opener closer : Token) (hopener : opener.kind = .leftParen)
    (hcloser : closer.kind = .rightParen) (inner : Derivation .formula) :
    Derivation (.expr .primary)
  | noArguments : Derivation .arguments
  | someArguments (first : Derivation .formula) (rest : Derivation .moreArguments) :
    Derivation .arguments
  | noMore : Derivation .moreArguments
  | more (comma : Token) (h : comma.kind = .comma) (argument : Derivation .formula)
    (rest : Derivation .moreArguments) : Derivation .moreArguments

/-- What a derivation stands for: an expression, an expression given what is to the left of it, or
a list of expressions. -/
abbrev Nonterminal.Tree : Nonterminal → Type
  | expr _ => Expr
  | links _ => Expr → Expr
  | arguments => List Expr
  | moreArguments => List Expr

namespace Derivation

def tokens : {p : Nonterminal} → Derivation p → List Token
  | _, chain first rest => first.tokens ++ rest.tokens
  | _, noLink => []
  | _, link operator _ _ operand rest => operator :: (operand.tokens ++ rest.tokens)
  | _, negation operator _ operand => operator :: operand.tokens
  | _, positive inner => inner.tokens
  | _, comparing left operator _ _ right => left.tokens ++ operator :: right.tokens
  | _, single inner => inner.tokens
  | _, opposite operator _ operand => operator :: operand.tokens
  | _, unsigned inner => inner.tokens
  | _, number token _ => [token]
  | _, field name _ => [name]
  | _, call name opener closer _ _ _ args => name :: opener :: (args.tokens ++ [closer])
  | _, group opener closer _ _ inner => opener :: (inner.tokens ++ [closer])
  | _, noArguments => []
  | _, someArguments first rest => first.tokens ++ rest.tokens
  | _, noMore => []
  | _, more comma _ argument rest => comma :: (argument.tokens ++ rest.tokens)

attribute [simp] tokens

def tree : {p : Nonterminal} → Derivation p → p.Tree
  | _, chain first rest => rest.tree first.tree
  | _, noLink => id
  | _, link operator op _ operand rest =>
    fun left => rest.tree (.binary op left operand.tree operator.position)
  | _, negation operator _ operand => .unary .not operand.tree operator.position
  | _, positive inner => inner.tree
  | _, comparing left operator op _ right =>
    .binary op left.tree right.tree operator.position
  | _, single inner => inner.tree
  | _, opposite operator _ operand => .unary .neg operand.tree operator.position
  | _, unsigned inner => inner.tree
  | _, number token _ => .literal token.value token.position
  | _, field name _ => .field name.text name.position
  | _, call name _ _ _ _ _ args => .call name.text args.tree name.position
  | _, group _ _ _ _ inner => inner.tree
  | _, noArguments => []
  | _, someArguments first rest => first.tree :: rest.tree
  | _, noMore => []
  | _, more _ _ argument rest => argument.tree :: rest.tree

/-- The largest number of parentheses, calls and operators in front of an operand that are open at
once. -/
def nesting : {p : Nonterminal} → Derivation p → Nat
  | _, chain first rest => max first.nesting rest.nesting
  | _, noLink => 0
  | _, link _ _ _ operand rest => max operand.nesting rest.nesting
  | _, negation _ _ operand => operand.nesting + 1
  | _, positive inner => inner.nesting
  | _, comparing left _ _ _ right => max left.nesting right.nesting
  | _, single inner => inner.nesting
  | _, opposite _ _ operand => operand.nesting + 1
  | _, unsigned inner => inner.nesting
  | _, number _ _ => 0
  | _, field _ _ => 0
  | _, call _ _ _ _ _ _ args => args.nesting + 1
  | _, group _ _ _ _ inner => inner.nesting + 1
  | _, noArguments => 0
  | _, someArguments first rest => max first.nesting rest.nesting
  | _, noMore => 0
  | _, more _ _ argument rest => max argument.nesting rest.nesting

end Derivation

end MarketFormula.Grammar
