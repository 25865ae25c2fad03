import MarketFormula.Formula.Error

/-!
# Places in a token list

A cursor stands between the tokens of a formula that have been read and those that follow. It also
knows the length of the formula, which is the place of all faults at its end.
-/
namespace MarketFormula

structure Cursor where
  /-- Tokens already read, the latest first. -/
  seen : List Token
  rest : List Token
  finish : Nat
  deriving DecidableEq, Repr

namespace Cursor

def start (tokens : List Token) (finish : Nat) : Cursor :=
  ⟨[], tokens, finish⟩

def index (c : Cursor) : Nat :=
  c.seen.length

def tokens (c : Cursor) : List Token :=
  c.seen.reverse ++ c.rest

/-- The next token and the cursor behind it. -/
def next? (c : Cursor) : Option (Token × Cursor) :=
  match c.rest with
  | token :: rest => some (token, ⟨token :: c.seen, rest, c.finish⟩)
  | [] => none

def advance (c : Cursor) : Except FormulaError (Token × Cursor) :=
  match c.next? with
  | some step => .ok step
  | none => .error (.unexpectedEnd c.finish)

/-- Takes the next token if its kind is accepted; messages describe what was expected. -/
def expect (accepts : TokenKind → Bool) (description : String) (c : Cursor) :
    Except FormulaError (Token × Cursor) :=
  match c.next? with
  | some step =>
    if accepts step.1.kind then .ok step else .error (.expected description step.1)
  | none => .error (.expectedAtEnd description c.finish)

@[simp] theorem next?_mk_nil (seen : List Token) (finish : Nat) :
    (Cursor.mk seen [] finish).next? = none := rfl

@[simp] theorem next?_mk_cons (seen rest : List Token) (token : Token) (finish : Nat) :
    (Cursor.mk seen (token :: rest) finish).next? = some (token, ⟨token :: seen, rest, finish⟩) :=
  rfl

theorem tokens_of_next? {c c' : Cursor} {token : Token} (h : c.next? = some (token, c')) :
    c'.tokens = c.tokens := by
  rcases c with ⟨seen, rest, finish⟩
  cases rest with
  | nil => simp at h
  | cons head tail =>
    obtain ⟨rfl, rfl⟩ := by simpa using h
    simp [tokens]

end Cursor

end MarketFormula
