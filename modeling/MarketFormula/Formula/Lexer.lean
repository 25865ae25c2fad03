import MarketFormula.Formula.Error
import MarketFormula.Text.Blank
import MarketFormula.Text.DecimalDigit

/-!
# Splitting a formula into tokens

At each place that is not blank the longest lexeme is taken: a number, a name or a symbol. Numbers
may use the decimal digits of any script; names are letters, digits and underscores of ASCII.
-/
namespace MarketFormula

open Text (firstHeld isBlank isDigit)

namespace Token

def isNameStart (c : Char) : Bool :=
  c.isAlpha || c == '_'

def isNameChar (c : Char) : Bool :=
  c.isAlphanum || c == '_'

/-- The length of the number at the front of a text, zero if there is none. A point needs a digit
on at least one side. -/
def numberLength (cs : List Char) : Nat :=
  let whole := (cs.takeWhile isDigit).length
  match cs.dropWhile isDigit with
  | '.' :: rest =>
    let fraction := (rest.takeWhile isDigit).length
    if whole = 0 ∧ fraction = 0 then 0 else whole + 1 + fraction
  | _ => whole

def nameLength : List Char → Nat
  | c :: rest => if isNameStart c then 1 + (rest.takeWhile isNameChar).length else 0
  | [] => 0

def symbol? : List Char → Option (TokenKind × Nat)
  | '&' :: '&' :: _ => some (.and, 2)
  | '|' :: '|' :: _ => some (.or, 2)
  | '>' :: '=' :: _ => some (.ge, 2)
  | '<' :: '=' :: _ => some (.le, 2)
  | '=' :: '=' :: _ => some (.eq, 2)
  | '!' :: '=' :: _ => some (.ne, 2)
  | '!' :: _ => some (.not, 1)
  | '>' :: _ => some (.gt, 1)
  | '<' :: _ => some (.lt, 1)
  | '(' :: _ => some (.leftParen, 1)
  | ')' :: _ => some (.rightParen, 1)
  | ',' :: _ => some (.comma, 1)
  | '+' :: _ => some (.plus, 1)
  | '-' :: _ => some (.minus, 1)
  | '*' :: _ => some (.times, 1)
  | '/' :: _ => some (.div, 1)
  | _ => none

/-- The kind of a name in upper case. -/
def nameKind (upper : List Char) : TokenKind :=
  if upper = ['A', 'N', 'D'] then .and
  else if upper = ['O', 'R'] then .or
  else if upper = ['N', 'O', 'T'] then .not
  else .name

/-- The kind, text and length of the lexeme at the front of a text. -/
def lexeme? (cs : List Char) : Option (TokenKind × List Char × Nat) :=
  if 0 < numberLength cs then some (.number, cs.take (numberLength cs), numberLength cs)
  else if 0 < nameLength cs then
    let upper := (cs.take (nameLength cs)).map Char.toUpper
    some (nameKind upper, upper, nameLength cs)
  else (symbol? cs).map fun (kind, length) => (kind, cs.take length, length)

/-- The tokens of a text that starts at `position`, after `skip` characters of a lexeme that has
been taken already. -/
def scanFrom : (position skip : Nat) → List Char → Except FormulaError (List Token)
  | _, _, [] => .ok []
  | position, skip + 1, _ :: rest => scanFrom (position + 1) skip rest
  | position, 0, c :: rest =>
    if isBlank c then scanFrom (position + 1) 0 rest
    else
      match lexeme? (c :: rest) with
      | some (kind, text, length) => do
        let tokens ← scanFrom (position + 1) (length - 1) rest
        return ⟨kind, String.ofList text, position⟩ :: tokens
      | none => .error (.unexpectedCharacter (String.ofList (firstHeld (c :: rest))) position)

def scan (formula : String) : Except FormulaError (List Token) :=
  scanFrom 0 0 formula.toList

theorem scanFrom_skip (position : Nat) (cs : List Char) (skip : Nat) :
    scanFrom position skip cs = scanFrom (position + skip) 0 (cs.drop skip) := by
  induction skip generalizing position cs with
  | zero => simp
  | succ skip ih =>
    cases cs with
    | nil => simp [scanFrom]
    | cons c rest => rw [scanFrom, ih, List.drop_succ_cons, Nat.add_right_comm, Nat.add_assoc]

end Token

end MarketFormula
