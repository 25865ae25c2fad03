import MarketFormula.Text.CodePoint
import MarketFormula.Text.Printable

/-!
# Quoted text

Messages show a text between quotation marks on one line of printable characters. The mark is an
apostrophe, or a double quotation mark if the text holds apostrophes and no double ones.
-/
namespace MarketFormula.Text

/-- The last `width` hexadecimal digits of `n`, most significant first. -/
def hexDigits : Nat → Nat → List Char
  | 0, _ => []
  | width + 1, n => hexDigits width (n / 16) ++ [Nat.digitChar (n % 16)]

def quotationMark (cs : List Char) : Char :=
  if cs.contains '\x27' && !cs.contains '\x22' then '\x22' else '\x27'

/-- A code point in as few hexadecimal digits as its size asks for. -/
def escapeCode (n : Nat) : List Char :=
  if n < 0x100 then '\\' :: 'x' :: hexDigits 2 n
  else if n < 0x10000 then '\\' :: 'u' :: hexDigits 4 n
  else '\\' :: 'U' :: hexDigits 8 n

def escapeChar (mark c : Char) : List Char :=
  if c = mark ∨ c = '\\' then ['\\', c]
  else if c = '\n' then ['\\', 'n']
  else if c = '\r' then ['\\', 'r']
  else if c = '\t' then ['\\', 't']
  else if isPrintable c then [c]
  else escapeCode c.toNat

def escapeCodePoint (mark : Char) (n : Nat) : List Char :=
  if isSurrogate n then escapeCode n else escapeChar mark (Char.ofNat n)

def quote (s : String) : String :=
  let mark := quotationMark s.toList
  String.ofList (mark :: (codePoints s.toList).flatMap (escapeCodePoint mark) ++ [mark])

def quoteAll (items : List String) : String :=
  "[" ++ ", ".intercalate (items.map quote) ++ "]"

end MarketFormula.Text
