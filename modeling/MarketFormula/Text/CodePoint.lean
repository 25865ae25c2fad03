/-!
# Code points

Texts may contain surrogates, which are code points but no characters. A string holds a surrogate
as two characters: a mark and the private character that lies `0x100000` above the surrogate.
-/
namespace MarketFormula.Text

def isHighSurrogate (n : Nat) : Bool :=
  0xd800 ≤ n && n < 0xdc00

def isLowSurrogate (n : Nat) : Bool :=
  0xdc00 ≤ n && n < 0xe000

def isSurrogate (n : Nat) : Bool :=
  0xd800 ≤ n && n < 0xe000

def pairCodePoint (high low : Nat) : Nat :=
  0x10000 + (high - 0xd800) * 0x400 + (low - 0xdc00)

/-- The last code point, which is assigned to nothing. -/
def holdMark : Char :=
  Char.ofNat 0x10ffff

/-- The characters that hold a code point. -/
def held (n : Nat) : List Char :=
  if isSurrogate n then [holdMark, Char.ofNat (0x100000 + n)]
  else if n = 0x10ffff then [holdMark, holdMark]
  else [Char.ofNat n]

/-- The code point that two characters hold together, if they do. -/
def marked? (c d : Char) : Option Nat :=
  if c = holdMark then
    if d = holdMark then some 0x10ffff
    else if isSurrogate (d.toNat - 0x100000) then some (d.toNat - 0x100000)
    else none
  else none

def codePoints : List Char → List Nat
  | [] => []
  | [c] => [c.toNat]
  | c :: d :: rest =>
    match marked? c d with
    | some n => n :: codePoints rest
    | none => c.toNat :: codePoints (d :: rest)

/-- The characters at the front that hold one code point. -/
def firstHeld : List Char → List Char
  | c :: d :: _ => if (marked? c d).isSome then [c, d] else [c]
  | cs => cs

def hold (s : String) : String :=
  String.ofList (s.toList.flatMap fun c => held c.toNat)

/-- A held text as it is shown, with a replacement character for each surrogate. -/
def shown (s : String) : String :=
  String.ofList ((codePoints s.toList).map fun n => Char.ofNat (if isSurrogate n then 0xfffd else n))

structure SurrogateRun where
  start : Nat
  first : Nat
  count : Nat
  deriving DecidableEq, Repr

/-- The surrogates from the first one on that is not allowed. -/
def surrogateRun? (isAllowed : Nat → Bool) (ns : List Nat) : Option SurrogateRun :=
  let isFine := fun n => !isSurrogate n || isAllowed n
  match ns.dropWhile isFine with
  | [] => none
  | n :: rest => some ⟨(ns.takeWhile isFine).length, n, 1 + (rest.takeWhile isSurrogate).length⟩

def pointsAtMost : List Nat → List Nat → Bool
  | [], _ => true
  | _, [] => false
  | m :: ms, n :: ns => m < n || m == n && pointsAtMost ms ns

/-- The order of texts by code point. -/
def atMost (s t : String) : Bool :=
  pointsAtMost (codePoints s.toList) (codePoints t.toList)

theorem toNat_ofNat {n : Nat} (h : n.isValidChar) : (Char.ofNat n).toNat = n := by
  unfold Char.ofNat
  rw [dif_pos h]
  rfl

theorem toNat_holdMark : holdMark.toNat = 0x10ffff :=
  toNat_ofNat (by decide)

theorem marked?_of_ne {c d : Char} (h : c ≠ holdMark) : marked? c d = none := by
  simp [marked?, h]

end MarketFormula.Text
