import MarketFormula.Decimal.Dyadic

/-!
# Moving average

The mean over a window of `n` entries is kept up in one pass: at each step the entry that leaves
the window is taken off a running total and the new one is added, each with a compensation for the
rounding so far.
-/
namespace MarketFormula.Indicator

/-- Arithmetic that a running mean needs. -/
class MeanArithmetic (α : Type) where
  zero : α
  add : α → α → α
  sub : α → α → α
  neg : α → α
  divNat : α → Nat → α
  /-- A value that counts as negative; of the two zeros of doubles, one does. -/
  isSigned : α → Bool
  isBelow : α → α → Bool
  isSame : α → α → Bool

instance : MeanArithmetic Float where
  zero := 0.0
  add := (· + ·)
  sub := (· - ·)
  neg := (- ·)
  divNat x n := x / Float.ofNat n
  isSigned := Decimal.isSigned
  isBelow x y := decide (x < y)
  isSame x y := x == y

instance : MeanArithmetic Rat where
  zero := 0
  add := (· + ·)
  sub := (· - ·)
  neg := (- ·)
  divNat x n := x / n
  isSigned x := decide (x < 0)
  isBelow x y := decide (x < y)
  isSame x y := x == y

structure RunningMean (α : Type) where
  total : α
  /-- Rounding owed by the additions so far. -/
  owedByAdding : α
  /-- Rounding owed by the removals so far. -/
  owedByRemoving : α
  /-- The number of entries in the window. -/
  count : Nat
  /-- The number of signed entries in the window. -/
  signed : Nat
  /-- The length of the run of equal entries that ends with the latest one. -/
  run : Nat
  latest : Option α
  deriving Repr

namespace RunningMean

open MeanArithmetic

variable {α : Type} [MeanArithmetic α]

/-- Adds an entry; a missing one changes nothing. -/
def add (s : RunningMean α) : Option α → RunningMean α
  | none => s
  | some x =>
    let owed := sub x s.owedByAdding
    let total := MeanArithmetic.add s.total owed
    { s with
      total
      owedByAdding := sub (sub total s.total) owed
      count := s.count + 1
      signed := if isSigned x then s.signed + 1 else s.signed
      run := if s.latest.any (isSame x) then s.run + 1 else 1
      latest := some x }

/-- Takes off an entry; a missing one changes nothing. -/
def remove (s : RunningMean α) : Option α → RunningMean α
  | none => s
  | some x =>
    let owed := sub (neg x) s.owedByRemoving
    let total := MeanArithmetic.add s.total owed
    { s with
      total
      owedByRemoving := sub (sub total s.total) owed
      count := s.count - 1
      signed := if isSigned x then s.signed - 1 else s.signed }

/-- The state of a window that holds one entry. -/
def fresh (x? : Option α) : RunningMean α :=
  (⟨zero, zero, zero, 0, 0, 0, x?⟩ : RunningMean α).add x?

/-- The mean of the window if it holds `n` entries. -/
def mean? (n : Nat) (s : RunningMean α) : Option α :=
  if s.count < n then none
  else if s.count ≤ s.run then s.latest
  else
    let mean := divNat s.total s.count
    if s.signed = 0 ∧ isBelow mean zero then some zero
    else if s.signed = s.count ∧ isBelow zero mean then some zero
    else some mean

end RunningMean

open RunningMean

variable {α : Type} [MeanArithmetic α]

/-- The means of a pass over pairs of the entry that leaves the window and the one that enters it.
The first window, and every window of one entry, starts afresh. -/
def averageFrom (n : Nat) : Option (RunningMean α) → List (Option α × Option α) → List (Option α)
  | _, [] => []
  | previous?, (leaving, entering) :: rest =>
    let state :=
      match previous? with
      | some previous => if n ≤ 1 then fresh entering else (previous.remove leaving).add entering
      | none => fresh entering
    state.mean? n :: averageFrom n (some state) rest

/-- The mean of each window of `n` entries, missing where the window is not full. -/
def average (n : Nat) (xs : List (Option α)) : List (Option α) :=
  let leaving := List.replicate (min n xs.length) none ++ xs
  averageFrom n none (leaving.zip xs)

/-- The moving average of numbers; infinities count as missing. -/
def movingAverage (n : Nat) (xs : List Float) : List Float :=
  let entries := xs.map fun x => if x.isFinite then some x else none
  (average n entries).map (·.getD Decimal.nan)

end MarketFormula.Indicator
