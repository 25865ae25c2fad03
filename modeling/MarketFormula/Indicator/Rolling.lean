import MarketFormula.Decimal.Dyadic

/-!
# Trailing windows

A window of length `n` ends at each place of a list and reaches back over the last `n` entries, or
over all of them near the start. Windows list their entries from the latest to the oldest.
-/
namespace MarketFormula.Indicator

variable {α β : Type}

/-- The value of each window, given the entries before the list, the latest first. -/
def rollingFrom (n : Nat) (f : List α → β) : (seen : List α) → List α → List β
  | _, [] => []
  | seen, x :: rest => f ((x :: seen).take n) :: rollingFrom n f (x :: seen) rest

def rolling (n : Nat) (f : List α → β) (xs : List α) : List β :=
  rollingFrom n f [] xs

theorem length_rollingFrom (n : Nat) (f : List α → β) (seen xs : List α) :
    (rollingFrom n f seen xs).length = xs.length := by
  induction xs generalizing seen with
  | nil => rfl
  | cons x rest ih => simp [rollingFrom, ih]

/-- The finite entry of a window that no other one beats; the latest of several equal ones, and
no number if there is none. -/
def extreme (beats : Float → Float → Bool) (window : List Float) : Float :=
  match window.filter Float.isFinite with
  | [] => Decimal.nan
  | latest :: older => older.foldl (fun best x => if beats x best then x else best) latest

def highest (n : Nat) (xs : List Float) : List Float :=
  rolling n (extreme fun x best => decide (best < x)) xs

def lowest (n : Nat) (xs : List Float) : List Float :=
  rolling n (extreme fun x best => decide (x < best)) xs

end MarketFormula.Indicator
