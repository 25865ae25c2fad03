import MarketFormula.Proofs.Indicator.Extreme

/-!
# Running extremes

A window that reaches back to the first bar from every bar holds all entries seen so far. Its
extreme can be kept up from bar to bar.
-/
namespace MarketFormula.Indicator

open Decimal

section Running

variable (beats : Float → Float → Bool)

def bestSoFar (best? : Option Float) (x : Float) : Option Float :=
  if x.isFinite then some (best?.elim x fun best => if beats best x then best else x) else best?

def runningFrom : (best? : Option Float) → List Float → List Float
  | _, [] => []
  | best?, x :: rest =>
    let now? := bestSoFar beats best? x
    now?.getD nan :: runningFrom now? rest

/-- The best finite entry up to each place; of several equal ones the latest. -/
def running (xs : List Float) : List Float :=
  runningFrom beats none xs

variable {beats} {rank : Float → ℚ} (hbeats : Ranks beats rank)

include hbeats

lemma bestSoFar_select (x : Float) (seen : List Float) :
    bestSoFar beats (select rank (seen.map finite?)) x = select rank ((x :: seen).map finite?) := by
  rw [List.map_cons, select, bestSoFar, finite?]
  by_cases hx : x.isFinite = true
  · rw [if_pos hx, if_pos hx]
    cases hbest : select rank (seen.map finite?) with
    | none => rfl
    | some best =>
      simp only [Option.elim_some, Indicator.best,
        hbeats.beats_iff best x (isFinite_of_select hbest) hx]
      exact apply_ite some _ _ _
  · rw [if_neg hx, if_neg hx]
    rfl

lemma rollingFrom_eq_running {n : Nat} {seen xs : List Float}
    (hn : seen.length + xs.length ≤ n) :
    rollingFrom n (extreme beats) seen xs =
      runningFrom beats (select rank (seen.map finite?)) xs := by
  -- the induction keeps the entries seen so far beside the best one of them
  induction xs generalizing seen with
  | nil => rfl
  | cons x rest ih =>
    rw [List.length_cons] at hn
    have hwindow : (x :: seen).take n = x :: seen :=
      List.take_of_length_le (by rw [List.length_cons]; omega)
    have hrest : (x :: seen).length + rest.length ≤ n := by
      rw [List.length_cons]
      omega
    rw [rollingFrom, hwindow, extreme_eq_select hbeats, ih hrest, runningFrom,
      bestSoFar_select hbeats]

theorem rolling_eq_running {n : Nat} {xs : List Float} (hn : xs.length ≤ n) :
    rolling n (extreme beats) xs = running beats xs :=
  rollingFrom_eq_running hbeats (by simpa using hn)

end Running

variable {n : Nat} {xs : List Float} (hn : xs.length ≤ n)

include hn

lemma highest_of_length_le : highest n xs = running (fun best x => decide (x < best)) xs :=
  rolling_eq_running ranks_highest hn

lemma lowest_of_length_le : lowest n xs = running (fun best x => decide (best < x)) xs :=
  rolling_eq_running ranks_lowest hn

end MarketFormula.Indicator
