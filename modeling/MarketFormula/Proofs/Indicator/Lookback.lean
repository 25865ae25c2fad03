import Mathlib.Order.Nat
import MarketFormula.Indicator.Basic

/-!
# How far indicators look back

Delays, extremes and crossings give each entry from a limited number of entries before it.
-/
namespace MarketFormula.Indicator

section Rolling

variable {α β : Type}

lemma rollingFrom_drop (n k : Nat) (f : List α → β) (seen xs : List α) :
    (rollingFrom n f seen xs).drop k =
      rollingFrom n f ((xs.take k).reverse ++ seen) (xs.drop k) := by
  induction xs generalizing seen k with
  | nil => simp [rollingFrom]
  | cons x rest ih =>
    cases k with
    | zero => simp
    | succ k => simp [rollingFrom, ih]

lemma rollingFrom_append_drop {n r : Nat} (f : List α → β) (seen older xs : List α)
    (h : n ≤ seen.length + r + 1) :
    (rollingFrom n f (seen ++ older) xs).drop r = (rollingFrom n f seen xs).drop r := by
  induction xs generalizing seen r with
  | nil => rfl
  | cons x rest ih =>
    have hlength : (x :: seen).length = seen.length + 1 := rfl
    have hrest := fun r (hr : n ≤ (x :: seen).length + r + 1) => ih (r := r) (x :: seen) hr
    rw [rollingFrom, rollingFrom]
    cases r with
    | zero =>
      have hwindow : (x :: (seen ++ older)).take n = (x :: seen).take n := by
        rw [← List.cons_append, List.take_append_of_le_length (by omega)]
      have htail := hrest 0 (by omega)
      simp only [List.drop_zero, List.cons_append] at htail ⊢
      rw [hwindow, htail]
    | succ r =>
      simp only [List.drop_succ_cons]
      exact hrest r (by omega)

lemma rolling_drop (n k : Nat) (f : List α → β) (xs : List α) :
    (rolling n f xs).drop (k + (n - 1)) = (rolling n f (xs.drop k)).drop (n - 1) := by
  have holder := rollingFrom_append_drop (n := n) (r := n - 1) f [] ((xs.take k).reverse) (xs.drop k)
    (by simp only [List.length_nil]; omega)
  rw [← List.drop_drop, rolling, rollingFrom_drop, List.append_nil]
  exact holder

end Rolling

lemma delayed_drop_add (n k : Nat) (xs : List Float) :
    (delayed n xs).drop (n + k) = (xs.take (xs.length - n)).drop k := by
  rcases Nat.le_total n xs.length with h | h
  · rw [delayed, Nat.min_eq_left h, ← List.drop_drop, List.drop_left' List.length_replicate]
  · rw [Nat.sub_eq_zero_of_le h, List.take_zero, List.drop_nil, List.drop_eq_nil_iff]
    simp only [delayed, List.length_append, List.length_replicate, List.length_take]
    omega

lemma delayed_drop (n k : Nat) (xs : List Float) :
    (delayed n xs).drop (k + n) = (delayed n (xs.drop k)).drop n := by
  have htail := delayed_drop_add n 0 (xs.drop k)
  rw [Nat.add_zero, List.drop_zero] at htail
  rw [htail, Nat.add_comm, delayed_drop_add, List.drop_take, List.length_drop]
  congr 1
  omega

lemma crossingFrom_drop (k : Nat) (previous : Option (Float × Float)) (pairs : List (Float × Float)) :
    ∃ before, (crossingFrom previous pairs).drop k = crossingFrom before (pairs.drop k) := by
  induction pairs generalizing previous k with
  | nil => exact ⟨none, by simp [crossingFrom]⟩
  | cons now rest ih =>
    cases k with
    | zero => exact ⟨previous, rfl⟩
    | succ k => exact ih k (some now)

lemma crossingFrom_drop_one (previous previous' : Option (Float × Float))
    (pairs : List (Float × Float)) :
    (crossingFrom previous pairs).drop 1 = (crossingFrom previous' pairs).drop 1 := by
  cases pairs <;> rfl

lemma crossing_drop (k : Nat) (xs ys : List Float) :
    (crossing xs ys).drop (k + 1) = (crossing (xs.drop k) (ys.drop k)).drop 1 := by
  obtain ⟨before, hdrop⟩ := crossingFrom_drop k none (xs.zip ys)
  have hzip : (xs.zip ys).drop k = (xs.drop k).zip (ys.drop k) := by
    simp only [List.zip_eq_zipWith, List.drop_zipWith]
  rw [crossing, ← List.drop_drop, hdrop, hzip, crossing]
  exact crossingFrom_drop_one ..

end MarketFormula.Indicator

namespace MarketFormula.Windowed

open Indicator

/-- How many entries before a bar its value depends on, if their number is limited. -/
def reach? (n : Nat) : Windowed → Option Nat
  | ma | ema => none
  | ref => some n
  | hhv | llv => some (n - 1)

/-- Without its first entries a column has the same values, except for those that look back beyond
the entries that are left. -/
theorem values_drop {function : Windowed} {n r : Nat} (h : function.reach? n = some r) (k : Nat)
    (xs : List Float) :
    (function.values n xs).map (List.drop (k + r)) =
      (function.values n (xs.drop k)).map (List.drop r) := by
  cases function with
  | ma => cases h
  | ema => cases h
  | ref =>
    cases h
    simp only [values, Except.map, delayed_drop]
  | hhv =>
    cases h
    simp only [values, Except.map, highest, rolling_drop]
  | llv =>
    cases h
    simp only [values, Except.map, lowest, rolling_drop]

end MarketFormula.Windowed
