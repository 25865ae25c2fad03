import Mathlib.Order.Nat
import MarketFormula.Indicator.Basic

/-!
# Indicators look back only

The first values of an indicator are its values on the first entries of its columns, for every
window length.
-/
namespace MarketFormula.Indicator

lemma take_zip {α β : Type} (k : Nat) (xs : List α) (ys : List β) :
    (xs.zip ys).take k = (xs.take k).zip (ys.take k) := by
  rw [List.zip_eq_zipWith, List.take_zipWith, ← List.zip_eq_zipWith]

lemma zip_take_left {α β : Type} {k : Nat} (xs : List α) {ys : List β} (hy : ys.length ≤ k) :
    (xs.take k).zip ys = xs.zip ys := by
  have h := take_zip k xs ys
  rw [List.take_of_length_le hy, List.take_of_length_le] at h
  · exact h.symm
  · rw [List.length_zip]
    exact (Nat.min_le_right _ _).trans hy

lemma take_leaving {α : Type} (n k : Nat) (xs : List (Option α)) (hk : k ≤ xs.length) :
    (List.replicate (min n xs.length) none ++ xs).take k =
      (List.replicate (min n k) none ++ xs.take k).take k := by
  simp only [List.take_append, List.take_replicate, List.length_replicate, List.take_take]
  by_cases hn : n ≤ k
  · rw [Nat.min_eq_left (hn.trans hk), Nat.min_eq_left hn, Nat.min_eq_left (Nat.sub_le k n)]
  · have hkn : k ≤ n := by omega
    rw [Nat.min_eq_right hkn, Nat.min_eq_left (show k ≤ min n xs.length by omega),
      Nat.min_self, Nat.sub_self, Nat.sub_eq_zero_of_le (show k ≤ min n xs.length by omega)]
    simp

section Average

variable {α : Type} [MeanArithmetic α]

lemma length_averageFrom (n : Nat) (previous? : Option (RunningMean α))
    (pairs : List (Option α × Option α)) :
    (averageFrom n previous? pairs).length = pairs.length := by
  induction pairs generalizing previous? with
  | nil => rfl
  | cons pair rest ih => simp [averageFrom, ih]

lemma averageFrom_take (n k : Nat) (previous? : Option (RunningMean α))
    (pairs : List (Option α × Option α)) :
    (averageFrom n previous? pairs).take k = averageFrom n previous? (pairs.take k) := by
  induction pairs generalizing previous? k with
  | nil => simp [averageFrom]
  | cons pair rest ih =>
    cases k with
    | zero => simp [averageFrom]
    | succ k => simp [averageFrom, ih]

lemma length_average (n : Nat) (xs : List (Option α)) : (average n xs).length = xs.length := by
  simp only [average, length_averageFrom, List.length_zip, List.length_append,
    List.length_replicate]
  omega

lemma average_take (n k : Nat) (xs : List (Option α)) :
    (average n xs).take k = average n (xs.take k) := by
  by_cases hk : k ≤ xs.length
  · have hleaving := take_leaving n k xs hk
    have hxk : (xs.take k).length ≤ k := List.length_take_le k xs
    rw [average, averageFrom_take, take_zip, hleaving, zip_take_left _ hxk, average,
      List.length_take, Nat.min_eq_left hk]
  · have hx : xs.length ≤ k := by omega
    rw [List.take_of_length_le hx, List.take_of_length_le ((length_average n xs).trans_le hx)]

lemma count_add_le (s : RunningMean α) (x? : Option α) : (s.add x?).count ≤ s.count + 1 := by
  cases x? <;> simp [RunningMean.add]

lemma count_remove_le (s : RunningMean α) (x? : Option α) : (s.remove x?).count ≤ s.count := by
  cases x? <;> simp [RunningMean.remove]

lemma count_fresh_le (x? : Option α) : (RunningMean.fresh x?).count ≤ 1 :=
  count_add_le _ x?

lemma averageFrom_eq_replicate (n : Nat) (previous? : Option (RunningMean α))
    (pairs : List (Option α × Option α))
    (hn : (previous?.elim 0 RunningMean.count) + pairs.length < n) :
    averageFrom n previous? pairs = List.replicate pairs.length none := by
  -- A window that is longer than all entries seen so far is never full.
  induction pairs generalizing previous? with
  | nil => rfl
  | cons pair rest ih =>
    obtain ⟨leaving, entering⟩ := pair
    have step : ∀ state : RunningMean α,
        state.count ≤ previous?.elim 0 RunningMean.count + 1 →
        state.mean? n :: averageFrom n (some state) rest =
          List.replicate (rest.length + 1) none := by
      intro state hs
      simp only [List.length_cons] at hn
      rw [ih (some state) (by simp only [Option.elim]; omega), List.replicate_succ,
        RunningMean.mean?, if_pos (by omega)]
    cases previous? with
    | none => exact step _ ((count_fresh_le entering).trans (by simp))
    | some previous =>
      simp only [List.length_cons, Option.elim] at hn
      have hcount : ((previous.remove leaving).add entering).count ≤ previous.count + 1 :=
        (count_add_le _ _).trans (Nat.add_le_add_right (count_remove_le _ _) 1)
      simp only [averageFrom, if_neg (show ¬ n ≤ 1 by omega)]
      exact step _ hcount

theorem average_of_length_lt {n : Nat} {xs : List (Option α)} (hn : xs.length < n) :
    average n xs = List.replicate xs.length none := by
  have hlen : ((List.replicate (min n xs.length) none ++ xs).zip xs).length = xs.length := by
    simp only [List.length_zip, List.length_append, List.length_replicate]
    omega
  rw [average, averageFrom_eq_replicate n none _ (by simpa only [hlen, Option.elim, Nat.zero_add]),
    hlen]

end Average

lemma movingAverage_take (n k : Nat) (xs : List Float) :
    (movingAverage n xs).take k = movingAverage n (xs.take k) := by
  simp only [movingAverage, ← List.map_take, average_take]

lemma length_movingAverage (n : Nat) (xs : List Float) :
    (movingAverage n xs).length = xs.length := by
  simp [movingAverage, length_average]

theorem movingAverage_of_length_lt {n : Nat} {xs : List Float} (hn : xs.length < n) :
    movingAverage n xs = List.replicate xs.length Decimal.nan := by
  simp only [movingAverage]
  rw [average_of_length_lt (by simpa using hn)]
  simp

section Rolling

variable {α β : Type}

lemma rollingFrom_take (n k : Nat) (f : List α → β) (seen xs : List α) :
    (rollingFrom n f seen xs).take k = rollingFrom n f seen (xs.take k) := by
  induction xs generalizing seen k with
  | nil => simp [rollingFrom]
  | cons x rest ih =>
    cases k with
    | zero => simp [rollingFrom]
    | succ k => simp [rollingFrom, ih]

lemma rollingFrom_of_length_le {n m : Nat} (f : List α → β) {seen xs : List α}
    (hn : seen.length + xs.length ≤ n) (hm : seen.length + xs.length ≤ m) :
    rollingFrom n f seen xs = rollingFrom m f seen xs := by
  -- Windows that reach back over everything are all the same.
  induction xs generalizing seen with
  | nil => rfl
  | cons x rest ih =>
    simp only [List.length_cons] at hn hm
    have htail : rollingFrom n f (x :: seen) rest = rollingFrom m f (x :: seen) rest :=
      ih (by simp only [List.length_cons]; omega) (by simp only [List.length_cons]; omega)
    have hwindow : (x :: seen).take n = (x :: seen).take m := by
      rw [List.take_of_length_le (by simp only [List.length_cons]; omega),
        List.take_of_length_le (by simp only [List.length_cons]; omega)]
    rw [rollingFrom, rollingFrom, htail, hwindow]

lemma rolling_of_length_le {n m : Nat} (f : List α → β) {xs : List α}
    (hn : xs.length ≤ n) (hm : xs.length ≤ m) : rolling n f xs = rolling m f xs :=
  rollingFrom_of_length_le f (by simpa using hn) (by simpa using hm)

lemma rolling_take (n k : Nat) (f : List α → β) (xs : List α) :
    (rolling n f xs).take k = rolling n f (xs.take k) :=
  rollingFrom_take n k f [] xs

end Rolling

lemma exponentialFrom_take (weight previous : Float) (k : Nat) (xs : List Float) :
    (exponentialFrom weight previous xs).take k = exponentialFrom weight previous (xs.take k) := by
  induction xs generalizing previous k with
  | nil => simp [exponentialFrom]
  | cons x rest ih =>
    cases k with
    | zero => simp [exponentialFrom]
    | succ k => simp [exponentialFrom, ih]

lemma exponentialAverage_take (weight : Float) (k : Nat) (xs : List Float) :
    (exponentialAverage weight xs).take k = exponentialAverage weight (xs.take k) := by
  cases xs with
  | nil => simp [exponentialAverage]
  | cons x rest =>
    cases k with
    | zero => simp [exponentialAverage]
    | succ k => simp [exponentialAverage, exponentialFrom_take]

lemma length_exponentialFrom (weight previous : Float) (xs : List Float) :
    (exponentialFrom weight previous xs).length = xs.length := by
  induction xs generalizing previous with
  | nil => rfl
  | cons x rest ih => simp [exponentialFrom, ih]

lemma length_exponentialAverage (weight : Float) (xs : List Float) :
    (exponentialAverage weight xs).length = xs.length := by
  cases xs <;> simp [exponentialAverage, length_exponentialFrom]

lemma length_delayed (n : Nat) (xs : List Float) : (delayed n xs).length = xs.length := by
  simp only [delayed, List.length_append, List.length_replicate, List.length_take]
  omega

lemma delayed_take (n k : Nat) (xs : List Float) :
    (delayed n xs).take k = delayed n (xs.take k) := by
  by_cases hk : k ≤ xs.length
  · simp only [delayed, List.take_append, List.take_replicate, List.length_replicate,
      List.take_take, List.length_take, Nat.min_eq_left hk]
    by_cases hn : n ≤ k
    · rw [Nat.min_eq_left (hn.trans hk), Nat.min_eq_left hn, Nat.min_eq_right hn,
        Nat.min_eq_left (Nat.sub_le_sub_right hk n), Nat.min_eq_left (Nat.sub_le k n)]
    · rw [Nat.min_eq_left (show k ≤ min n xs.length by omega),
        Nat.min_eq_right (show k ≤ n by omega),
        Nat.sub_eq_zero_of_le (show k ≤ min n xs.length by omega),
        Nat.sub_eq_zero_of_le (show k ≤ n by omega)]
      simp
  · have hx : xs.length ≤ k := by omega
    rw [List.take_of_length_le hx, List.take_of_length_le ((length_delayed n xs).trans_le hx)]

lemma delayed_of_length_le {n : Nat} {xs : List Float} (hn : xs.length ≤ n) :
    delayed n xs = List.replicate xs.length Decimal.nan := by
  rw [delayed, Nat.min_eq_right hn, Nat.sub_eq_zero_of_le hn]
  simp

lemma crossingFrom_take (k : Nat) (previous : Option (Float × Float))
    (pairs : List (Float × Float)) :
    (crossingFrom previous pairs).take k = crossingFrom previous (pairs.take k) := by
  induction pairs generalizing previous k with
  | nil => simp [crossingFrom]
  | cons now rest ih =>
    cases k with
    | zero => simp [crossingFrom]
    | succ k => simp [crossingFrom, ih]

lemma length_crossingFrom (previous : Option (Float × Float)) (pairs : List (Float × Float)) :
    (crossingFrom previous pairs).length = pairs.length := by
  induction pairs generalizing previous with
  | nil => rfl
  | cons now rest ih => simp [crossingFrom, ih]

theorem crossing_take (k : Nat) (xs ys : List Float) :
    (crossing xs ys).take k = crossing (xs.take k) (ys.take k) := by
  simp only [crossing, crossingFrom_take, take_zip]

lemma length_crossing (xs ys : List Float) :
    (crossing xs ys).length = min xs.length ys.length := by
  simp [crossing, length_crossingFrom]

end MarketFormula.Indicator

namespace MarketFormula.Windowed

open Indicator

/-- The first values of an indicator are its values on the first entries. -/
theorem values_take (function : Windowed) (n k : Nat) (xs : List Float) :
    (function.values n xs).map (List.take k) = function.values n (xs.take k) := by
  cases function with
  | ma => simp only [values, Except.map, movingAverage_take]
  | ema =>
    simp only [values]
    cases smoothing n with
    | error e => rfl
    | ok weight => simp only [Except.map, exponentialAverage_take]
  | ref => simp only [values, Except.map, delayed_take]
  | hhv => simp only [values, Except.map, highest, rolling_take]
  | llv => simp only [values, Except.map, lowest, rolling_take]

theorem length_of_values {function : Windowed} {n : Nat} {xs ys : List Float}
    (h : function.values n xs = .ok ys) : ys.length = xs.length := by
  cases function with
  | ma => cases h; exact length_movingAverage n xs
  | ema =>
    simp only [values] at h
    cases hw : smoothing n with
    | error e => rw [hw] at h; cases h
    | ok weight => rw [hw] at h; cases h; exact length_exponentialAverage weight xs
  | ref => cases h; exact length_delayed n xs
  | hhv => cases h; exact length_rollingFrom _ _ _ _
  | llv => cases h; exact length_rollingFrom _ _ _ _

/-- Clipping a window to one more than the number of bars changes no value. -/
theorem values_clip (function : Windowed) (hc : function.isClipped = true) (n bars : Nat)
    (xs : List Float) (hx : xs.length ≤ bars) :
    function.values (min n (bars + 1)) xs = function.values n xs := by
  by_cases hn : n ≤ bars + 1
  · rw [Nat.min_eq_left hn]
  · rw [Nat.min_eq_right (show bars + 1 ≤ n by omega)]
    have hlt : xs.length < bars + 1 := by omega
    have hltn : xs.length < n := by omega
    cases function with
    | ma => simp only [values, movingAverage_of_length_lt hlt, movingAverage_of_length_lt hltn]
    | ema => cases hc
    | ref => simp only [values, delayed_of_length_le hlt.le, delayed_of_length_le hltn.le]
    | hhv => simp only [values, highest, rolling_of_length_le _ hlt.le hltn.le]
    | llv => simp only [values, lowest, rolling_of_length_le _ hlt.le hltn.le]

end MarketFormula.Windowed
