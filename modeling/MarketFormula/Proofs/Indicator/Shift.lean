import MarketFormula.Proofs.Indicator.WindowMean

/-!
# Indicators of delayed columns

Averages and extremes skip missing values, so each of them can be delayed before or after it is
taken.
-/
namespace MarketFormula.Indicator

open Decimal

lemma delayed_delayed (a b : Nat) (xs : List Float) :
    delayed b (delayed a xs) = delayed (a + b) xs := by
  have hfront : min b xs.length + min (xs.length - b) (min a xs.length) =
      min (a + b) xs.length := by omega
  have hback : min (xs.length - b - min a xs.length) (xs.length - a) =
      xs.length - (a + b) := by omega
  rw [delayed, length_delayed, delayed, delayed, List.take_append, List.take_replicate,
    List.length_replicate, List.take_take, hback, ← List.append_assoc,
    List.replicate_append_replicate, hfront]

lemma map_delayed {f : Float → Float} (hf : f nan = nan) (a : Nat) (xs : List Float) :
    (delayed a xs).map f = delayed a (xs.map f) := by
  rw [delayed, delayed, List.map_append, List.map_replicate, hf, List.map_take, List.length_map]

lemma zipWith_delayed {f : Float → Float → Float} (hf : f nan nan = nan) (a : Nat)
    {xs ys : List Float} (hlength : xs.length = ys.length) :
    List.zipWith f (delayed a xs) (delayed a ys) = delayed a (List.zipWith f xs ys) := by
  have hzip : (List.zipWith f xs ys).length = ys.length := by
    rw [List.length_zipWith, hlength, Nat.min_self]
  rw [delayed, delayed, delayed, hzip, hlength, List.zipWith_append (by simp),
    List.zipWith_replicate', hf, List.take_zipWith]

section Average

variable {α : Type} [MeanArithmetic α]

lemma RunningMean.after_append_replicate (n : Nat) (seen : List (Option α)) (k : Nat) :
    after n (seen ++ List.replicate k none) = after n seen := by
  induction seen with
  | nil =>
    induction k with
    | zero => rfl
    | succ k ih =>
      have hgap : (List.replicate k (none : Option α))[n - 1]?.join = none := by
        rw [List.getElem?_replicate]
        split <;> rfl
      rw [List.nil_append] at ih
      rw [List.nil_append, List.replicate_succ, after.eq_2, ih, hgap]
      split <;> rfl
  | cons x? older ih =>
    have hleaving : (older ++ List.replicate k none)[n - 1]?.join = older[n - 1]?.join := by
      rcases Nat.lt_or_ge (n - 1) older.length with hinside | hbefore
      · rw [List.getElem?_append_left hinside]
      · rw [List.getElem?_append_right hbefore, List.getElem?_eq_none hbefore,
          List.getElem?_replicate]
        split <;> rfl
    rw [List.cons_append, after, after, ih, hleaving]

lemma average_append {n : Nat} (hn : 1 ≤ n) (k : Nat) (xs : List (Option α)) :
    average n (List.replicate k none ++ xs) = List.replicate k none ++ average n xs := by
  have hshort : ((RunningMean.fresh none : RunningMean α)).mean? n = none := by
    rw [RunningMean.mean?, if_pos (show (RunningMean.fresh (none : Option α)).count < n from hn)]
  apply List.ext_getElem?
  intro i
  rcases Nat.lt_or_ge i (k + xs.length) with hi | hend
  · have hlength : i < (List.replicate k none ++ xs).length := by
      rw [List.length_append, List.length_replicate]
      exact hi
    rw [RunningMean.getElem?_average n hlength]
    rcases Nat.lt_or_ge i k with hgap | hlate
    · have hnone : ((List.replicate k (none : Option α) ++ xs).take (i + 1)).reverse =
          [] ++ List.replicate (i + 1) none := by
        rw [List.take_append_of_le_length (by rw [List.length_replicate]; exact hgap),
          List.take_replicate, Nat.min_eq_left hgap, List.reverse_replicate]
        rfl
      rw [hnone, RunningMean.after_append_replicate, List.getElem?_append_left
        (by rw [List.length_replicate]; exact hgap), List.getElem?_replicate_of_lt hgap]
      exact congrArg some hshort
    · obtain ⟨j, rfl⟩ := Nat.exists_eq_add_of_le hlate
      have htake : ((List.replicate k (none : Option α) ++ xs).take (k + j + 1)).reverse =
          (xs.take (j + 1)).reverse ++ List.replicate k none := by
        rw [List.take_append, List.take_replicate, List.length_replicate,
          Nat.min_eq_right (by omega), List.reverse_append, List.reverse_replicate]
        congr 3
        omega
      rw [htake, RunningMean.after_append_replicate, List.getElem?_append_right
        (by rw [List.length_replicate]; omega), List.length_replicate, Nat.add_sub_cancel_left,
        RunningMean.getElem?_average n (by omega)]
  · rw [List.getElem?_eq_none (by rw [length_average]; simpa using hend),
      List.getElem?_eq_none (by simpa [length_average] using hend)]

end Average

theorem movingAverage_delayed {n : Nat} (hn : 1 ≤ n) (a : Nat) (xs : List Float) :
    movingAverage n (delayed a xs) = delayed a (movingAverage n xs) := by
  have hnan : finite? nan = none := by decide +kernel
  have hentries : (delayed a xs).map finite? =
      List.replicate (min a xs.length) none ++ (xs.take (xs.length - a)).map finite? := by
    rw [delayed, List.map_append, List.map_replicate, hnan]
  change (average n ((delayed a xs).map finite?)).map (·.getD nan) = _
  rw [hentries, average_append hn, List.map_append, List.map_replicate, delayed,
    length_movingAverage, movingAverage_take]
  rfl

section Rolling

lemma rollingFrom_append {α β : Type} (n : Nat) (f : List α → β) (seen xs ys : List α) :
    rollingFrom n f seen (xs ++ ys) =
      rollingFrom n f seen xs ++ rollingFrom n f (xs.reverse ++ seen) ys := by
  induction xs generalizing seen with
  | nil => rfl
  | cons x rest ih =>
    rw [List.cons_append, rollingFrom, rollingFrom, ih, List.reverse_cons, List.append_assoc]
    rfl

variable (beats : Float → Float → Bool) (n : Nat)

lemma extreme_append_nan (window : List Float) (k : Nat) :
    extreme beats (window ++ List.replicate k nan) = extreme beats window := by
  have hnan : (List.replicate k nan).filter Float.isFinite = [] := by
    rw [List.filter_replicate, if_neg (by decide +kernel)]
  unfold extreme
  rw [List.filter_append, hnan, List.append_nil]

lemma rollingFrom_extreme_append (seen xs : List Float) (k : Nat) :
    rollingFrom n (extreme beats) (seen ++ List.replicate k nan) xs =
      rollingFrom n (extreme beats) seen xs := by
  induction xs generalizing seen with
  | nil => rfl
  | cons x rest ih =>
    have hrest := ih (x :: seen)
    rw [List.cons_append] at hrest
    rw [rollingFrom, rollingFrom, hrest, ← List.cons_append, List.take_append, List.take_replicate,
      extreme_append_nan]

lemma rollingFrom_extreme_nan (k : Nat) (seen : Nat) :
    rollingFrom n (extreme beats) (List.replicate seen nan) (List.replicate k nan) =
      List.replicate k nan := by
  induction k generalizing seen with
  | zero => rfl
  | succ k ih =>
    have hwindow := extreme_append_nan beats [] (min n (seen + 1))
    rw [List.nil_append] at hwindow
    rw [List.replicate_succ, rollingFrom, ← List.replicate_succ, List.take_replicate, hwindow, ih]
    rfl

theorem rolling_extreme_delayed (a : Nat) (xs : List Float) :
    rolling n (extreme beats) (delayed a xs) = delayed a (rolling n (extreme beats) xs) := by
  have hseen := rollingFrom_extreme_append beats n [] (xs.take (xs.length - a)) (min a xs.length)
  rw [List.nil_append] at hseen
  have hlength : (rolling n (extreme beats) xs).length = xs.length := length_rollingFrom ..
  rw [rolling, delayed, rollingFrom_append, List.append_nil, List.reverse_replicate, hseen,
    delayed, hlength, rolling_take]
  exact congrArg (· ++ _) (rollingFrom_extreme_nan beats n (min a xs.length) 0)

end Rolling

end MarketFormula.Indicator

namespace MarketFormula.Windowed

open Indicator

theorem values_delayed {function : Windowed} (h : function = ma ∨ function = hhv ∨ function = llv)
    {n : Nat} (hn : 1 ≤ n) (a : Nat) (xs : List Float) :
    function.values n (delayed a xs) = (function.values n xs).map (delayed a) := by
  obtain rfl | rfl | rfl := h
  · exact congrArg Except.ok (movingAverage_delayed hn a xs)
  · exact congrArg Except.ok (rolling_extreme_delayed _ n a xs)
  · exact congrArg Except.ok (rolling_extreme_delayed _ n a xs)

end MarketFormula.Windowed
