import MarketFormula.Proofs.Decimal.Finite
import MarketFormula.Proofs.Decimal.Missing
import MarketFormula.Proofs.Indicator.Stability

/-!
# Where exponential averages are missing

Each value of an exponential average is the sum of a part of the new entry and the rest of the
value before. A missing entry makes it missing from there on.
-/
namespace MarketFormula.Indicator

open Decimal Float.Model

structure IsWeight (weight : Float) : Prop where
  isFinite : weight.isFinite = true
  nonneg : 0 ≤ toRat weight
  le_one : toRat weight ≤ 1

lemma toRat_one : toRat 1.0 = 1 := by
  change ((2 ^ 52 : Int) : ℚ) * 2 ^ (-52 : ℤ) = 1
  norm_num

lemma rest_eq_zero {weight : Float} (hone : toRat weight = 1) : 1.0 - weight = 0.0 := by
  have hweight : weight = 1.0 :=
    eq_of_toRat_eq (hone.trans toRat_one.symm) (by rw [toRat_one]; exact one_ne_zero)
  rw [hweight]
  exact sub_self_eq (by decide +kernel)

namespace IsWeight

variable {weight x previous : Float} (hw : IsWeight weight)

include hw

lemma isFinite_mul (hx : x.isFinite = true) : (x * weight).isFinite = true :=
  Decimal.isFinite_mul hx hw.isFinite (by rw [abs_of_nonneg hw.nonneg]; exact hw.le_one)

lemma toRat_rest_ne_zero (hne : toRat weight ≠ 1) : toRat (1.0 - weight) ≠ 0 := by
  have hnonneg := hw.nonneg
  have hlt : toRat weight < 1 := lt_of_le_of_ne hw.le_one hne
  apply toRat_sub_ne_zero (by decide +kernel) hw.isFinite
  · rwa [toRat_one]
  · rw [toRat_one]
    linarith

lemma isNaN_step (hx : x.isInf = false) (hprevious : toRat weight = 1 → previous.isInf = false) :
    (x * weight + previous * (1.0 - weight)).isNaN = (x.isNaN || previous.isNaN) := by
  cases hxmissing : x.isNaN with
  | true => exact isNaN_add_of_isNaN_left (isNaN_mul_of_isNaN hxmissing _) _
  | false =>
    have hpart := hw.isFinite_mul (isFinite_of_isNaN_of_isInf hxmissing hx)
    cases hmissing : previous.isNaN with
    | true => exact isNaN_add_of_isNaN_right _ (isNaN_mul_of_isNaN hmissing _)
    | false =>
      apply isNaN_add_of_isFinite hpart
      by_cases hone : toRat weight = 1
      · have hfinite := isFinite_of_isNaN_of_isInf hmissing (hprevious hone)
        obtain ⟨sign, hzero⟩ := exists_unpack_mul_zero hfinite
        rw [rest_eq_zero hone]
        exact congrArg UnpackedFloat.isNaN hzero
      · exact isNaN_mul_of_toRat_ne_zero hmissing (hw.toRat_rest_ne_zero hone)

lemma isInf_step (hone : toRat weight = 1) (hx : x.isInf = false)
    (hprevious : previous.isInf = false) :
    (x * weight + previous * (1.0 - weight)).isInf = false := by
  have hstep := hw.isNaN_step hx fun _ => hprevious
  cases hmissing : x.isNaN || previous.isNaN with
  | true => exact isInf_of_isNaN (hstep.trans hmissing)
  | false =>
    obtain ⟨hxnumber, hnumber⟩ := Bool.or_eq_false_iff.mp hmissing
    have hpart := hw.isFinite_mul (isFinite_of_isNaN_of_isInf hxnumber hx)
    obtain ⟨sign, hzero⟩ :=
      exists_unpack_mul_zero (isFinite_of_isNaN_of_isInf hnumber hprevious)
    rw [rest_eq_zero hone]
    exact isInf_of_isFinite (isFinite_add_zero hpart hzero)

theorem isNaN_exponentialFrom {xs : List Float} (hxs : ∀ x ∈ xs, x.isInf = false)
    (hprevious : toRat weight = 1 → previous.isInf = false) {i : Nat} {y : Float}
    (hy : (exponentialFrom weight previous xs)[i]? = some y) :
    y.isNaN = (previous :: xs.take (i + 1)).any Float.isNaN := by
  -- the hypothesis on the value before is what a step keeps
  induction xs generalizing previous i with
  | nil => cases hy
  | cons x rest ih =>
    obtain ⟨hx, hrest⟩ := List.forall_mem_cons.mp hxs
    have hstep := hw.isNaN_step hx hprevious
    cases i with
    | zero =>
      cases hy
      rw [hstep, Bool.or_comm]
      simp
    | succ i =>
      have hnext := ih hrest (fun hone => hw.isInf_step hone hx (hprevious hone)) hy
      rw [hnext, List.any_cons, hstep]
      simp [Bool.or_assoc, Bool.or_left_comm]

theorem isNaN_exponentialAverage {xs : List Float} (hxs : ∀ x ∈ xs, x.isInf = false) {i : Nat}
    {y : Float} (hy : (exponentialAverage weight xs)[i]? = some y) :
    y.isNaN = (xs.take (i + 1)).any Float.isNaN := by
  cases xs with
  | nil => cases hy
  | cons x rest =>
    obtain ⟨hx, hrest⟩ := List.forall_mem_cons.mp hxs
    cases i with
    | zero =>
      cases hy
      simp
    | succ i => exact hw.isNaN_exponentialFrom hrest (fun _ => hx) hy

end IsWeight

lemma exponentialFrom_nan (weight : Float) (xs : List Float) :
    exponentialFrom weight nan xs = List.replicate xs.length nan := by
  induction xs with
  | nil => rfl
  | cons x rest ih =>
    have hnan : nan.isNaN = true := by decide +kernel
    have hnext : x * weight + nan * (1.0 - weight) = nan :=
      eq_nan_of_isNaN (isNaN_add_of_isNaN_right _ (isNaN_mul_of_isNaN hnan _))
    rw [exponentialFrom, hnext, ih]
    rfl

lemma exponentialAverage_of_head {weight : Float} {xs : List Float}
    (h : ∀ x ∈ xs.head?, x.isNaN = true) :
    exponentialAverage weight xs = List.replicate xs.length nan := by
  cases xs with
  | nil => rfl
  | cons x rest =>
    rw [exponentialAverage, eq_nan_of_isNaN (h x rfl), exponentialFrom_nan]
    rfl

/-- The weight of the newest value lies between zero and one for every window. -/
theorem exists_isWeight {n : Nat} (hpos : 1 ≤ n) (hn : n ≤ maxInteger) :
    ∃ weight, smoothing n = .ok weight ∧ IsWeight weight := by
  have hspan : Datum.floatOfInt ((n : Int) + 1) = .ok (Float.ofNat (n + 1)) :=
    Datum.floatOfInt_natCast (Nat.add_le_add_right hn 1)
  refine ⟨2.0 / Float.ofNat (n + 1), by simp only [smoothing, hspan]; rfl, ?_⟩
  obtain rfl | htwo := Nat.eq_or_lt_of_le hpos
  · have hone : 2.0 / Float.ofNat (1 + 1) = 1.0 := by decide +kernel
    rw [hone]
    exact ⟨by decide +kernel, by rw [toRat_one]; exact zero_le_one, toRat_one.le⟩
  · have hrange : n + 1 < overflow := (Nat.add_le_add_right hn 1).trans_lt (by decide +kernel)
    obtain ⟨m, e, hnormal, hlow, hhigh, hle⟩ := exists_isNormal_float (n := n + 1) (by omega) hrange
    obtain ⟨hfinite, hnonneg, hbound⟩ := toRat_two_div_le hnormal hlow hhigh
    refine ⟨hfinite, hnonneg, hbound.trans ?_⟩
    have hthree : (3 : ℚ) ≤ toRat (Float.ofNat (n + 1)) := by
      refine le_trans ?_ hle
      exact_mod_cast (show 3 ≤ min (n + 1) (2 ^ 53) by omega)
    calc 2 / toRat (Float.ofNat (n + 1)) + 2 ^ (-52 : ℤ) ≤ 2 / 3 + 2 ^ (-52 : ℤ) := by
          gcongr
      _ ≤ 1 := by norm_num

end MarketFormula.Indicator
