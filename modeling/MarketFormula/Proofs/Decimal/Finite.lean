import MarketFormula.Proofs.Decimal.Exact
import MarketFormula.Proofs.Decimal.Rounding

/-!
# Results within the range of doubles

Rounding cuts a mantissa and adds one at most, and its result is in canonical form. So a product
with a factor of at most one is finite.
-/
namespace MarketFormula.Decimal

open Float.Model Float.Model.UnpackedFloat

lemma rationalOf_positive {m : Nat} {e : Int} (hm : 0 < m) :
    rationalOf (.finite .positive m e hm) = m * 2 ^ e := by
  rw [rationalOf, Sign.apply, Int.cast_natCast]

lemma IsNormal.toRat_eq {x : Float} {m : Nat} {e : Int} (h : IsNormal m e x.toModel.unpack) :
    toRat x = m * 2 ^ e := by
  obtain ⟨-, hm, hunpack⟩ := h
  rw [toRat, hunpack, rationalOf_positive]

section Round

variable {q : Nat} {e target : Int}

lemma canonical_shift {r : Nat} (hhigh : r ≤ 2 ^ 53) (hlow : -1074 ≤ e) (hlimit : e ≤ 970)
    (hform : 2 ^ 52 ≤ r ∨ e = -1074) :
    IsCanonical (shiftToTargetExponent .binary64 r e .exact).1.mantissa
        (shiftToTargetExponent .binary64 r e .exact).2 ∧
      ((shiftToTargetExponent .binary64 r e .exact).1.mantissa : ℚ) *
        2 ^ (shiftToTargetExponent .binary64 r e .exact).2 = r * 2 ^ e := by
  -- The second shift of rounding undoes a carry, and does nothing otherwise.
  rcases Nat.lt_or_eq_of_le hhigh with hlt | rfl
  · have hcanon : IsCanonical r e := ⟨hlt, hlow, by omega, hform⟩
    have hexponent : (shiftToTargetExponent .binary64 r e .exact).2 = e := by
      rw [snd_shift, hcanon.target]
      omega
    rw [hexponent, shift_of_le hcanon.target.le]
    exact ⟨hcanon, rfl⟩
  · have hshift : (max (((2 ^ 53 : Nat).log2 : Int) + 1 + e - 53) (-1074) - e).toNat = 1 := by
      rw [Nat.log2_two_pow]
      omega
    have hmantissa : (shiftToTargetExponent .binary64 (2 ^ 53) e .exact).1.mantissa = 2 ^ 52 := by
      rw [mantissa_shift, hshift]
      decide
    have hexponent : (shiftToTargetExponent .binary64 (2 ^ 53) e .exact).2 = e + 1 := by
      rw [snd_shift, hshift]
      rfl
    rw [hmantissa, hexponent]
    refine ⟨⟨by decide, by omega, by omega, .inl le_rfl⟩, ?_⟩
    rw [zpow_add_one₀ two_ne_zero]
    push_cast
    ring

lemma exists_round_eq (accuracy : Accuracy)
    (htarget : max ((q.log2 : Int) + 1 + e - 53) (-1074) = target) (he : e ≤ target)
    (hlimit : target ≤ 970) :
    ∃ r : Nat, q / 2 ^ (target - e).toNat ≤ r ∧ r ≤ q / 2 ^ (target - e).toNat + 1 ∧
      (unpack .binary64
        (pack .binary64 (roundWithAccuracy .binary64 .positive q e accuracy))).isFinite = true ∧
      rationalOf (unpack .binary64
        (pack .binary64 (roundWithAccuracy .binary64 .positive q e accuracy))) =
        r * 2 ^ target := by
  have hmantissa : (shiftToTargetExponent .binary64 q e accuracy).1.mantissa =
      q / 2 ^ (target - e).toNat := by
    rw [mantissa_shift, htarget]
  have hexponent : (shiftToTargetExponent .binary64 q e accuracy).2 = target := by
    rw [snd_shift, htarget]
    omega
  have hlt : (shiftToTargetExponent .binary64 q e accuracy).1.mantissa < 2 ^ 53 :=
    mantissa_shift_lt q e
  have hle := le_roundedMantissa (shiftToTargetExponent .binary64 q e accuracy).1
  have hge := roundedMantissa_le (shiftToTargetExponent .binary64 q e accuracy).1
  -- the first shift leaves 53 bits, unless it ends at the smallest exponent
  have hform : 2 ^ 52 ≤ (shiftToTargetExponent .binary64 q e accuracy).1.mantissa ∨
      target = -1074 := by
    by_cases hmin : target = -1074
    · exact .inr hmin
    · have hcut : (target - e).toNat = q.log2 - 52 := by omega
      rw [hmantissa, hcut]
      exact .inl (div_bounds (by omega)).1
  obtain ⟨hcanon, hvalue⟩ := canonical_shift (e := target) (r :=
    (shiftToTargetExponent .binary64 q e accuracy).1.roundedMantissa) (by omega) (by omega) hlimit
    (hform.imp_left hle.trans')
  refine ⟨_, hmantissa ▸ hle, hmantissa ▸ hge, ?_⟩
  rw [← hvalue]
  unfold roundWithAccuracy
  generalize shiftToTargetExponent .binary64 q e accuracy = first at *
  obtain ⟨em, e₁⟩ := first
  dsimp only at *
  subst hexponent
  split
  · next hzero =>
    rw [hzero, Nat.cast_zero, zero_mul]
    exact ⟨rfl, rfl⟩
  · next hne =>
    rw [unpack_pack (Nat.pos_of_ne_zero hne) hcanon]
    exact ⟨rfl, rationalOf_positive _⟩

lemma cut_value_le (he : e ≤ target) :
    ((q / 2 ^ (target - e).toNat : Nat) : ℚ) * 2 ^ target ≤ q * 2 ^ e := by
  have hpow : (2 : ℚ) ^ target = 2 ^ (target - e).toNat * 2 ^ e := by
    rw [← zpow_natCast, ← zpow_add₀ two_ne_zero]
    congr 1
    omega
  have hcut : (q / 2 ^ (target - e).toNat : Nat) * 2 ^ (target - e).toNat ≤ q :=
    Nat.div_mul_le_self ..
  rw [hpow, ← mul_assoc]
  exact mul_le_mul_of_nonneg_right (by exact_mod_cast hcut) (zpow_pos two_pos e).le

lemma rationalOf_round_ne_zero (hq : q ≠ 0) (he : -1074 ≤ e) (hsize : (q.log2 : Int) + e ≤ 1022) :
    rationalOf (unpack .binary64
      (pack .binary64 (UnpackedFloat.round .binary64 .positive q e))) ≠ 0 := by
  obtain ⟨j, hj⟩ : ∃ j : Nat, (e - max ((q.log2 : Int) + 1 + e - 53) (-1074)).toNat = j := ⟨_, rfl⟩
  have hround : UnpackedFloat.round .binary64 .positive q e =
      roundWithAccuracy .binary64 .positive (q * 2 ^ j) (e - j) .exact := by
    rw [← hj, ← Nat.shiftLeft_eq]
    rfl
  have hlog := log2_mul_two_pow j hq
  obtain ⟨r, hr, -, -, hvalue⟩ := exists_round_eq (q := q * 2 ^ j) (e := e - j) .exact rfl
    (by omega) (by omega)
  generalize htarget : max (((q * 2 ^ j).log2 : Int) + 1 + (e - j) - 53) (-1074) = target at *
  have hcut : 2 ^ (target - (e - j)).toNat ≤ q * 2 ^ j :=
    (Nat.le_log2 (Nat.mul_ne_zero hq (Nat.two_pow_pos j).ne')).mp (by omega)
  have hpos : 0 < r := (Nat.div_pos hcut (Nat.two_pow_pos _)).trans_le hr
  rw [hround, hvalue]
  exact (mul_pos (Nat.cast_pos.mpr hpos) (zpow_pos two_pos _)).ne'

lemma exponentAtMost_of_le (sign : Sign) (he : e ≤ 971)
    (hq : q ≤ (2 ^ 53 - 1) * 2 ^ (971 - e).toNat) :
    ExponentAtMost 971 (roundWithAccuracy .binary64 sign q e .exact) := by
  rcases Int.lt_or_eq_of_le he with hlt | hlast
  · have hhalf : q / 2 ^ (970 - e).toNat ≤ (2 ^ 53 - 1) * 2 := by
      have hpow : 2 ^ (971 - e).toNat = 2 ^ (970 - e).toNat * 2 := by
        rw [← Nat.pow_succ]
        congr 1
        omega
      rw [hpow, Nat.mul_left_comm] at hq
      exact Nat.div_le_of_le_mul hq
    exact exponentAtMost_of_half sign (by omega) (by omega)
  · have hbits : q.log2 ≤ 52 := by
      apply log2_le_of_lt
      rw [hlast, Int.sub_self, Int.toNat_zero] at hq
      omega
    have hshift : max ((q.log2 : Int) + 1 + e - 53) (-1074) ≤ e := by omega
    apply exponentAtMost_roundWithAccuracy (by decide)
    · rw [snd_shift]
      omega
    · rw [shift_of_le hshift, roundedMantissa_of_roundBit rfl, snd_shift]
      dsimp only
      omega

end Round

lemma isFinite_of_exponentAtMost {limit : Int} {u : UnpackedFloat} (h : ExponentAtMost limit u) :
    u.isFinite = true := by
  cases u with
  | notANumber => exact h.elim
  | infinity sign => exact h.elim
  | _ => rfl

lemma le_two_pow_of_value_le_one {m : Nat} {e : Int} (hm : 0 < m) (h : (m : ℚ) * 2 ^ e ≤ 1) :
    e ≤ 0 ∧ m ≤ 2 ^ (-e).toNat := by
  -- The exponent of a number of at most one makes up for its mantissa.
  have hone : (1 : ℚ) ≤ m := by exact_mod_cast hm
  have hpow : (0 : ℚ) < 2 ^ e := zpow_pos two_pos e
  have he : e ≤ 0 := (zpow_le_one_iff_right₀ one_lt_two).mp
    ((le_mul_of_one_le_left hpow.le hone).trans h)
  refine ⟨he, ?_⟩
  have hm : (m : ℚ) ≤ 2 ^ (-e) := by
    rw [zpow_neg, ← one_div]
    exact (le_div_iff₀ hpow).mpr h
  rw [← Int.toNat_of_nonneg (show 0 ≤ -e by omega), zpow_natCast] at hm
  exact_mod_cast hm

lemma abs_rationalOf_finite (sign : Sign) {m : Nat} {e : Int} {hm : 0 < m} :
    |rationalOf (.finite sign m e hm)| = m * 2 ^ e := by
  have hvalue : (0 : ℚ) ≤ m * 2 ^ e := mul_nonneg m.cast_nonneg (zpow_pos two_pos e).le
  cases sign with
  | positive => exact abs_of_nonneg hvalue
  | negative =>
    have hopposite : rationalOf (.finite .negative m e hm) = -(m * 2 ^ e) := by
      simp [rationalOf, Sign.apply]
    rw [hopposite, abs_neg, abs_of_nonneg hvalue]

section Operations

variable {x y : Float} (hx : x.isFinite = true) (hy : y.isFinite = true)

include hx hy

theorem isFinite_mul (h : |toRat y| ≤ 1) : (x * y).isFinite = true := by
  have hproduct : ExponentAtMost 971
      (UnpackedFloat.mul .binary64 x.toModel.unpack y.toModel.unpack) := by
    obtain ⟨sx, hux⟩ | ⟨sx, mx, ex, hmx, hux, hcanonx⟩ := unpack_of_isFinite hx <;>
      obtain ⟨sy, huy⟩ | ⟨sy, my, ey, hmy, huy, -⟩ := unpack_of_isFinite hy <;> rw [hux, huy]
    case inr.inr =>
      obtain ⟨hlt, -, hhigh, -⟩ := hcanonx
      rw [toRat, huy, abs_rationalOf_finite] at h
      obtain ⟨hexponent, hmantissa⟩ := le_two_pow_of_value_le_one hmy h
      refine exponentAtMost_of_le (sx * sy) (by omega) (Nat.mul_le_mul (by omega) ?_)
      exact hmantissa.trans (Nat.pow_le_pow_right (by decide) (by omega))
    all_goals trivial
  exact isFinite_of_exponentAtMost (exponentAtMost_unpack_pack (by decide) le_rfl hproduct)

theorem toRat_sub_ne_zero (hlt : toRat y < toRat x) (hnear : toRat x - toRat y ≤ 1) :
    toRat (x - y) ≠ 0 := by
  have hnegative : (-y).isFinite = true := (isFinite_neg y).trans hy
  rw [sub_eq_add]
  by_cases hxzero : toRat x = 0
  · have hne : toRat (-y) ≠ 0 := by
      rw [toRat_neg]
      linarith
    rwa [add_eq_of_toRat hx hnegative (by rw [hxzero, zero_add]) hne]
  by_cases hyzero : toRat y = 0
  · rwa [add_eq_of_toRat hx hnegative (by rw [toRat_neg, hyzero, neg_zero, add_zero]) hxzero]
  obtain ⟨sx, mx, ex, hmx, hux, hcanonx⟩ := unpack_of_toRat_ne_zero hxzero
  obtain ⟨sy, my, ey, hmy, huy, hcanony⟩ := unpack_of_toRat_ne_zero (x := -y)
    (by rw [toRat_neg]; exact neg_ne_zero.mpr hyzero)
  obtain ⟨M, hadd, hvalue⟩ := exists_add_eq_normalize sx sy ex ey hmx hmy
  rw [← hux, ← huy, ← toRat, ← toRat, toRat_neg, ← sub_eq_add_neg] at hvalue
  have hpow : (0 : ℚ) < 2 ^ min ex ey := zpow_pos two_pos _
  have hM : 0 < M := by
    have hpos : (0 : ℚ) < M * 2 ^ min ex ey := by linarith
    exact_mod_cast pos_of_mul_pos_left hpos hpow.le
  lift M to ℕ using hM.le
  obtain ⟨hexponent, hmantissa⟩ := le_two_pow_of_value_le_one (by exact_mod_cast hM)
    (hvalue.trans_le hnear)
  have hround : UnpackedFloat.normalize .binary64 M (min ex ey) .positive =
      UnpackedFloat.round .binary64 .positive M (min ex ey) := by
    unfold UnpackedFloat.normalize
    rw [Int.compare_eq_gt.mpr hM]
    rfl
  have hlow : -1074 ≤ min ex ey := le_min hcanonx.2.1 hcanony.2.1
  have hlog := log2_le_of_le hmantissa
  rw [add_eq_pack, hux, huy, hadd, hround]
  exact rationalOf_round_ne_zero (by omega) hlow (by omega)

end Operations

lemma quotient_value_le (m s : Nat) (e : Int) :
    ((2 ^ 52 * 2 ^ s / m : Nat) : ℚ) * 2 ^ (-51 - e - s) ≤ 2 / (m * 2 ^ e) := by
  have hcut : ((2 ^ 52 * 2 ^ s / m : Nat) : ℚ) ≤ 2 ^ 52 * 2 ^ s / m := by
    exact_mod_cast Nat.cast_div_le (α := ℚ)
  have hpow : (2 : ℚ) ^ 52 * 2 ^ s * 2 ^ (-51 - e - s) = 2 / 2 ^ e := by
    rw [← zpow_natCast, ← zpow_natCast, ← zpow_add₀ two_ne_zero, ← zpow_add₀ two_ne_zero,
      div_eq_mul_inv, ← zpow_neg, ← zpow_one_add₀ two_ne_zero]
    congr 1
    omega
  calc ((2 ^ 52 * 2 ^ s / m : Nat) : ℚ) * 2 ^ (-51 - e - s)
      ≤ 2 ^ 52 * 2 ^ s / m * 2 ^ (-51 - e - s) :=
        mul_le_mul_of_nonneg_right hcut (zpow_pos two_pos _).le
    _ = 2 / (m * 2 ^ e) := by rw [div_mul_eq_mul_div, hpow, div_div, mul_comm (2 ^ e)]

lemma unpack_two : (2.0 : Float).toModel.unpack = .finite .positive (2 ^ 52) (-51) (by decide) :=
  rfl

section Quotient

variable {d : Float} {m : Nat} {e : Int} (hd : IsNormal m e d.toModel.unpack) (hlow : -51 ≤ e)
  (hhigh : e ≤ 971)

include hd hlow hhigh

lemma unpack_two_div : ∃ s : Nat, (s : Int) = min 53 (1023 - e) ∧
    (2.0 / d).toModel.unpack = unpack .binary64 (pack .binary64
      (roundWithAccuracy .binary64 .positive (2 ^ 52 * 2 ^ s / m) (-51 - e - s)
        (accuracyOfFraction (2 ^ 52 * 2 ^ s % m) m))) := by
  obtain ⟨hlog, hm, hunpack⟩ := hd
  obtain ⟨s, hs⟩ : ∃ s : Nat, (s : Int) = min 53 (1023 - e) := ⟨(min 53 (1023 - e)).toNat, by omega⟩
  have htarget : min (-51 - e) (Format.binary64.targetExponent
      (totalExponent (2 ^ 52) (-51) - totalExponent m e)) = -51 - e - s := by
    have htotal : totalExponent (2 ^ 52) (-51) - totalExponent m e = -51 - e := by
      rw [totalExponent, totalExponent, Nat.log2_two_pow, hlog]
      omega
    have hformat : ∀ t, Format.binary64.targetExponent t = max (t - 53) (-1074) := fun _ => rfl
    rw [htotal, hformat]
    omega
  have hshift : (-51 - e - (-51 - e - (s : Int))).toNat = s := by omega
  refine ⟨s, hs, ?_⟩
  change unpack .binary64 (pack .binary64
    (UnpackedFloat.div .binary64 (2.0 : Float).toModel.unpack d.toModel.unpack)) = _
  rw [unpack_two, hunpack]
  simp only [UnpackedFloat.div, divCore, htarget, hshift, Nat.shiftLeft_eq]
  rfl

/-- Two divided by two or more is finite, and rounded up by a small amount at most. -/
theorem toRat_two_div_le : (2.0 / d).isFinite = true ∧ 0 ≤ toRat (2.0 / d) ∧
    toRat (2.0 / d) ≤ 2 / toRat d + 2 ^ (-52 : ℤ) := by
  obtain ⟨s, hs, hdiv⟩ := unpack_two_div hd hlow hhigh
  have hnormal := hd
  obtain ⟨hlog, hm, -⟩ := hd
  obtain ⟨hmlow, hmhigh⟩ := bounds_of_log2 hlog
  obtain ⟨q, hq⟩ : ∃ q, 2 ^ 52 * 2 ^ s / m = q := ⟨_, rfl⟩
  rw [hq] at hdiv
  have hquotient : (q : ℚ) * 2 ^ (-51 - e - s) ≤ 2 / toRat d := by
    rw [hnormal.toRat_eq, ← hq]
    exact quotient_value_le m s e
  have hbits : q.log2 ≤ s := by
    apply log2_le_of_le
    rw [← hq]
    exact Nat.div_le_of_le_mul (Nat.mul_le_mul_right _ hmlow)
  -- a quotient that is not cut at the smallest exponent has 53 bits
  have hfull : s = 53 → 52 ≤ q.log2 := by
    rintro rfl
    have hle : 2 ^ 52 ≤ q := by
      rw [← hq]
      exact (Nat.le_div_iff_mul_le hm).mpr (Nat.mul_le_mul_left _ hmhigh.le)
    exact (Nat.le_log2 (by omega)).mpr hle
  obtain ⟨target, htarget⟩ : ∃ target : Int,
    max ((q.log2 : Int) + 1 + (-51 - e - s) - 53) (-1074) = target := ⟨_, rfl⟩
  obtain ⟨r, -, hr, hfinite, hround⟩ := exists_round_eq
    (accuracyOfFraction (2 ^ 52 * 2 ^ s % m) m) htarget (by omega) (by omega)
  rw [← hdiv] at hfinite hround
  have hunit : (2 : ℚ) ^ target ≤ 2 ^ (-52 : ℤ) := zpow_le_zpow_right₀ one_le_two (by omega)
  have hsum : (r : ℚ) * 2 ^ target ≤ q * 2 ^ (-51 - e - s) + 2 ^ target := by
    have hcut := cut_value_le (q := q) (show -51 - e - s ≤ target by omega)
    have hr' : (r : ℚ) ≤ (q / 2 ^ (target - (-51 - e - s)).toNat : Nat) + 1 := by exact_mod_cast hr
    have hscaled := mul_le_mul_of_nonneg_right hr' (zpow_pos two_pos target).le
    rw [add_one_mul] at hscaled
    linarith
  have hvalue : toRat (2.0 / d) = r * 2 ^ target := hround
  rw [hvalue]
  exact ⟨hfinite, mul_nonneg r.cast_nonneg (zpow_pos two_pos _).le,
    hsum.trans (add_le_add hquotient hunit)⟩

end Quotient

lemma exists_isNormal_float {n : Nat} (hn : 2 ≤ n) (hrange : n < overflow) : ∃ m e,
    IsNormal m e (Float.ofNat n).toModel.unpack ∧ -51 ≤ e ∧ e ≤ 971 ∧
      ((min n (2 ^ 53) : Nat) : ℚ) ≤ toRat (Float.ofNat n) := by
  suffices hnormal : ∃ m e, IsNormal m e (Float.ofNat n).toModel.unpack ∧ -51 ≤ e ∧ e ≤ 971 ∧
      ((min n (2 ^ 53) : Nat) : ℚ) ≤ m * 2 ^ e by
    obtain ⟨m, e, hnormal, hlow, hhigh, hle⟩ := hnormal
    exact ⟨m, e, hnormal, hlow, hhigh, hnormal.toRat_eq.symm ▸ hle⟩
  have hne : n ≠ 0 := by omega
  change ∃ m e, IsNormal m e (Float.ofScientific n false 0).toModel.unpack ∧ _
  rcases Nat.lt_or_ge n (2 ^ 53) with hsmall | hlarge
  · have hlog : n.log2 ≤ 52 := log2_le_of_lt hsmall
    have hone : 1 ≤ n.log2 := (Nat.le_log2 hne).mpr hn
    refine ⟨n * 2 ^ (52 - n.log2), n.log2 - 52, ?_, by omega, by omega, ?_⟩
    · unfold Float.ofScientific
      rw [dif_pos ⟨hsmall, by decide⟩]
      exact (isNormal_small_product hne hsmall).unpack_pack (by omega) (by omega)
    · have hpow : (2 : ℚ) ^ (52 - n.log2) * 2 ^ ((n.log2 : Int) - 52) = 1 := by
        have hexponent : ((52 - n.log2 : Nat) : Int) + (n.log2 - 52) = 0 := by omega
        rw [← zpow_natCast, ← zpow_add₀ two_ne_zero, hexponent, zpow_zero]
      rw [Nat.min_eq_left hsmall.le, Nat.cast_mul, mul_assoc]
      push_cast
      rw [hpow, mul_one]
  · obtain ⟨m, e, hnormal, hlow, hfinite⟩ :=
      exists_isNormal_ofScientific ((Nat.le_log2 hne).mpr hlarge)
    obtain ⟨hmlow, -⟩ := bounds_of_log2 hnormal.1
    have hhigh := hfinite.mpr hrange
    refine ⟨m, e, ?_, by omega, hhigh, ?_⟩
    · rw [ofScientific_of_le hlarge]
      exact hnormal.unpack_pack (by omega) hhigh
    · rw [Nat.min_eq_right hlarge]
      calc ((2 ^ 53 : Nat) : ℚ) = 2 ^ 52 * 2 ^ (1 : ℤ) := by norm_num
        _ ≤ m * 2 ^ e := by
          refine mul_le_mul (by exact_mod_cast hmlow) (zpow_le_zpow_right₀ one_le_two hlow) ?_ ?_
          · exact (zpow_pos two_pos 1).le
          · exact m.cast_nonneg

end MarketFormula.Decimal
