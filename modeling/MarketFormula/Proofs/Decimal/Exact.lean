import MarketFormula.Proofs.Decimal.Canonical

/-!
# Exact sums of doubles

A finite double stands for a rational number. A sum of two doubles whose value is that of a double
is this double.
-/
namespace MarketFormula.Decimal

open Float.Model Float.Model.UnpackedFloat

def rationalOf : UnpackedFloat → ℚ
  | .finite sign m e _ => (sign.apply m : ℤ) * 2 ^ e
  | _ => 0

/-- The number that a finite double stands for, and zero for the other ones. -/
def toRat (x : Float) : ℚ :=
  rationalOf x.toModel.unpack

lemma ofModel_pack_unpack (x : Float) : Float.ofModel (Float.Model.pack x.toModel.unpack) = x :=
  Float.ofBits_toBits x

lemma eq_of_unpack_eq {x y : Float} (h : x.toModel.unpack = y.toModel.unpack) : x = y := by
  rw [← ofModel_pack_unpack x, h, ofModel_pack_unpack]

lemma eq_of_value_eq {M m : Nat} {E e : Int} (h : (M : ℚ) * 2 ^ E = m * 2 ^ e) :
    M * 2 ^ (E - e).toNat = m * 2 ^ (e - E).toNat := by
  have htwo : (2 : ℚ) ≠ 0 := two_ne_zero
  have hM : (M : ℚ) * 2 ^ (E - e).toNat = M * 2 ^ E * 2 ^ (-min E e) := by
    rw [mul_assoc, ← zpow_add₀ htwo, ← zpow_natCast]
    congr 2
    omega
  have hm : (m : ℚ) * 2 ^ (e - E).toNat = m * 2 ^ e * 2 ^ (-min E e) := by
    rw [mul_assoc, ← zpow_add₀ htwo, ← zpow_natCast]
    congr 2
    omega
  have hcast : (M : ℚ) * 2 ^ (E - e).toNat = m * 2 ^ (e - E).toNat := by
    rw [hM, hm, h]
  exact_mod_cast hcast

lemma apply_eq {M : ℤ} {E e : Int} {sign : Sign} {m : Nat} (hm : 0 < m)
    (h : (M : ℚ) * 2 ^ E = (sign.apply m : ℤ) * 2 ^ e) :
    ∃ k : Nat, 0 < k ∧ M = sign.apply k ∧ (k : ℚ) * 2 ^ E = m * 2 ^ e := by
  have hpos : (0 : ℚ) < 2 ^ E := zpow_pos two_pos E
  have hright : (0 : ℚ) < m * 2 ^ e := mul_pos (Nat.cast_pos.mpr hm) (zpow_pos two_pos e)
  have hkey : ∀ k : ℤ, (k : ℚ) * 2 ^ E = m * 2 ^ e →
      ∃ j : Nat, 0 < j ∧ k = j ∧ (j : ℚ) * 2 ^ E = m * 2 ^ e := by
    intro k hk
    have hk0 : 0 < k := by
      have hprod : (0 : ℚ) < k * 2 ^ E := hk ▸ hright
      exact_mod_cast pos_of_mul_pos_left hprod hpos.le
    lift k to ℕ using hk0.le
    exact ⟨k, by exact_mod_cast hk0, rfl, by exact_mod_cast hk⟩
  cases sign with
  | positive => exact hkey M h
  | negative =>
    obtain ⟨k, hk, heq, hvalue⟩ := hkey (-M) (by
      rw [Sign.apply, Int.cast_neg, Int.cast_natCast] at h
      rw [Int.cast_neg, neg_mul, h, neg_mul, neg_neg])
    exact ⟨k, hk, Int.eq_neg_comm.mp heq.symm, hvalue⟩

lemma normalize_eq_finite {M : ℤ} {E e : Int} {sign : Sign} {m : Nat} (hm : 0 < m)
    (h : IsCanonical m e) (hsame : (M : ℚ) * 2 ^ E = rationalOf (.finite sign m e hm)) :
    UnpackedFloat.normalize .binary64 M E .positive = .finite sign m e hm := by
  obtain ⟨k, hk, rfl, hvalue⟩ := apply_eq hm hsame
  have hround := round_eq_finite sign hm h (eq_of_value_eq hvalue)
    (show E - ((E - e).toNat : Int) = e - ((e - E).toNat : Int) by omega)
  unfold UnpackedFloat.normalize
  cases sign with
  | positive =>
    rw [Sign.apply, Int.compare_eq_gt.mpr (Int.natCast_pos.mpr hk)]
    exact hround
  | negative =>
    rw [Sign.apply, Int.compare_eq_lt.mpr (by omega)]
    dsimp only
    rw [Int.neg_neg]
    exact hround

lemma unpack_neg (x : Float) : (-x).toModel.unpack = x.toModel.unpack.neg := by
  change (Float.Model.pack x.toModel.unpack.neg).unpack = x.toModel.unpack.neg
  cases hx : x.toModel.unpack with
  | notANumber => rfl
  | infinity sign => cases sign <;> rfl
  | zero sign => cases sign <;> rfl
  | finite sign m e hm => exact unpack_pack hm (canonical_of_unpack hx)

lemma neg_neg_eq (x : Float) : - -x = x := by
  apply eq_of_unpack_eq
  rw [unpack_neg, unpack_neg]
  cases x.toModel.unpack with
  | notANumber => rfl
  | _ sign => cases sign <;> rfl

lemma apply_neg (sign : Sign) (k : ℤ) : (-sign).apply k = -sign.apply k := by
  cases sign with
  | positive => rfl
  | negative => exact (Int.neg_neg k).symm

lemma rationalOf_neg (u : UnpackedFloat) : rationalOf u.neg = -rationalOf u := by
  cases u with
  | finite sign m e hm => simp [rationalOf, UnpackedFloat.neg, apply_neg]
  | _ => rfl

lemma toRat_neg (x : Float) : toRat (-x) = -toRat x := by
  rw [toRat, unpack_neg, rationalOf_neg, toRat]

lemma isFinite_neg (x : Float) : (-x).isFinite = x.isFinite := by
  change (-x).toModel.unpack.isFinite = x.toModel.unpack.isFinite
  rw [unpack_neg]
  cases x.toModel.unpack <;> rfl

lemma sub_eq_add (x y : Float) : x - y = x + -y := by
  have hmodel : UnpackedFloat.sub .binary64 x.toModel.unpack y.toModel.unpack =
      UnpackedFloat.add .binary64 x.toModel.unpack (-y).toModel.unpack := by
    rw [unpack_neg]
    cases x.toModel.unpack <;> cases y.toModel.unpack <;>
      simp [UnpackedFloat.sub, UnpackedFloat.add, UnpackedFloat.neg, apply_neg, Int.sub_eq_add_neg]
  change Float.ofModel (Float.Model.pack _) = Float.ofModel (Float.Model.pack _)
  rw [hmodel]

lemma unpack_of_isFinite {x : Float} (h : x.isFinite = true) :
    (∃ sign, x.toModel.unpack = .zero sign) ∨
      ∃ sign m e hm, x.toModel.unpack = .finite sign m e hm ∧ IsCanonical m e := by
  change x.toModel.unpack.isFinite = true at h
  cases hx : x.toModel.unpack with
  | notANumber => rw [hx] at h; cases h
  | infinity sign => rw [hx] at h; cases h
  | zero sign => exact .inl ⟨sign, rfl⟩
  | finite sign m e hm => exact .inr ⟨sign, m, e, hm, rfl, canonical_of_unpack hx⟩

lemma rationalOf_finite_ne_zero {sign : Sign} {m : Nat} {e : Int} {hm : 0 < m} :
    rationalOf (.finite sign m e hm) ≠ 0 := by
  have hpow : (2 : ℚ) ^ e ≠ 0 := zpow_ne_zero e two_ne_zero
  cases sign <;> simp [rationalOf, Sign.apply, hm.ne', hpow]

lemma unpack_of_toRat_ne_zero {x : Float} (h : toRat x ≠ 0) :
    ∃ sign m e hm, x.toModel.unpack = .finite sign m e hm ∧ IsCanonical m e := by
  unfold toRat at h
  cases hx : x.toModel.unpack with
  | finite sign m e hm => exact ⟨sign, m, e, hm, rfl, canonical_of_unpack hx⟩
  | _ => rw [hx] at h; exact absurd rfl h

lemma unpack_of_toRat_eq_zero {x : Float} (hx : x.isFinite = true) (h : toRat x = 0) :
    ∃ sign, x.toModel.unpack = .zero sign := by
  obtain hzero | ⟨sign, m, e, hm, hunpack, -⟩ := unpack_of_isFinite hx
  · exact hzero
  · rw [toRat, hunpack] at h
    exact absurd h rationalOf_finite_ne_zero

lemma toRat_of_unpack_zero {x : Float} {sign : Sign} (h : x.toModel.unpack = .zero sign) :
    toRat x = 0 := by
  rw [toRat, h]
  rfl

lemma add_eq_pack (x y : Float) : x + y = .ofModel (Float.Model.pack
    (UnpackedFloat.add .binary64 x.toModel.unpack y.toModel.unpack)) := rfl

theorem eq_of_toRat_eq {x y : Float} (h : toRat x = toRat y) (hne : toRat y ≠ 0) : x = y := by
  obtain ⟨sx, mx, ex, hmx, hx, hcanonx⟩ := unpack_of_toRat_ne_zero (h ▸ hne)
  obtain ⟨sy, my, ey, hmy, hy, hcanony⟩ := unpack_of_toRat_ne_zero hne
  apply eq_of_unpack_eq
  have hvalue : ((sx.apply mx : ℤ) : ℚ) * 2 ^ ex = rationalOf (.finite sy my ey hmy) := by
    rw [← hy, ← toRat, ← h, toRat, hx]
    rfl
  have hself : UnpackedFloat.normalize .binary64 (sx.apply mx) ex .positive =
      .finite sx mx ex hmx := normalize_eq_finite hmx hcanonx rfl
  have hother := normalize_eq_finite hmy hcanony hvalue
  rw [hx, hy, ← hself, hother]

lemma decreaseExponent_eq (sign : Sign) (m : Nat) {e E : Int} (h : E ≤ e) :
    ((sign.apply (decreaseExponent m e E).1 : ℤ) : ℚ) * 2 ^ E = (sign.apply m : ℤ) * 2 ^ e := by
  have hvalue : (((decreaseExponent m e E).1 : ℕ) : ℚ) * 2 ^ E = m * 2 ^ e := by
    unfold decreaseExponent
    dsimp only
    rw [Nat.shiftLeft_eq, Nat.cast_mul, Nat.cast_pow, Nat.cast_ofNat, mul_assoc, ← zpow_natCast,
      ← zpow_add₀ two_ne_zero]
    congr 2
    omega
  cases sign <;> simp [Sign.apply, hvalue]

lemma exists_add_eq_normalize (sx sy : Sign) {mx my : Nat} (ex ey : Int) (hmx : 0 < mx)
    (hmy : 0 < my) : ∃ M : ℤ,
    UnpackedFloat.add .binary64 (.finite sx mx ex hmx) (.finite sy my ey hmy) =
        UnpackedFloat.normalize .binary64 M (min ex ey) .positive ∧
      (M : ℚ) * 2 ^ min ex ey =
        rationalOf (.finite sx mx ex hmx) + rationalOf (.finite sy my ey hmy) := by
  refine ⟨_, rfl, ?_⟩
  have hleft := decreaseExponent_eq sx mx (Int.min_le_left ex ey)
  have hright := decreaseExponent_eq sy my (Int.min_le_right ex ey)
  rw [Int.cast_add, add_mul]
  exact congrArg₂ (· + ·) hleft hright

theorem add_eq_of_toRat {x y z : Float} (hx : x.isFinite = true) (hy : y.isFinite = true)
    (h : toRat x + toRat y = toRat z) (hne : toRat z ≠ 0) : x + y = z := by
  rw [add_eq_pack]
  obtain ⟨sx, hux⟩ | ⟨sx, mx, ex, hmx, hux, -⟩ := unpack_of_isFinite hx
  · rw [toRat_of_unpack_zero hux, zero_add] at h
    have hyz := eq_of_toRat_eq h hne
    subst hyz
    obtain ⟨sy, my, ey, hmy, huy, -⟩ := unpack_of_toRat_ne_zero hne
    rw [hux, huy]
    change Float.ofModel (Float.Model.pack (.finite sy my ey hmy)) = y
    rw [← huy, ofModel_pack_unpack]
  · obtain ⟨sy, huy⟩ | ⟨sy, my, ey, hmy, huy, -⟩ := unpack_of_isFinite hy
    · rw [toRat_of_unpack_zero huy, add_zero] at h
      have hxz := eq_of_toRat_eq h hne
      subst hxz
      rw [hux, huy]
      change Float.ofModel (Float.Model.pack (.finite sx mx ex hmx)) = x
      rw [← hux, ofModel_pack_unpack]
    · obtain ⟨sz, mz, ez, hmz, huz, hcanon⟩ := unpack_of_toRat_ne_zero hne
      rw [hux, huy]
      obtain ⟨M, hadd, hvalue⟩ := exists_add_eq_normalize sx sy ex ey hmx hmy
      have hsame : (M : ℚ) * 2 ^ min ex ey = rationalOf (.finite sz mz ez hmz) := by
        rw [hvalue, ← hux, ← huy, ← huz]
        exact h
      rw [hadd, normalize_eq_finite hmz hcanon hsame, ← huz, ofModel_pack_unpack]

theorem add_eq_zero_of_toRat {x y : Float} (hx : x.isFinite = true) (hy : y.isFinite = true)
    (h : toRat x + toRat y = 0) (hsigns : ¬ (x = -0.0 ∧ y = -0.0)) : x + y = 0.0 := by
  rw [add_eq_pack]
  obtain ⟨sx, hux⟩ | ⟨sx, mx, ex, hmx, hux, -⟩ := unpack_of_isFinite hx
  · rw [toRat_of_unpack_zero hux, zero_add] at h
    obtain ⟨sy, huy⟩ := unpack_of_toRat_eq_zero hy h
    cases sx <;> cases sy
    · exact absurd ⟨eq_of_unpack_eq hux, eq_of_unpack_eq huy⟩ hsigns
    all_goals
      rw [hux, huy]
      rfl
  · have hney : toRat y ≠ 0 := by
      intro hzero
      rw [hzero, add_zero, toRat, hux] at h
      exact rationalOf_finite_ne_zero h
    obtain ⟨sy, my, ey, hmy, huy, -⟩ := unpack_of_toRat_ne_zero hney
    obtain ⟨M, hadd, hvalue⟩ := exists_add_eq_normalize sx sy ex ey hmx hmy
    have hM : M = 0 := by
      rw [← hux, ← huy, ← toRat, ← toRat, h] at hvalue
      have hpow : (2 : ℚ) ^ min ex ey ≠ 0 := zpow_ne_zero _ two_ne_zero
      exact_mod_cast (mul_eq_zero.mp hvalue).resolve_right hpow
    rw [hux, huy, hadd, hM]
    rfl

lemma sub_zero_eq (x : Float) : x - 0.0 = x := by
  have hmodel : UnpackedFloat.sub .binary64 x.toModel.unpack (0.0 : Float).toModel.unpack =
      x.toModel.unpack := by
    rw [unpack_zero]
    cases x.toModel.unpack with
    | zero sign => cases sign <;> rfl
    | _ => rfl
  change Float.ofModel (Float.Model.pack (UnpackedFloat.sub .binary64 _ _)) = x
  rw [hmodel, ofModel_pack_unpack]

lemma sub_self_eq {x : Float} (hx : x.isFinite = true) : x - x = 0.0 := by
  rw [sub_eq_add]
  refine add_eq_zero_of_toRat hx ((isFinite_neg x).trans hx) ?_ ?_
  · rw [toRat_neg, add_neg_cancel]
  · rintro ⟨rfl, hneg⟩
    exact absurd hneg (by decide +kernel)

/-- A finite double that stands for a number; zero is the positive one. -/
structure Represents (q : ℚ) (x : Float) : Prop where
  isFinite : x.isFinite = true
  toRat_eq : toRat x = q
  eq_zero : q = 0 → x = 0.0

def Representable (q : ℚ) : Prop :=
  ∃ x, Represents q x

lemma represents_zero : Represents 0 0.0 := ⟨by decide +kernel, rfl, fun _ => rfl⟩

namespace Represents

variable {q : ℚ} {x y total : Float}

lemma unique (hx : Represents q x) (hy : Represents q y) : x = y := by
  by_cases hq : q = 0
  · rw [hx.eq_zero hq, hy.eq_zero hq]
  · exact eq_of_toRat_eq (hx.toRat_eq.trans hy.toRat_eq.symm) (hy.toRat_eq.trans_ne hq)

lemma ne_neg_zero (h : Represents q x) : x ≠ -0.0 := by
  rintro rfl
  have hvalue : q = 0 := h.toRat_eq.symm
  exact absurd (h.eq_zero hvalue) (by decide +kernel)

variable (h : Represents q total) (hx : x.isFinite = true) (hsum : Representable (q + toRat x))

include h hx hsum

lemma add : Represents (q + toRat x) (total + x) := by
  obtain ⟨z, hz⟩ := hsum
  have hvalue : toRat total + toRat x = toRat z := by rw [h.toRat_eq, hz.toRat_eq]
  suffices hsum : total + x = z by rwa [hsum]
  by_cases hzero : q + toRat x = 0
  · rw [hz.eq_zero hzero]
    refine add_eq_zero_of_toRat h.isFinite hx ?_ fun hsigns => h.ne_neg_zero hsigns.1
    rw [hvalue, hz.toRat_eq, hzero]
  · exact add_eq_of_toRat h.isFinite hx hvalue (hz.toRat_eq.trans_ne hzero)

lemma owed : total + x - total - x = 0.0 := by
  have htotal := h.add hx hsum
  have hnegative : (-total).isFinite = true := (isFinite_neg total).trans h.isFinite
  have hdifference : toRat (total + x) + toRat (-total) = toRat x := by
    rw [htotal.toRat_eq, toRat_neg, h.toRat_eq]
    ring
  by_cases hzero : toRat x = 0
  · have hback : total + x - total = 0.0 := by
      rw [sub_eq_add]
      refine add_eq_zero_of_toRat htotal.isFinite hnegative (hdifference.trans hzero) ?_
      exact fun hsigns => htotal.ne_neg_zero hsigns.1
    rw [hback, sub_eq_add]
    refine add_eq_zero_of_toRat (by decide +kernel) ((isFinite_neg x).trans hx) ?_ ?_
    · rw [toRat_neg, hzero, represents_zero.toRat_eq, neg_zero, add_zero]
    · exact fun hsigns => represents_zero.ne_neg_zero hsigns.1
  · have hback : total + x - total = x := by
      rw [sub_eq_add]
      exact add_eq_of_toRat htotal.isFinite hnegative hdifference hzero
    rw [hback, sub_self_eq hx]

end Represents

theorem representable_of_natAbs_lt {k : ℤ} {u : Int} (hk : k.natAbs < 2 ^ 53) (hlow : -1074 ≤ u)
    (hhigh : u ≤ 971) : Representable (k * 2 ^ u) := by
  by_cases hzero : k = 0
  · exact ⟨0.0, by rw [hzero, Int.cast_zero, zero_mul]; exact represents_zero⟩
  · obtain ⟨sign, m, hm, rfl⟩ : ∃ (sign : Sign) (m : Nat), 0 < m ∧ k = sign.apply m := by
      rcases Int.natAbs_eq k with hk' | hk'
      · exact ⟨.positive, k.natAbs, Int.natAbs_pos.mpr hzero, hk'⟩
      · exact ⟨.negative, k.natAbs, Int.natAbs_pos.mpr hzero, hk'⟩
    have hlt : m < 2 ^ 53 := by
      cases sign <;> simpa [Sign.apply] using hk
    have hlog : m.log2 ≤ 52 := log2_le_of_lt hlt
    -- zeros are appended until the mantissa is full or the exponent is the smallest one
    obtain ⟨j, hj⟩ : ∃ j : Nat, (j : Int) = min (52 - (m.log2 : Int)) (u + 1074) :=
      ⟨(min (52 - (m.log2 : Int)) (u + 1074)).toNat, by omega⟩
    have hpos : 0 < m * 2 ^ j := Nat.mul_pos hm (Nat.two_pow_pos j)
    have hshifted := log2_mul_two_pow j hm.ne'
    have hcanon : IsCanonical (m * 2 ^ j) (u - j) := by
      refine ⟨(Nat.log2_lt hpos.ne').mp (by omega), by omega, by omega, ?_⟩
      rcases Int.le_total (52 - (m.log2 : Int)) (u + 1074) with hfull | hsmall
      · exact .inl ((Nat.le_log2 hpos.ne').mp (by omega))
      · exact .inr (by omega)
    have hunpack :
        (Float.ofModel (Float.Model.pack (.finite sign (m * 2 ^ j) (u - j) hpos))).toModel.unpack =
          .finite sign (m * 2 ^ j) (u - j) hpos := unpack_pack hpos hcanon
    have hvalue : rationalOf (.finite sign (m * 2 ^ j) (u - j) hpos) =
        (sign.apply m : ℤ) * 2 ^ u := by
      have hpow : (2 : ℚ) ^ j * 2 ^ (u - j) = 2 ^ u := by
        rw [← zpow_natCast, ← zpow_add₀ two_ne_zero]
        congr 1
        omega
      cases sign <;> simp [rationalOf, Sign.apply, mul_assoc, hpow]
    exact ⟨_, congrArg UnpackedFloat.isFinite hunpack, (congrArg rationalOf hunpack).trans hvalue,
      fun hnone => absurd (hvalue.trans hnone) rationalOf_finite_ne_zero⟩

end MarketFormula.Decimal
