import MarketFormula.Proofs.Decimal.Number

/-!
# Canonical forms of doubles

A double other than zero is unpacked to one form: its mantissa has 53 bits, or fewer at the
smallest exponent.
-/
namespace MarketFormula.Decimal

open Float.Model Float.Model.UnpackedFloat

/-- A mantissa and an exponent in the form to which doubles are unpacked. -/
def IsCanonical (m : Nat) (e : Int) : Prop :=
  m < 2 ^ 53 ∧ -1074 ≤ e ∧ e ≤ 971 ∧ (2 ^ 52 ≤ m ∨ e = -1074)

lemma IsCanonical.target {m : Nat} {e : Int} (h : IsCanonical m e) :
    max ((m.log2 : Int) + 1 + e - 53) (-1074) = e := by
  obtain ⟨hlt, hlow, hhigh, hform⟩ := h
  have hlog : m.log2 ≤ 52 := log2_le_of_lt hlt
  rcases hform with hnormal | hmin
  · have hge : 52 ≤ m.log2 := (Nat.le_log2 (by omega)).mpr hnormal
    omega
  · omega

lemma canonical_of_unpack {b : BitVec 64} {sign : Sign} {m : Nat} {e : Int} {hm : 0 < m}
    (h : unpack .binary64 b = .finite sign m e hm) : IsCanonical m e := by
  simp only [UnpackedFloat.unpack] at h
  split at h
  · split at h <;> cases h
  · next hfull =>
    have hexponent : (@unpackExponent .binary64 b).toNat < 2047 := by
      have hlt : (@unpackExponent .binary64 b).toNat < 2048 := BitVec.isLt _
      have hne : (@unpackExponent .binary64 b).toNat ≠ 2047 := fun heq =>
        hfull (BitVec.eq_of_toNat_eq heq)
      omega
    have hfraction : (@unpackMantissa .binary64 b).toNat < 2 ^ 52 := BitVec.isLt _
    have hbias : Format.binary64.exponentBias = 1023 := rfl
    split at h
    · next hzero =>
      split at h
      · cases h
      · rw [hzero, hbias] at h
        cases h
        exact ⟨hfraction.trans (by decide), by decide, by decide, .inr rfl⟩
    · next hnotzero =>
      have hpos : (@unpackExponent .binary64 b).toNat ≠ 0 := fun heq =>
        hnotzero (BitVec.eq_of_toNat_eq heq)
      rw [hbias] at h
      cases h
      rw [toNat_implicit]
      refine ⟨by omega, by norm_num; omega, by norm_num; omega, .inl (Nat.le_add_right _ _)⟩

lemma unpack_pack_normal {sign : Sign} {m : Nat} {e : Int} (hm : 0 < m) (h : IsCanonical m e)
    (hnormal : 2 ^ 52 ≤ m) :
    unpack .binary64 (pack .binary64 (.finite sign m e hm)) = .finite sign m e hm := by
  obtain ⟨hlt, hlow, hhigh, -⟩ := h
  have hlog : m.log2 = 52 := (Nat.log2_eq_iff hm.ne').mpr ⟨hnormal, hlt⟩
  have hbias : e + (Format.binary64.exponentBias : Int) + ((52 : Nat) : Int) = e + 1075 := by
    change e + 1023 + 52 = _
    omega
  have hpack : pack .binary64 (.finite sign m e hm) = packComponents .binary64 sign
      (BitVec.ofNat 11 (e + 1075).toNat) (BitVec.ofNat 52 m) := by
    simp only [UnpackedFloat.pack]
    rw [hbias, if_neg (by norm_num; omega), if_pos (by rw [hlog]; rfl)]
  have hexponent : (BitVec.ofNat 11 (e + 1075).toNat).toNat = (e + 1075).toNat := by
    rw [BitVec.toNat_ofNat, Nat.mod_eq_of_lt (by omega)]
  have hmantissa : 2 ^ 52 + (BitVec.ofNat 52 m).toNat = m := by
    rw [BitVec.toNat_ofNat]
    omega
  rw [hpack, unpack_eq_finite hm hlow hhigh
      ((congrArg BitVec.toNat unpackExponent_packComponents).trans hexponent)
      ((congrArg (2 ^ 52 + BitVec.toNat ·) unpackMantissa_packComponents).trans hmantissa),
    unpackSign_packComponents, Sign.ofBitVec_toBitVec]

lemma unpack_pack_subnormal {sign : Sign} {m : Nat} (hm : 0 < m) (hlt : m < 2 ^ 52) :
    unpack .binary64 (pack .binary64 (.finite sign m (-1074) hm)) = .finite sign m (-1074) hm := by
  have hlog : m.log2 + 1 ≠ Format.binary64.mantissaBits := by
    have hsmall : m.log2 < 52 := (Nat.log2_lt hm.ne').mpr hlt
    change m.log2 + 1 ≠ 53
    omega
  have hmantissa : (BitVec.ofNat 52 m).toNat = m := by
    rw [BitVec.toNat_ofNat, Nat.mod_eq_of_lt hlt]
  have hne : BitVec.ofNat 52 m ≠ 0#52 := by
    intro heq
    rw [heq] at hmantissa
    exact hm.ne hmantissa
  simp only [UnpackedFloat.pack]
  rw [if_neg (by decide), if_neg hlog]
  simp only [UnpackedFloat.unpack, unpackMantissa_packComponents, unpackExponent_packComponents,
    unpackSign_packComponents, Sign.ofBitVec_toBitVec]
  rw [if_neg (by decide), if_pos trivial, dif_neg hne]
  simp only [hmantissa]
  rfl

lemma unpack_pack {sign : Sign} {m : Nat} {e : Int} (hm : 0 < m) (h : IsCanonical m e) :
    unpack .binary64 (pack .binary64 (.finite sign m e hm)) = .finite sign m e hm := by
  by_cases hnormal : 2 ^ 52 ≤ m
  · exact unpack_pack_normal hm h hnormal
  · obtain rfl : e = -1074 := h.2.2.2.resolve_left hnormal
    exact unpack_pack_subnormal hm (not_le.mp hnormal)

lemma roundWithAccuracy_eq {m : Nat} {e : Int} (sign : Sign) (hm : 0 < m) (h : IsCanonical m e)
    (j : Nat) : roundWithAccuracy .binary64 sign (m * 2 ^ j) (e - j) .exact =
      .finite sign m e hm := by
  have htarget := h.target
  have hshift :
      (max (((m * 2 ^ j).log2 : Int) + 1 + (e - j) - 53) (-1074) - (e - j)).toNat = j := by
    rw [log2_mul_two_pow j hm.ne']
    omega
  have hexponent : (shiftToTargetExponent .binary64 (m * 2 ^ j) (e - j) .exact).2 = e := by
    rw [snd_shift, hshift]
    omega
  have hmantissa : (shiftToTargetExponent .binary64 (m * 2 ^ j) (e - j) .exact).1.mantissa = m := by
    rw [mantissa_shift, hshift, Nat.mul_div_cancel _ (Nat.two_pow_pos j)]
  have hround :
      (shiftToTargetExponent .binary64 (m * 2 ^ j) (e - j) .exact).1.roundBit = false := by
    cases j with
    | zero =>
      rw [shift_of_le]
      rw [Nat.pow_zero, Nat.mul_one]
      omega
    | succ k =>
      have heven : m * 2 ^ (k + 1) / 2 ^ k = 2 * m := by
        rw [Nat.pow_succ', ← Nat.mul_assoc, Nat.mul_div_cancel _ (Nat.two_pow_pos k), Nat.mul_comm]
      rw [roundBit_shift hshift, heven, Nat.mul_mod_right]
      rfl
  have hrounded := (roundedMantissa_of_roundBit hround).trans hmantissa
  unfold roundWithAccuracy
  generalize shiftToTargetExponent .binary64 (m * 2 ^ j) (e - j) .exact = first at *
  obtain ⟨em, e₁⟩ := first
  dsimp only at *
  subst hexponent
  rw [hrounded]
  have hlast : (shiftToTargetExponent .binary64 m e₁ .exact).1.mantissa = m := by
    rw [shift_of_le htarget.le]
  have hsame : (shiftToTargetExponent .binary64 m e₁ .exact).2 = e₁ := by
    rw [snd_shift]
    omega
  simp only [hlast, hsame, dif_neg hm.ne']

lemma round_eq_finite {M m a b : Nat} {E e : Int} (sign : Sign) (hm : 0 < m) (h : IsCanonical m e)
    (hsame : M * 2 ^ a = m * 2 ^ b) (hexponent : E - a = e - b) :
    UnpackedFloat.round .binary64 sign M E = .finite sign m e hm := by
  have hM : M ≠ 0 := by
    rintro rfl
    rw [Nat.zero_mul] at hsame
    exact (Nat.mul_pos hm (Nat.two_pow_pos b)).ne hsame
  have htarget : Format.binary64.targetExponent (totalExponent M E) = e := by
    have hlog := congrArg Nat.log2 hsame
    rw [log2_mul_two_pow a hM, log2_mul_two_pow b hm.ne'] at hlog
    rw [← h.target]
    change max ((M.log2 : Int) + 1 + E - 53) (-1074) = max ((m.log2 : Int) + 1 + e - 53) (-1074)
    congr 1
    omega
  unfold UnpackedFloat.round decreaseExponent
  dsimp only
  rw [htarget, Nat.shiftLeft_eq]
  -- an exponent above that of the form is lowered to it, and one below it is raised by the rounding
  rcases Int.le_total e E with hdown | hup
  · have hm' : M * 2 ^ (E - e).toNat = m := by
      apply Nat.eq_of_mul_eq_mul_right (Nat.two_pow_pos b)
      rw [Nat.mul_assoc, ← Nat.pow_add, ← hsame]
      congr 2
      omega
    have he : E - ((E - e).toNat : Int) = e - (0 : Nat) := by omega
    have hround := roundWithAccuracy_eq sign hm h 0
    rw [Nat.pow_zero, Nat.mul_one] at hround
    rw [hm', he, hround]
  · have hM' : M = m * 2 ^ (e - E).toNat := by
      apply Nat.eq_of_mul_eq_mul_right (Nat.two_pow_pos a)
      rw [Nat.mul_assoc, ← Nat.pow_add, hsame]
      congr 2
      omega
    have hzero : (E - e).toNat = 0 := by omega
    have he : E - ((0 : Nat) : Int) = e - ((e - E).toNat : Int) := by omega
    rw [hzero, Nat.pow_zero, Nat.mul_one, he, hM']
    exact roundWithAccuracy_eq sign hm h _

lemma isSigned_iff (x : Float) :
    isSigned x = true ↔ @unpackSign .binary64 x.toModel.toBits.toBitVec = 1#1 := by
  have hsign : (@unpackSign .binary64 x.toModel.toBits.toBitVec).toNat =
      x.toBits.toNat / 2 ^ 63 % 2 := by
    simp only [unpackSign, BitVec.toNat_cast, BitVec.extractLsb_toNat]
    rw [Nat.shiftRight_eq_div_pow]
    rfl
  have hlt : x.toBits.toNat / 2 ^ 63 < 2 := by
    have hbits : x.toBits.toNat < 2 ^ 64 := x.toBits.toNat_lt
    omega
  rw [isSigned, beq_iff_eq, ← BitVec.toNat_inj, hsign, Nat.mod_eq_of_lt hlt]
  rfl

lemma sign_of_unpack {b : BitVec 64} {sign : Sign} {m : Nat} {e : Int} {hm : 0 < m}
    (h : unpack .binary64 b = .finite sign m e hm) :
    sign = Sign.ofBitVec (@unpackSign .binary64 b) := by
  simp only [UnpackedFloat.unpack] at h
  split at h
  · split at h <;> cases h
  · split at h
    · split at h
      · cases h
      · cases h
        rfl
    · cases h
      rfl

lemma isSigned_iff_of_unpack {x : Float} {sign : Sign} {m : Nat} {e : Int} {hm : 0 < m}
    (h : x.toModel.unpack = .finite sign m e hm) : isSigned x = true ↔ sign = .negative := by
  have hbit := BitVec.eq_zero_or_eq_one (@unpackSign .binary64 x.toModel.toBits.toBitVec)
  rw [isSigned_iff, sign_of_unpack h]
  rcases hbit with hbit | hbit <;> simp [hbit, Sign.ofBitVec]

lemma lt_iff_compare (x y : Float) :
    x < y ↔ x.toModel.unpack.compare y.toModel.unpack = some .lt := by
  have hmodel : x < y ↔ decide (x.toModel < y.toModel) = true := Iff.rfl
  rw [hmodel, decide_eq_true_iff]
  exact beq_iff_eq

lemma unpack_zero : (0.0 : Float).toModel.unpack = .zero .positive := rfl

lemma exists_unpack_of_ne_zero {x : Float} (hx : x.isFinite = true) (h : x < 0.0 ∨ 0.0 < x) :
    ∃ sign m e hm, x.toModel.unpack = .finite sign m e hm := by
  rw [lt_iff_compare, lt_iff_compare, unpack_zero] at h
  change x.toModel.unpack.isFinite = true at hx
  cases hunpack : x.toModel.unpack with
  | notANumber => rw [hunpack] at hx; cases hx
  | infinity sign => rw [hunpack] at hx; cases hx
  | zero sign =>
    rw [hunpack] at h
    rcases h with h | h <;> cases h
  | finite sign m e hm => exact ⟨sign, m, e, hm, rfl⟩

lemma isSigned_of_lt_zero {x : Float} (hx : x.isFinite = true) (h : x < 0.0) :
    isSigned x = true := by
  obtain ⟨sign, m, e, hm, hunpack⟩ := exists_unpack_of_ne_zero hx (.inl h)
  rw [isSigned_iff_of_unpack hunpack]
  rw [lt_iff_compare, unpack_zero, hunpack] at h
  cases sign with
  | positive => cases h
  | negative => rfl

lemma isSigned_of_zero_lt {x : Float} (hx : x.isFinite = true) (h : 0.0 < x) :
    isSigned x = false := by
  obtain ⟨sign, m, e, hm, hunpack⟩ := exists_unpack_of_ne_zero hx (.inr h)
  rw [Bool.eq_false_iff, Ne, isSigned_iff_of_unpack hunpack]
  rw [lt_iff_compare, unpack_zero, hunpack] at h
  cases sign with
  | positive => exact Sign.noConfusion
  | negative => cases h

end MarketFormula.Decimal
