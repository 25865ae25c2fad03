import Mathlib
import MarketFormula.Datum

/-!
# The range of doubles

Every integer that a double stands for, and the next one after it, rounds to a finite double again.
-/
namespace MarketFormula.Decimal

open Float.Model Float.Model.UnpackedFloat

lemma log2_le_of_le {n k : Nat} (h : n ≤ 2 ^ k) : n.log2 ≤ k := by
  rcases Nat.eq_zero_or_pos n with rfl | hn
  · simp
  · exact (Nat.pow_le_pow_iff_right (by decide)).mp ((Nat.log2_self_le hn.ne').trans h)

lemma log2_le_of_lt {n k : Nat} (h : n < 2 ^ (k + 1)) : n.log2 ≤ k := by
  rcases Nat.eq_zero_or_pos n with rfl | hn
  · simp
  · exact Nat.le_of_lt_succ ((Nat.log2_lt hn.ne').mpr h)

lemma log2_mul_two_pow {n : Nat} (k : Nat) (hn : n ≠ 0) : (n * 2 ^ k).log2 = n.log2 + k := by
  have hpos : 0 < 2 ^ k := Nat.two_pow_pos k
  rw [Nat.log2_eq_iff (Nat.mul_ne_zero hn hpos.ne')]
  constructor
  · rw [Nat.pow_add]
    exact Nat.mul_le_mul_right _ (Nat.log2_self_le hn)
  · rw [Nat.add_right_comm, Nat.pow_add]
    exact Nat.mul_lt_mul_of_pos_right Nat.lt_log2_self hpos

lemma mantissa_shiftRight (em : ExtendedMantissa) (k : Nat) :
    (em >>> k).mantissa = em.mantissa / 2 ^ k := by
  change (Nat.repeat ExtendedMantissa.shiftRightOne k em).mantissa = _
  induction k with
  | zero => simp [Nat.repeat]
  | succ k ih =>
    simp only [Nat.repeat, ExtendedMantissa.shiftRightOne]
    rw [ih, Nat.div_div_eq_div_mul, Nat.pow_succ]

lemma roundBit_shiftRight_succ (em : ExtendedMantissa) (k : Nat) :
    (em >>> (k + 1)).roundBit = (em.mantissa / 2 ^ k % 2 != 0) := by
  have h := mantissa_shiftRight em k
  change (Nat.repeat ExtendedMantissa.shiftRightOne k em).mantissa = _ at h
  change (Nat.repeat ExtendedMantissa.shiftRightOne (k + 1) em).roundBit = _
  simp only [Nat.repeat, ExtendedMantissa.shiftRightOne]
  rw [h]

lemma roundedMantissa_le (em : ExtendedMantissa) : em.roundedMantissa ≤ em.mantissa + 1 := by
  rcases em with ⟨m, round, sticky⟩
  cases round <;> cases sticky <;>
    simp [ExtendedMantissa.roundedMantissa, ExtendedMantissa.accuracy,
      Accuracy.roundToNearestEven]
  omega

lemma roundedMantissa_of_roundBit {em : ExtendedMantissa} (h : em.roundBit = false) :
    em.roundedMantissa = em.mantissa := by
  rcases em with ⟨m, round, sticky⟩
  subst h
  cases sticky <;> rfl

/-- The exponent of a number, if it has one, is at most `limit`, and the number is finite. -/
def ExponentAtMost (limit : Int) : UnpackedFloat → Prop
  | .finite _ _ e _ => e ≤ limit
  | .zero _ => True
  | _ => False

section Shifting

section Accuracy

variable (m : Nat) (e : Int) {accuracy : Accuracy}

lemma snd_shift :
    (shiftToTargetExponent .binary64 m e accuracy).2 =
      e + (max ((m.log2 : Int) + 1 + e - 53) (-1074) - e).toNat := rfl

lemma mantissa_shift :
    (shiftToTargetExponent .binary64 m e accuracy).1.mantissa =
      m / 2 ^ (max ((m.log2 : Int) + 1 + e - 53) (-1074) - e).toNat := by
  have hmantissa : (ExtendedMantissa.ofMantissaAndAccuracy m accuracy).mantissa = m := by
    cases accuracy with
    | exact => rfl
    | inexact side => cases side <;> rfl
  exact (mantissa_shiftRight _ _).trans (congrArg (· / _) hmantissa)

lemma mantissa_shift_lt :
    (shiftToTargetExponent .binary64 m e accuracy).1.mantissa < 2 ^ 53 := by
  rw [mantissa_shift, Nat.div_lt_iff_lt_mul (Nat.two_pow_pos _), ← Nat.pow_add]
  exact Nat.lt_log2_self.trans_le (Nat.pow_le_pow_right (by decide) (by omega))

end Accuracy

variable {m : Nat} {e : Int}

lemma roundBit_shift {k : Nat}
    (h : (max ((m.log2 : Int) + 1 + e - 53) (-1074) - e).toNat = k + 1) :
    (shiftToTargetExponent .binary64 m e .exact).1.roundBit = (m / 2 ^ k % 2 != 0) := by
  change ((⟨m, false, false⟩ : ExtendedMantissa) >>>
    (max ((m.log2 : Int) + 1 + e - 53) (-1074) - e).toNat).roundBit = _
  rw [h, roundBit_shiftRight_succ]

lemma mantissa_shift_succ {k : Nat}
    (h : (max ((m.log2 : Int) + 1 + e - 53) (-1074) - e).toNat = k + 1) :
    (shiftToTargetExponent .binary64 m e .exact).1.mantissa = m / 2 ^ k / 2 := by
  rw [mantissa_shift, h, Nat.pow_succ, Nat.div_div_eq_div_mul]

lemma shift_of_le (h : max ((m.log2 : Int) + 1 + e - 53) (-1074) ≤ e) :
    (shiftToTargetExponent .binary64 m e .exact).1 = ⟨m, false, false⟩ := by
  have hk : (max ((m.log2 : Int) + 1 + e - 53) (-1074) - e).toNat = 0 := by omega
  change (⟨m, false, false⟩ : ExtendedMantissa) >>>
    (max ((m.log2 : Int) + 1 + e - 53) (-1074) - e).toNat = _
  rw [hk]
  rfl

end Shifting

lemma exponentAtMost_roundWithAccuracy {limit : Int} {sign : Sign} {m : Nat} {e : Int}
    (hlimit : -1074 ≤ limit)
    (hfirst : (shiftToTargetExponent .binary64 m e .exact).2 ≤ limit)
    (hrounded : ((shiftToTargetExponent .binary64 m e .exact).1.roundedMantissa.log2 : Int) +
      (shiftToTargetExponent .binary64 m e .exact).2 ≤ limit + 52) :
    ExponentAtMost limit (roundWithAccuracy .binary64 sign m e .exact) := by
  unfold roundWithAccuracy
  generalize shiftToTargetExponent .binary64 m e .exact = first at *
  obtain ⟨em, e₁⟩ := first
  dsimp only at *
  split
  · trivial
  · simp only [ExponentAtMost, snd_shift]
    omega

lemma exponentAtMost_of_totalExponent {limit : Int} {sign : Sign} {m : Nat} {e : Int}
    (hlimit : -1073 ≤ limit) (he : e ≤ limit) (htotal : totalExponent m e ≤ limit + 52) :
    ExponentAtMost limit (roundWithAccuracy .binary64 sign m e .exact) := by
  unfold totalExponent at htotal
  apply exponentAtMost_roundWithAccuracy (by omega)
  · rw [snd_shift]; omega
  · have hle := roundedMantissa_le (shiftToTargetExponent .binary64 m e .exact).1
    have hlt : (shiftToTargetExponent .binary64 m e .exact).1.mantissa < 2 ^ 53 :=
      mantissa_shift_lt m e
    have hlog := log2_le_of_le (show _ ≤ 2 ^ 53 from hle.trans hlt)
    rw [snd_shift]
    by_cases hs : max ((m.log2 : Int) + 1 + e - 53) (-1074) ≤ e
    · rw [shift_of_le hs, roundedMantissa_of_roundBit rfl]
      dsimp only
      omega
    · omega

lemma roundedMantissa_lt_of_half {q k : Nat} {e : Int}
    (hshift : (max ((q.log2 : Int) + 1 + e - 53) (-1074) - e).toNat = k + 1)
    (hhalf : q / 2 ^ k < 2 ^ 54 - 1) :
    (shiftToTargetExponent .binary64 q e .exact).1.roundedMantissa < 2 ^ 53 := by
  -- A mantissa is carried over only if its first 54 bits are all set.
  have hmantissa := mantissa_shift_succ hshift
  cases hbit : (shiftToTargetExponent .binary64 q e .exact).1.roundBit with
  | false =>
    rw [roundedMantissa_of_roundBit hbit, hmantissa]
    omega
  | true =>
    have hle := roundedMantissa_le (shiftToTargetExponent .binary64 q e .exact).1
    have hodd : q / 2 ^ k % 2 ≠ 0 := bne_iff_ne.mp ((roundBit_shift hshift).symm.trans hbit)
    rw [hmantissa] at hle
    omega

lemma exponentAtMost_of_half (sign : Sign) {q : Nat} {e : Int} (he : e ≤ 970)
    (hhalf : q / 2 ^ (970 - e).toNat < 2 ^ 54 - 1) :
    ExponentAtMost 971 (roundWithAccuracy .binary64 sign q e .exact) := by
  by_cases hlog : (q.log2 : Int) + e ≤ 1022
  · apply exponentAtMost_of_totalExponent (by decide) (by omega)
    rw [totalExponent]
    omega
  · obtain ⟨k, hk⟩ : ∃ k : Nat, (970 - e).toNat = k := ⟨_, rfl⟩
    rw [hk] at hhalf
    -- the number lies in the last binade, so that 53 bits of it are kept
    have hbits : q.log2 ≤ 53 + k := by
      apply log2_le_of_lt
      calc q < 2 ^ 54 * 2 ^ k := (Nat.div_lt_iff_lt_mul (Nat.two_pow_pos k)).mp (by omega)
        _ = 2 ^ (53 + k + 1) := by rw [← Nat.pow_add]; congr 1; omega
    have hrounded := log2_le_of_lt (roundedMantissa_lt_of_half (e := e) (by omega) hhalf)
    apply exponentAtMost_roundWithAccuracy (by decide)
    · rw [snd_shift]; omega
    · rw [snd_shift]; omega

def maxInteger : Nat := (2 ^ 53 - 1) * 2 ^ 971

lemma half_integer (n : Nat) : n * 2 ^ 53 / 2 ^ 1023 = n / 2 ^ 970 := by
  rw [show (2 : Nat) ^ 1023 = 2 ^ 970 * 2 ^ 53 by decide +kernel]
  exact Nat.mul_div_mul_right _ _ (by decide)

lemma exponentAtMost_integer (sign : Sign) {n : Nat} (hn : n ≤ maxInteger + 1) :
    ExponentAtMost 971 (roundWithAccuracy .binary64 sign (n * 2 ^ 53) (-53) .exact) := by
  have hexponent : (970 - (-53 : Int)).toNat = 1023 := rfl
  apply exponentAtMost_of_half sign (by decide)
  rw [hexponent, half_integer, Nat.div_lt_iff_lt_mul (Nat.two_pow_pos _)]
  exact hn.trans_lt (by decide +kernel)

lemma toNat_implicit (fraction : BitVec 52) :
    (1#1 ++ fraction).toNat = 2 ^ 52 + fraction.toNat := by
  rw [BitVec.toNat_append, ← Nat.shiftLeft_add_eq_or_of_lt fraction.isLt, Nat.shiftLeft_eq]
  rfl

lemma unpack_eq_finite {b : BitVec 64} {m : Nat} {e : Int} (hm : 0 < m) (hlow : -1074 ≤ e)
    (hhigh : e ≤ 971) (hexponent : (@unpackExponent .binary64 b).toNat = (e + 1075).toNat)
    (hmantissa : 2 ^ 52 + (@unpackMantissa .binary64 b).toNat = m) :
    unpack .binary64 b = .finite (.ofBitVec (@unpackSign .binary64 b)) m e hm := by
  have hnotfull : @unpackExponent .binary64 b ≠ -1#11 := by
    intro heq
    rw [heq] at hexponent
    change 2047 = _ at hexponent
    omega
  have hnotzero : @unpackExponent .binary64 b ≠ 0#11 := by
    intro heq
    rw [heq] at hexponent
    change 0 = _ at hexponent
    omega
  have hunbiased : ((e + 1075).toNat : Int) - (1023 + 52) = e := by omega
  simp only [UnpackedFloat.unpack]
  rw [if_neg hnotfull, if_neg hnotzero]
  simp only [toNat_implicit, hmantissa, hexponent]
  exact congrArg (fun exponent => UnpackedFloat.finite _ m exponent hm) hunbiased

lemma exponentAtMost_packComponents {limit : Int} {sign : Sign} {exponent : BitVec 11}
    {mantissa : BitVec 52} (hlow : -1074 ≤ limit) (hne : exponent ≠ -1#11)
    (hexponent : (exponent.toNat : Int) - 1075 ≤ limit) :
    ExponentAtMost limit (unpack .binary64 (packComponents .binary64 sign exponent mantissa)) := by
  simp only [UnpackedFloat.unpack, unpackMantissa_packComponents, unpackExponent_packComponents]
  rw [if_neg hne]
  split
  · next hzero =>
    split
    · trivial
    · simp only [ExponentAtMost, hzero]
      simpa [Format.exponentBias] using hlow
  · simp only [ExponentAtMost, Format.exponentBias]
    norm_num
    omega

lemma exponentAtMost_unpack_pack {limit : Int} {u : UnpackedFloat} (hlow : -1074 ≤ limit)
    (hhigh : limit ≤ 971) (h : ExponentAtMost limit u) :
    ExponentAtMost limit (unpack .binary64 (pack .binary64 u)) := by
  cases u with
  | notANumber => exact h.elim
  | infinity sign => exact h.elim
  | zero sign => exact exponentAtMost_packComponents hlow (by decide) (by simp; omega)
  | finite sign m e hm =>
    have hbias : (e + (Format.binary64.exponentBias : Int) + ((52 : Nat) : Int)).toNat =
        (e + 1075).toNat := by
      simp only [Format.exponentBias]
      norm_num
      omega
    have he : e ≤ limit := h
    simp only [UnpackedFloat.pack]
    rw [hbias]
    rw [if_neg (by norm_num; omega)]
    split
    · have hlt : (e + 1075).toNat < 2 ^ 11 := by norm_num; omega
      have hnat : (BitVec.ofNat 11 (e + 1075).toNat).toNat = (e + 1075).toNat := by
        rw [BitVec.toNat_ofNat, Nat.mod_eq_of_lt hlt]
      refine exponentAtMost_packComponents hlow ?_ ?_
      · intro heq
        have := congrArg BitVec.toNat heq
        rw [hnat] at this
        simp at this
        omega
      · rw [hnat]; omega
    · exact exponentAtMost_packComponents hlow (by decide) (by simp; omega)

lemma mantissa_lt_of_unpack {b : BitVec 64} {sign : Sign} {m : Nat} {e : Int} {hm : 0 < m}
    (h : unpack .binary64 b = .finite sign m e hm) : m < 2 ^ 53 := by
  simp only [UnpackedFloat.unpack] at h
  split at h
  · split at h <;> cases h
  · split at h
    · split at h
      · cases h
      · cases h
        exact (BitVec.isLt _).trans (by decide)
    · cases h
      exact BitVec.isLt _

lemma isInf_of_exponentAtMost {limit : Int} {u : UnpackedFloat} (h : ExponentAtMost limit u) :
    u.isInf = false := by
  cases u with
  | infinity sign => exact h.elim
  | _ => rfl

lemma exponentAtMost_ofNat {n : Nat} (hn : n < 2 ^ 53) :
    ExponentAtMost 1 (UnpackedFloat.ofNat .binary64 n) := by
  unfold UnpackedFloat.ofNat UnpackedFloat.ofInt UnpackedFloat.normalize
  split
  · next h =>
    have hneg : (n : Int) < 0 := compare_lt_iff_lt.mp h
    omega
  · trivial
  · next h =>
    have hne : n ≠ 0 := by
      rintro rfl
      simp at h
    have hlog : n.log2 ≤ 52 := log2_le_of_lt hn
    unfold UnpackedFloat.round decreaseExponent
    rw [Int.toNat_natCast]
    dsimp only
    generalize (0 - Format.binary64.targetExponent (totalExponent n 0)).toNat = k
    apply exponentAtMost_of_totalExponent (by decide) (by omega)
    rw [totalExponent, Nat.shiftLeft_eq, log2_mul_two_pow k hne]
    omega

lemma exponentAtMost_mul_one {u : UnpackedFloat} (h : ExponentAtMost 1 u)
    (hm : ∀ sign m e hm, u = .finite sign m e hm → m < 2 ^ 53) :
    ExponentAtMost 971 (UnpackedFloat.mul .binary64 u
      (.finite .positive (2 ^ 52) (-52) (by decide))) := by
  cases u with
  | notANumber => exact h.elim
  | infinity sign => exact h.elim
  | zero sign => trivial
  | finite sign m e hpos =>
    have he : e ≤ 1 := h
    have hlog : m.log2 ≤ 52 := log2_le_of_lt (hm sign m e hpos rfl)
    apply exponentAtMost_of_totalExponent (by decide) (by omega)
    rw [totalExponent, log2_mul_two_pow 52 hpos.ne']
    omega

lemma unpack_one : UnpackedFloat.unpack .binary64 (1.0 : Float).toModel.toBits.toBitVec =
    .finite .positive (2 ^ 52) (-52) (by decide) := rfl

lemma isInf_mul_one {n : Nat} (hn : n < 2 ^ 53) :
    (n.toUInt64.toFloat * 1.0).isInf = false := by
  have hnat : n.toUInt64.toNat = n := by
    simp
    omega
  have hfactor : ExponentAtMost 1 (UnpackedFloat.unpack .binary64
      n.toUInt64.toFloat.toModel.toBits.toBitVec) := by
    apply exponentAtMost_unpack_pack (by decide) (by decide)
    change ExponentAtMost 1 (UnpackedFloat.ofNat .binary64 n.toUInt64.toNat)
    rw [hnat]
    exact exponentAtMost_ofNat hn
  have hproduct := exponentAtMost_mul_one hfactor fun _ _ _ _ => mantissa_lt_of_unpack
  rw [← unpack_one] at hproduct
  exact isInf_of_exponentAtMost (exponentAtMost_unpack_pack (by decide) (by decide) hproduct)

lemma exponentAtMost_ofScientific {n : Nat} (hne : n ≠ 0) (hn : n ≤ maxInteger + 1) :
    ExponentAtMost 971 (UnpackedFloat.ofScientific .binary64 n 0) := by
  unfold UnpackedFloat.ofScientific
  have hpow : (0 : Int) ≤ 2 ^ Format.binary64.exponentBits := by decide
  rw [dif_neg hne, if_neg (by decide), if_neg (by omega), if_pos (by decide)]
  have hinteger := exponentAtMost_integer (.positive * .positive) hn
  simpa [UnpackedFloat.mul, Nat.shiftLeft_eq, Format.mantissaBits] using hinteger

theorem isInf_ofNat {n : Nat} (hn : n ≤ maxInteger + 1) : (Float.ofNat n).isInf = false := by
  change (Float.ofScientific n false 0).isInf = false
  unfold Float.ofScientific
  split
  · next h => exact isInf_mul_one h.1
  · next h =>
    have hne : n ≠ 0 := by
      rintro rfl
      exact h (by decide)
    have hrounded := exponentAtMost_ofScientific hne hn
    exact isInf_of_exponentAtMost (exponentAtMost_unpack_pack (by decide) le_rfl hrounded)

lemma power_ne_of_isFinite {x : Float} (h : x.isFinite = true) :
    x.toBits.toNat / 0x10000000000000 % 0x800 ≠ 0x7ff := by
  intro hpower
  have hfield : @unpackExponent .binary64 x.toModel.toBits.toBitVec = -1#11 := by
    apply BitVec.eq_of_toNat_eq
    simp only [unpackExponent, BitVec.toNat_cast, BitVec.extractLsb_toNat]
    rw [Nat.shiftRight_eq_div_pow]
    exact hpower
  have hunpacked : (UnpackedFloat.unpack .binary64 x.toModel.toBits.toBitVec).isFinite = false := by
    simp only [UnpackedFloat.unpack]
    rw [if_pos hfield]
    split <;> rfl
  exact absurd (h.symm.trans hunpacked) (by decide)

lemma ofFloat_le {x : Float} (h : x.isFinite = true) :
    (Dyadic.ofFloat x).mantissa ≤ 2 ^ 53 - 1 ∧ (Dyadic.ofFloat x).exponent ≤ 971 := by
  have hpower := power_ne_of_isFinite h
  simp only [Dyadic.ofFloat]
  split <;> dsimp only <;> omega

lemma twoPow_le {e : Int} {k : Nat} (h : e ≤ k) : twoPow e ≤ 2 ^ k := by
  have hnat : e.toNat ≤ k := by omega
  exact Nat.pow_le_pow_right (by decide) hnat

theorem natural?_le {x : Float} {n : Nat} (h : natural? x = some n) : n ≤ maxInteger := by
  unfold natural? at h
  split at h
  · next hfinite =>
    obtain ⟨hmantissa, hexponent⟩ := ofFloat_le (Bool.and_eq_true_iff.mp hfinite).1
    have hpower : twoPow (Dyadic.ofFloat x).exponent ≤ 2 ^ 971 := twoPow_le (by omega)
    calc n ≤ n * twoPow (-(Dyadic.ofFloat x).exponent) :=
          Nat.le_mul_of_pos_right n (twoPow_pos _)
      _ = (Dyadic.ofFloat x).mantissa * twoPow (Dyadic.ofFloat x).exponent :=
          (Dyadic.toNat?_eq_some_iff _ n).mp h
      _ ≤ maxInteger := by
          rw [maxInteger]
          exact Nat.mul_le_mul hmantissa hpower
  · cases h

end MarketFormula.Decimal

namespace MarketFormula.Datum

theorem floatOfInt_natCast {n : Nat} (hn : n ≤ Decimal.maxInteger + 1) :
    floatOfInt n = .ok (Float.ofNat n) := by
  simp [floatOfInt, Decimal.isInf_ofNat hn]

end MarketFormula.Datum
