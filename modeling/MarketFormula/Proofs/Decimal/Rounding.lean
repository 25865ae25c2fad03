import MarketFormula.Decimal.Reading
import MarketFormula.Proofs.Decimal.Range

/-!
# The double nearest to an integer

An integer below `2 ^ 53` is a double. A larger one is rounded to an integer of at least that size,
unless it overflows.
-/
namespace MarketFormula.Decimal

open Float.Model Float.Model.UnpackedFloat

/-- A positive number with a mantissa of 53 bits. -/
def IsNormal (m : Nat) (e : Int) (u : UnpackedFloat) : Prop :=
  m.log2 = 52 ∧ ∃ hm, u = .finite .positive m e hm

lemma isNormal_finite {m m' : Nat} {e e' : Int} {hm : 0 < m'} (hlow : 2 ^ 52 ≤ m)
    (hhigh : m < 2 ^ 53) (hmantissa : m' = m) (hexponent : e' = e) :
    IsNormal m e (.finite .positive m' e' hm) := by
  subst hmantissa hexponent
  exact ⟨(Nat.log2_eq_iff hm.ne').mpr ⟨hlow, hhigh⟩, hm, rfl⟩

lemma ne_zero_of_log2 {m : Nat} (h : 0 < m.log2) : m ≠ 0 := by
  rintro rfl
  simp at h

lemma bounds_of_log2 {m : Nat} (h : m.log2 = 52) : 2 ^ 52 ≤ m ∧ m < 2 ^ 53 :=
  (Nat.log2_eq_iff (ne_zero_of_log2 (by omega))).mp h

section Round

lemma le_roundedMantissa (em : ExtendedMantissa) : em.mantissa ≤ em.roundedMantissa := by
  rcases em with ⟨m, round, sticky⟩
  cases round <;> cases sticky <;>
    simp [ExtendedMantissa.roundedMantissa, ExtendedMantissa.accuracy,
      Accuracy.roundToNearestEven]

lemma roundedMantissa_of_odd {em : ExtendedMantissa} (hround : em.roundBit = true)
    (hodd : em.mantissa % 2 = 1) : em.roundedMantissa = em.mantissa + 1 := by
  rcases em with ⟨m, round, sticky⟩
  subst hround
  cases sticky
  · change m + m % 2 = m + 1
    rw [hodd]
  · rfl

lemma isNormal_roundWithAccuracy {m r : Nat} {e e₁ : Int}
    (hexponent : (shiftToTargetExponent .binary64 m e .exact).2 = e₁)
    (hrounded : (shiftToTargetExponent .binary64 m e .exact).1.roundedMantissa = r)
    (hmin : -1074 ≤ e₁) (hlow : 2 ^ 52 ≤ r) (hhigh : r ≤ 2 ^ 53) :
    (r < 2 ^ 53 ∧ IsNormal r e₁ (roundWithAccuracy .binary64 .positive m e .exact)) ∨
      (r = 2 ^ 53 ∧
        IsNormal (2 ^ 52) (e₁ + 1) (roundWithAccuracy .binary64 .positive m e .exact)) := by
  -- the second shift of rounding has an effect only after a carry
  unfold roundWithAccuracy
  generalize shiftToTargetExponent .binary64 m e .exact = first at *
  obtain ⟨em, e₂⟩ := first
  dsimp only at *
  subst hexponent
  rw [hrounded]
  have hsnd : (shiftToTargetExponent .binary64 r e₂ .exact).2 = _ := snd_shift r e₂
  rcases Nat.lt_or_eq_of_le hhigh with hlt | rfl
  · have hlog : r.log2 = 52 := (Nat.log2_eq_iff (by omega)).mpr ⟨hlow, hlt⟩
    have hmantissa : (shiftToTargetExponent .binary64 r e₂ .exact).1.mantissa = r := by
      rw [shift_of_le (by omega)]
    rw [dif_neg (by omega)]
    exact .inl ⟨hlt, isNormal_finite hlow hlt hmantissa (by omega)⟩
  · have hlog : (2 ^ 53).log2 = 53 := Nat.log2_two_pow
    have hmantissa : (shiftToTargetExponent .binary64 (2 ^ 53) e₂ .exact).1.mantissa = 2 ^ 52 := by
      have hshift : (max (((2 ^ 53).log2 : Int) + 1 + e₂ - 53) (-1074) - e₂).toNat = 1 := by omega
      rw [mantissa_shift, hshift]
      decide
    rw [dif_neg (by omega)]
    exact .inr ⟨rfl, isNormal_finite le_rfl (by decide) hmantissa (by omega)⟩

variable {n j : Nat}

lemma shift_integer (hne : n ≠ 0) (hj : 52 ≤ n.log2 + j) :
    (max (((n * 2 ^ j).log2 : Int) + 1 + -j - 53) (-1074) - -j).toNat = n.log2 + j - 52 := by
  rw [log2_mul_two_pow j hne]
  omega

lemma exponent_integer (hne : n ≠ 0) (hj : 52 ≤ n.log2 + j) :
    (shiftToTargetExponent .binary64 (n * 2 ^ j) (-j) .exact).2 = n.log2 - 52 := by
  rw [snd_shift, shift_integer hne hj]
  omega

lemma mantissa_integer (hne : n ≠ 0) (hj : 52 ≤ n.log2 + j) :
    (shiftToTargetExponent .binary64 (n * 2 ^ j) (-j) .exact).1.mantissa =
      n * 2 ^ j / 2 ^ (n.log2 + j - 52) := by
  rw [mantissa_shift, shift_integer hne hj]

lemma isNormal_small (hne : n ≠ 0) (hlog : n.log2 ≤ 52) (hj : 52 ≤ n.log2 + j) :
    IsNormal (n * 2 ^ (52 - n.log2)) (n.log2 - 52)
      (roundWithAccuracy .binary64 .positive (n * 2 ^ j) (-j) .exact) := by
  have hsplit : n * 2 ^ j = n * 2 ^ (52 - n.log2) * 2 ^ (n.log2 + j - 52) := by
    rw [Nat.mul_assoc, ← Nat.pow_add]
    congr 2
    omega
  have hmantissa : (shiftToTargetExponent .binary64 (n * 2 ^ j) (-j) .exact).1.mantissa =
      n * 2 ^ (52 - n.log2) := by
    rw [mantissa_integer hne hj, hsplit, Nat.mul_div_cancel _ (Nat.two_pow_pos _)]
  have hround : (shiftToTargetExponent .binary64 (n * 2 ^ j) (-j) .exact).1.roundBit = false := by
    cases hk : n.log2 + j - 52 with
    | zero =>
      rw [shift_of_le]
      rw [log2_mul_two_pow j hne]
      omega
    | succ k =>
      have heven : n * 2 ^ j / 2 ^ k = 2 * (n * 2 ^ (52 - n.log2)) := by
        rw [hsplit, hk, Nat.pow_succ, Nat.mul_comm (2 ^ k), ← Nat.mul_assoc,
          Nat.mul_div_cancel _ (Nat.two_pow_pos _), Nat.mul_comm]
      rw [roundBit_shift ((shift_integer hne hj).trans hk), heven, Nat.mul_mod_right]
      rfl
  have hbits := log2_mul_two_pow (52 - n.log2) hne
  rw [Nat.add_sub_cancel' hlog] at hbits
  obtain ⟨hlow, hhigh⟩ := bounds_of_log2 hbits
  obtain ⟨-, hnormal⟩ | ⟨heq, -⟩ := isNormal_roundWithAccuracy (exponent_integer hne hj)
    ((roundedMantissa_of_roundBit hround).trans hmantissa) (by omega) hlow hhigh.le
  · exact hnormal
  · omega

/-- From here on an integer is nearer to `2 ^ 1024` than to the largest double, or as near. -/
def overflow : Nat :=
  (2 ^ 54 - 1) * 2 ^ 970

lemma div_lt_iff_lt_overflow : n / 2 ^ 970 < 2 ^ 54 - 1 ↔ n < overflow :=
  Nat.div_lt_iff_lt_mul (pow_pos two_pos _)

lemma overflow_bounds : 2 ^ 1023 ≤ overflow ∧ overflow < 2 ^ 1024 ∧ overflow < 10 ^ 400 := by
  decide +kernel

lemma div_lt_of_log2 {k l : Nat} (h : n.log2 < k + l) : n / 2 ^ k < 2 ^ l := by
  rw [Nat.div_lt_iff_lt_mul (Nat.two_pow_pos k), ← Nat.pow_add]
  exact Nat.lt_log2_self.trans_le (pow_le_pow_right₀ one_le_two (by omega))

lemma two_pow_le_overflow {k : Nat} (h : k ≤ 1023) : 2 ^ k ≤ overflow :=
  (pow_le_pow_right₀ one_le_two h).trans overflow_bounds.1

lemma overflow_le_two_pow {k : Nat} (h : 1024 ≤ k) : overflow ≤ 2 ^ k :=
  overflow_bounds.2.1.le.trans (pow_le_pow_right₀ one_le_two h)

lemma div_bounds (hlog : 52 ≤ n.log2) :
    2 ^ 52 ≤ n / 2 ^ (n.log2 - 52) ∧ n / 2 ^ (n.log2 - 52) < 2 ^ 53 := by
  have hlow : 2 ^ n.log2 ≤ n := Nat.log2_self_le (ne_zero_of_log2 (by omega))
  have hhigh : n < 2 ^ (n.log2 + 1) := Nat.lt_log2_self
  rw [Nat.le_div_iff_mul_le (Nat.two_pow_pos _), Nat.div_lt_iff_lt_mul (Nat.two_pow_pos _),
    ← Nat.pow_add, ← Nat.pow_add, Nat.add_sub_cancel' hlog]
  exact ⟨hlow, hhigh.trans_le (Nat.pow_le_pow_right (by decide) (by omega))⟩

lemma mantissa_large (hlog : 53 ≤ n.log2) :
    (shiftToTargetExponent .binary64 (n * 2 ^ 53) (-53) .exact).1.mantissa =
      n / 2 ^ (n.log2 - 52) := by
  have hne : n ≠ 0 := ne_zero_of_log2 (by omega)
  have hmantissa : (shiftToTargetExponent .binary64 (n * 2 ^ 53) (-53) .exact).1.mantissa =
      n * 2 ^ 53 / 2 ^ (n.log2 + 53 - 52) := mantissa_integer hne (by omega)
  rw [hmantissa, show n.log2 + 53 - 52 = n.log2 - 52 + 53 by omega, Nat.pow_add,
    Nat.mul_div_mul_right _ _ (Nat.two_pow_pos _)]

lemma shift_last_binade (hlast : n.log2 = 1023) :
    (max (((n * 2 ^ 53).log2 : Int) + 1 + -53 - 53) (-1074) - -53).toNat = 1023 + 1 := by
  rw [log2_mul_two_pow 53 (ne_zero_of_log2 (by omega)), hlast]
  decide

lemma roundedMantissa_lt_iff_lt_overflow (hlast : n.log2 = 1023) :
    (shiftToTargetExponent .binary64 (n * 2 ^ 53) (-53) .exact).1.roundedMantissa < 2 ^ 53 ↔
      n < overflow := by
  have hshift := shift_last_binade hlast
  rw [← div_lt_iff_lt_overflow, ← half_integer]
  constructor
  · intro hrounded
    by_contra hfull
    have hall : n * 2 ^ 53 / 2 ^ 1023 < 2 ^ 54 := by
      rw [half_integer]
      exact div_lt_of_log2 (by omega)
    have hrest := mantissa_shift_succ hshift
    have hcarry := roundedMantissa_of_odd ((roundBit_shift hshift).trans (bne_iff_ne.mpr (by omega)))
      (by rw [hrest]; omega)
    rw [hrest] at hcarry
    omega
  · exact roundedMantissa_lt_of_half hshift

lemma isNormal_large (hlog : 53 ≤ n.log2) : ∃ m e, IsNormal m e
    (roundWithAccuracy .binary64 .positive (n * 2 ^ 53) (-53) .exact) ∧ 1 ≤ e ∧
      (e ≤ 971 ↔ n < overflow) := by
  have hne : n ≠ 0 := ne_zero_of_log2 (by omega)
  obtain ⟨hlow, hhigh⟩ := div_bounds (show 52 ≤ n.log2 by omega)
  have hle := le_roundedMantissa (shiftToTargetExponent .binary64 (n * 2 ^ 53) (-53) .exact).1
  have hge := roundedMantissa_le (shiftToTargetExponent .binary64 (n * 2 ^ 53) (-53) .exact).1
  rw [mantissa_large hlog] at hle hge
  have hexponent : (shiftToTargetExponent .binary64 (n * 2 ^ 53) (-53) .exact).2 = n.log2 - 52 :=
    exponent_integer hne (by omega)
  have hcases := isNormal_roundWithAccuracy hexponent rfl (by omega) (hlow.trans hle)
    (hge.trans hhigh)
  -- The exponent is one more than that of the integer exactly after a carry.
  obtain ⟨m, e, hnormal, he⟩ : ∃ m e, IsNormal m e
      (roundWithAccuracy .binary64 .positive (n * 2 ^ 53) (-53) .exact) ∧
        e = (n.log2 : Int) - 52 + if (shiftToTargetExponent .binary64 (n * 2 ^ 53) (-53)
          .exact).1.roundedMantissa < 2 ^ 53 then 0 else 1 := by
    obtain ⟨hrounded, hnormal⟩ | ⟨hrounded, hnormal⟩ := hcases
    · exact ⟨_, _, hnormal, by rw [if_pos hrounded, add_zero]⟩
    · exact ⟨_, _, hnormal, by rw [if_neg hrounded.not_lt]⟩
  have hlower : (n.log2 : Int) - 52 ≤ e := by
    rw [he]
    split <;> omega
  have hupper : e ≤ (n.log2 : Int) - 51 := by
    rw [he]
    split <;> omega
  refine ⟨m, e, hnormal, by omega, ?_⟩
  rcases Nat.lt_trichotomy n.log2 1023 with hsmall | hequal | hlarge
  · have hlt : n < overflow := Nat.lt_log2_self.trans_le (two_pow_le_overflow hsmall)
    exact iff_of_true (by omega) hlt
  · rw [← roundedMantissa_lt_iff_lt_overflow hequal]
    split at he <;> omega
  · have hle : overflow ≤ n := (overflow_le_two_pow hlarge).trans (Nat.log2_self_le hne)
    exact iff_of_false (by omega) hle.not_gt

end Round

section Pack

variable {m : Nat} {e : Int} {u : UnpackedFloat}

/-- The bits of a positive double with a mantissa of 53 bits, the first of which is left out. -/
def normalBits (m : Nat) (e : Int) : Nat :=
  (e + 1075).toNat * 2 ^ 52 + (m - 2 ^ 52)

lemma normalBits_fields (hlog : m.log2 = 52) (hhigh : e ≤ 971) :
    normalBits m e % 2 ^ 52 = m - 2 ^ 52 ∧ normalBits m e / 2 ^ 52 % 2 ^ 11 = (e + 1075).toNat ∧
      normalBits m e / 2 ^ 63 = 0 := by
  obtain ⟨hmlow, hmhigh⟩ := bounds_of_log2 hlog
  unfold normalBits
  omega

lemma toNat_packComponents (exponent : BitVec 11) (mantissa : BitVec 52) :
    (packComponents .binary64 .positive exponent mantissa).toNat =
      exponent.toNat * 2 ^ 52 + mantissa.toNat := by
  have hlt : mantissa.toNat < 2 ^ 52 := mantissa.isLt
  change ((0#1 ++ exponent) ++ mantissa).toNat = _
  rw [BitVec.toNat_append, BitVec.toNat_append, ← Nat.shiftLeft_add_eq_or_of_lt hlt,
    Nat.shiftLeft_eq]
  simp

lemma IsNormal.toNat_pack (h : IsNormal m e u) (hlow : -1074 ≤ e) (hhigh : e ≤ 971) :
    (pack .binary64 u).toNat = normalBits m e := by
  obtain ⟨hlog, hm, rfl⟩ := h
  obtain ⟨hmlow, hmhigh⟩ := bounds_of_log2 hlog
  have hpack : pack .binary64 (.finite .positive m e hm) = packComponents .binary64 .positive
      (BitVec.ofNat 11 (e + 1075).toNat) (BitVec.ofNat 52 m) := by
    have hbias : e + (Format.binary64.exponentBias : Int) + ((52 : Nat) : Int) = e + 1075 := by
      change e + 1023 + 52 = e + 1075
      omega
    simp only [UnpackedFloat.pack, hbias]
    rw [if_neg (by norm_num; omega), if_pos (by rw [hlog]; rfl)]
  have hexponent : (e + 1075).toNat < 2 ^ 11 := by omega
  have hmantissa : m % 2 ^ 52 = m - 2 ^ 52 := by omega
  rw [hpack, toNat_packComponents, BitVec.toNat_ofNat, BitVec.toNat_ofNat,
    Nat.mod_eq_of_lt hexponent, hmantissa]
  rfl

section Bits

variable (hlog : m.log2 = 52) (hlow : -1074 ≤ e) (hhigh : e ≤ 971)

include hlog hlow hhigh

lemma isNormal_unpack {b : BitVec 64} (h : b.toNat = normalBits m e) :
    IsNormal m e (unpack .binary64 b) := by
  obtain ⟨hmlow, hmhigh⟩ := bounds_of_log2 hlog
  obtain ⟨hfraction, hpower, hsign⟩ := normalBits_fields hlog hhigh
  have hexponent : (@unpackExponent .binary64 b).toNat = (e + 1075).toNat := by
    simp only [unpackExponent, BitVec.toNat_cast, BitVec.extractLsb_toNat, h]
    rw [Nat.shiftRight_eq_div_pow]
    exact hpower
  have hmantissa : (@unpackMantissa .binary64 b).toNat = m - 2 ^ 52 := by
    simp only [unpackMantissa, BitVec.toNat_cast, BitVec.extractLsb_toNat, h]
    exact hfraction
  have hpositive : @unpackSign .binary64 b = 0#1 := by
    apply BitVec.eq_of_toNat_eq
    simp only [unpackSign, BitVec.toNat_cast, BitVec.extractLsb_toNat, h]
    rw [Nat.shiftRight_eq_div_pow]
    exact congrArg (· % 2) hsign
  have hm : 0 < m := by omega
  refine ⟨hlog, hm, ?_⟩
  rw [unpack_eq_finite hm hlow hhigh hexponent (by omega), hpositive]
  rfl

lemma natural?_eq_some_iff {x : Float} (h : x.toBits.toNat = normalBits m e) (n : Nat) :
    natural? x = some n ↔ n * twoPow (-e) = m * twoPow e := by
  obtain ⟨hmlow, hmhigh⟩ := bounds_of_log2 hlog
  obtain ⟨hfraction, hpower, hsign⟩ := normalBits_fields hlog hhigh
  have hfinite : x.isFinite = true := by
    obtain ⟨-, hm, hunpacked⟩ := isNormal_unpack hlog hlow hhigh (b := x.toModel.toBits.toBitVec) h
    exact congrArg UnpackedFloat.isFinite hunpacked
  have hpositive : isSigned x = false := by
    rw [isSigned, h]
    exact beq_eq_false_iff_ne.mpr (hsign.trans_ne (by decide))
  have hdyadic : (Dyadic.ofFloat x).mantissa = m ∧ (Dyadic.ofFloat x).exponent = e := by
    have hnotzero : ¬ (e + 1075).toNat = 0 := by omega
    have he : ((e + 1075).toNat : Int) - 1075 = e := by omega
    norm_num at hfraction hpower
    simp only [Dyadic.ofFloat, h, hfraction, hpower]
    rw [if_neg hnotzero]
    exact ⟨Nat.add_sub_cancel' hmlow, he⟩
  rw [natural?, hfinite, hpositive, ← hdyadic.1, ← hdyadic.2]
  exact Dyadic.toNat?_eq_some_iff _ n

end Bits

lemma IsNormal.unpack_pack (h : IsNormal m e u) (hlow : -1074 ≤ e) (hhigh : e ≤ 971) :
    IsNormal m e (unpack .binary64 (pack .binary64 u)) :=
  isNormal_unpack h.1 hlow hhigh (h.toNat_pack hlow hhigh)

lemma IsNormal.pack_eq (h : IsNormal m e u) (he : 971 < e) :
    Float.Model.pack u = Float.Model.pack (.infinity .positive) := by
  obtain ⟨-, hm, rfl⟩ := h
  have hinfinity :
      pack .binary64 (.finite .positive m e hm) = packedInfinity .binary64 .positive := by
    simp only [UnpackedFloat.pack, Format.exponentBias]
    norm_num
    omega
  simp only [Float.Model.pack, hinfinity]
  rfl

end Pack

section Natural

variable {n : Nat}

lemma twoPow_natCast (k : Nat) : twoPow k = 2 ^ k := rfl

lemma isNormal_ofNat (hne : n ≠ 0) (hlog : n.log2 ≤ 52) :
    IsNormal (n * 2 ^ (52 - n.log2)) (n.log2 - 52) (UnpackedFloat.ofNat .binary64 n) := by
  have hsign : compare (n : Int) 0 = .gt := Int.compare_eq_gt.mpr (by omega)
  have hshift : (0 - Format.binary64.targetExponent (totalExponent n 0)).toNat = 52 - n.log2 := by
    change (0 - max ((n.log2 : Int) + 1 + 0 - 53) (-1074)).toNat = 52 - n.log2
    omega
  have hrounded := isNormal_small (j := 52 - n.log2) hne hlog (by omega)
  unfold UnpackedFloat.ofNat UnpackedFloat.ofInt UnpackedFloat.normalize
  simp only [hsign, UnpackedFloat.round, decreaseExponent, Int.toNat_natCast, hshift,
    Nat.shiftLeft_eq]
  rw [Int.zero_sub]
  exact hrounded

lemma isNormal_mul_one (hne : n ≠ 0) (hlog : n.log2 ≤ 52) {u : UnpackedFloat}
    (h : IsNormal (n * 2 ^ (52 - n.log2)) (n.log2 - 52) u) :
    IsNormal (n * 2 ^ (52 - n.log2)) (n.log2 - 52)
      (UnpackedFloat.mul .binary64 u (.finite .positive (2 ^ 52) (-52) (by decide))) := by
  obtain ⟨-, hm, rfl⟩ := h
  have hmantissa : n * 2 ^ (52 - n.log2) * 2 ^ 52 = n * 2 ^ (104 - n.log2) := by
    rw [Nat.mul_assoc, ← Nat.pow_add]
    congr 2
    omega
  have hexponent : (n.log2 : Int) - 52 + -52 = -((104 - n.log2 : Nat) : Int) := by omega
  have hrounded := isNormal_small (j := 104 - n.log2) hne hlog (by omega)
  rw [← hmantissa, ← hexponent] at hrounded
  exact hrounded

lemma isNormal_small_product (hne : n ≠ 0) (hn : n < 2 ^ 53) :
    IsNormal (n * 2 ^ (52 - n.log2)) (n.log2 - 52) (UnpackedFloat.mul .binary64
      n.toUInt64.toFloat.toModel.unpack (1.0 : Float).toModel.unpack) := by
  have hnat : n.toUInt64.toNat = n := by
    simp
    omega
  have hlog : n.log2 ≤ 52 := log2_le_of_lt hn
  have hfactor : IsNormal (n * 2 ^ (52 - n.log2)) (n.log2 - 52)
      n.toUInt64.toFloat.toModel.unpack := by
    apply IsNormal.unpack_pack _ (by omega) (by omega)
    change IsNormal _ _ (UnpackedFloat.ofNat .binary64 n.toUInt64.toNat)
    rw [hnat]
    exact isNormal_ofNat hne hlog
  exact isNormal_mul_one hne hlog hfactor

lemma natural?_small (hne : n ≠ 0) (hn : n < 2 ^ 53) :
    natural? (n.toUInt64.toFloat * 1.0) = some n := by
  have hlog : n.log2 ≤ 52 := log2_le_of_lt hn
  have hproduct := isNormal_small_product hne hn
  have hbits : (n.toUInt64.toFloat * 1.0).toBits.toNat =
      normalBits (n * 2 ^ (52 - n.log2)) (n.log2 - 52) :=
    hproduct.toNat_pack (by omega) (by omega)
  rw [natural?_eq_some_iff hproduct.1 (by omega) (by omega) hbits]
  have hdown : (-((n.log2 : Int) - 52)) = ((52 - n.log2 : Nat) : Int) := by omega
  rw [hdown, twoPow_natCast, twoPow_of_nonpos (by omega), Nat.mul_one]

lemma exists_isNormal_ofScientific (hlog : 53 ≤ n.log2) : ∃ m e,
    IsNormal m e (UnpackedFloat.ofScientific .binary64 n 0) ∧ 1 ≤ e ∧ (e ≤ 971 ↔ n < overflow) := by
  have hne : n ≠ 0 := by
    rintro rfl
    simp at hlog
  unfold UnpackedFloat.ofScientific
  have hpow : (0 : Int) ≤ 2 ^ Format.binary64.exponentBits := by decide
  rw [dif_neg hne, if_neg (by decide), if_neg (by omega), if_pos (by decide)]
  have hsign : Sign.positive * Sign.positive = Sign.positive := rfl
  have hinteger := isNormal_large hlog
  simpa [hsign, UnpackedFloat.mul, Nat.shiftLeft_eq, Format.mantissaBits] using hinteger

lemma ofScientific_of_le (h : 2 ^ 53 ≤ n) : Float.ofScientific n false 0 =
    .ofModel (Float.Model.pack (UnpackedFloat.ofScientific .binary64 n 0)) := by
  unfold Float.ofScientific
  rw [dif_neg (by omega)]
  rfl

lemma exists_natural?_ofScientific (hne : n ≠ 0) (hn : n < overflow) :
    ∃ k, natural? (Float.ofScientific n false 0) = some k ∧ min n (2 ^ 53) ≤ k := by
  rcases Nat.lt_or_ge n (2 ^ 53) with hsmall | hlarge
  · refine ⟨n, ?_, Nat.min_le_left ..⟩
    unfold Float.ofScientific
    rw [dif_pos ⟨hsmall, by decide⟩]
    exact natural?_small hne hsmall
  · obtain ⟨m, e, hnormal, hlow, hrange⟩ :=
      exists_isNormal_ofScientific ((Nat.le_log2 hne).mpr hlarge)
    have hhigh := hrange.mpr hn
    obtain ⟨hmlow, -⟩ := bounds_of_log2 hnormal.1
    have hbits : (Float.ofScientific n false 0).toBits.toNat = normalBits m e := by
      rw [ofScientific_of_le hlarge]
      exact hnormal.toNat_pack (by omega) hhigh
    refine ⟨m * twoPow e, ?_, ?_⟩
    · rw [natural?_eq_some_iff hnormal.1 (by omega) hhigh hbits,
        twoPow_of_nonpos (by omega : -e ≤ 0), Nat.mul_one]
    · have htwo : 2 ^ 1 ≤ twoPow e := Nat.pow_le_pow_right (by decide) (by omega)
      calc min n (2 ^ 53) ≤ 2 ^ 52 * 2 ^ 1 := Nat.min_le_right ..
        _ ≤ m * twoPow e := Nat.mul_le_mul hmlow htwo

lemma ofScientific_eq_infinity (hn : overflow ≤ n) : Float.ofScientific n false 0 = infinity := by
  have hlarge : 2 ^ 53 ≤ n := (two_pow_le_overflow (by decide)).trans hn
  have hne : n ≠ 0 := by omega
  obtain ⟨m, e, hnormal, -, hrange⟩ := exists_isNormal_ofScientific ((Nat.le_log2 hne).mpr hlarge)
  have hhigh : 971 < e := not_le.mp (mt hrange.mp hn.not_gt)
  rw [ofScientific_of_le hlarge, hnormal.pack_eq hhigh]
  rfl

lemma digitCount_le_iff {k : Nat} (hk : 0 < k) : digitCount n ≤ k ↔ n < 10 ^ k :=
  Nat.length_toDigits_le_iff (by decide) hk

/-- Digits that stand for a positive integer below the overflow are read as a natural number, which
is that integer if it is below `2 ^ 53`. -/
theorem exists_natural?_ofScaled (hne : n ≠ 0) (hn : n < overflow) :
    ∃ k, natural? (ofScaled n 0) = some k ∧ min n (2 ^ 53) ≤ k := by
  have hdigits : digitCount n ≤ 400 :=
    (digitCount_le_iff (by decide)).mpr (hn.trans overflow_bounds.2.2)
  unfold ofScaled
  dsimp only
  rw [if_neg (by simp [hne]), if_neg (by omega)]
  exact exists_natural?_ofScientific hne hn

theorem ofScaled_eq_infinity (hn : overflow ≤ n) : ofScaled n 0 = infinity := by
  have hne : n ≠ 0 := by
    rintro rfl
    exact absurd hn (by decide +kernel)
  unfold ofScaled
  dsimp only
  rw [if_neg (by simp [hne])]
  split
  · rfl
  · exact ofScientific_eq_infinity hn

end Natural

end MarketFormula.Decimal
