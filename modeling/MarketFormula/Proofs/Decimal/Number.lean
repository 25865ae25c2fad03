import MarketFormula.Decimal.Reading
import MarketFormula.Proofs.Decimal.Range

/-!
# Digits stand for numbers

Reading digits ends in a number or in an infinity, never in a missing value: rounding does not, and
small mantissas are multiplied or divided by a positive power of ten.
-/
namespace MarketFormula.Decimal

open Float.Model Float.Model.UnpackedFloat

lemma beq_self_of_isNaN {x : Float} (h : x.isNaN = false) : (x == x) = true := by
  change (x.toModel.unpack.compare x.toModel.unpack == some .eq) = true
  change x.toModel.unpack.isNaN = false at h
  cases hu : x.toModel.unpack with
  | notANumber => simp [hu, UnpackedFloat.isNaN] at h
  | infinity s => cases s <;> rfl
  | zero s => rfl
  | finite s m e hm =>
    cases s <;> simp [UnpackedFloat.compare]

lemma isNaN_roundWithAccuracy (sign : Sign) (m : Nat) (e : Int) (accuracy : Accuracy) :
    (roundWithAccuracy .binary64 sign m e accuracy).isNaN = false := by
  unfold roundWithAccuracy
  dsimp only
  split <;> rfl

lemma isNaN_packedInfinity (sign : Sign) :
    (unpack .binary64 (packedInfinity .binary64 sign)).isNaN = false := by
  cases sign <;> rfl

lemma isNaN_of_exponentAtMost {limit : Int} {u : UnpackedFloat} (h : ExponentAtMost limit u) :
    u.isNaN = false := by
  cases u with
  | notANumber => exact h.elim
  | _ => rfl

lemma isNaN_unpack_pack {u : UnpackedFloat} (h : u.isNaN = false) :
    (unpack .binary64 (pack .binary64 u)).isNaN = false := by
  cases u with
  | notANumber => cases h
  | infinity sign => exact isNaN_packedInfinity sign
  | zero sign =>
    have hpacked : ExponentAtMost 971 (unpack .binary64 (pack .binary64 (.zero sign))) :=
      exponentAtMost_unpack_pack (by decide) le_rfl trivial
    exact isNaN_of_exponentAtMost hpacked
  | finite sign m e hm =>
    by_cases he : e ≤ 971
    · have hpacked : ExponentAtMost 971 (unpack .binary64 (pack .binary64 (.finite sign m e hm))) :=
        exponentAtMost_unpack_pack (by decide) le_rfl he
      exact isNaN_of_exponentAtMost hpacked
    · have hinfinity : pack .binary64 (.finite sign m e hm) = packedInfinity .binary64 sign := by
        simp only [UnpackedFloat.pack, Format.exponentBias]
        norm_num
        omega
      rw [hinfinity]
      exact isNaN_packedInfinity sign

lemma isNaN_ofScientific (m : Nat) (e : Int) :
    (UnpackedFloat.ofScientific .binary64 m e).isNaN = false := by
  unfold UnpackedFloat.ofScientific
  split
  · rfl
  · split
    · rfl
    · split
      · rfl
      · split
        · exact isNaN_roundWithAccuracy ..
        · exact isNaN_roundWithAccuracy ..

/-- Neither zero nor infinite. -/
def isProper : UnpackedFloat → Bool
  | .finite .. => true
  | _ => false

lemma isNaN_mul {u v : UnpackedFloat} (hu : u.isNaN = false) (hv : isProper v = true) :
    (UnpackedFloat.mul .binary64 u v).isNaN = false := by
  cases v with
  | finite sign m e hm =>
    cases u with
    | notANumber => cases hu
    | infinity sign => rfl
    | zero sign => rfl
    | finite sign m e hm => exact isNaN_roundWithAccuracy ..
  | _ => cases hv

lemma isNaN_div {u v : UnpackedFloat} (hu : u.isNaN = false) (hv : isProper v = true) :
    (UnpackedFloat.div .binary64 u v).isNaN = false := by
  cases v with
  | finite sign m e hm =>
    cases u with
    | notANumber => cases hu
    | infinity sign => rfl
    | zero sign => rfl
    | finite sign m e hm => exact isNaN_roundWithAccuracy ..
  | _ => cases hv

lemma isProper_power :
    ∀ x ∈ Float.exactlyRepresentablePowersOfTen.toList, isProper x.toModel.unpack = true := by
  decide +kernel

lemma isNaN_normalize (m : ℤ) (e : Int) (sign : Sign) :
    (UnpackedFloat.normalize .binary64 m e sign).isNaN = false := by
  unfold UnpackedFloat.normalize
  split
  · exact isNaN_roundWithAccuracy ..
  · rfl
  · exact isNaN_roundWithAccuracy ..

lemma isNaN_toFloat (n : UInt64) : n.toFloat.isNaN = false :=
  isNaN_unpack_pack (isNaN_normalize n.toNat 0 .positive)

lemma isNaN_floatOfScientific (m : Nat) (negative : Bool) (e : Nat) :
    (Float.ofScientific m negative e).isNaN = false := by
  unfold Float.ofScientific
  split
  · next h =>
    have he : e < Float.exactlyRepresentablePowersOfTen.size := Nat.lt_succ_of_le h.2
    have hpower := isProper_power _ (Array.getElem_mem_toList he)
    have hmantissa := isNaN_toFloat m.toUInt64
    dsimp only
    split
    · exact isNaN_unpack_pack (isNaN_div hmantissa hpower)
    · exact isNaN_unpack_pack (isNaN_mul hmantissa hpower)
  · exact isNaN_unpack_pack (isNaN_ofScientific ..)

lemma isNaN_ofScaled (mantissa : Nat) (exponent : Int) :
    (ofScaled mantissa exponent).isNaN = false := by
  unfold ofScaled
  dsimp only
  split
  · decide +kernel
  · split
    · decide +kernel
    · exact isNaN_floatOfScientific ..

theorem ofPlain_beq_self (cs : List Char) : (ofPlain cs == ofPlain cs) = true :=
  beq_self_of_isNaN (isNaN_ofScaled ..)

end MarketFormula.Decimal
