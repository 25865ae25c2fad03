import MarketFormula.Proofs.Decimal.Exact

/-!
# Where a result is missing

There is one double that is no number. Sums and products with it are missing, and beside it only
infinities make a result missing: with zero in a product and with each other in a sum.
-/
namespace MarketFormula.Decimal

open Float.Model Float.Model.UnpackedFloat

variable {x y : Float}

lemma isFinite_of_isNaN_of_isInf (hnan : x.isNaN = false) (hinf : x.isInf = false) :
    x.isFinite = true := by
  change x.toModel.unpack.isNaN = false at hnan
  change x.toModel.unpack.isInf = false at hinf
  change x.toModel.unpack.isFinite = true
  cases hx : x.toModel.unpack with
  | notANumber => rw [hx] at hnan; cases hnan
  | infinity sign => rw [hx] at hinf; cases hinf
  | _ => rfl

lemma isNaN_pack (u : UnpackedFloat) :
    (unpack .binary64 (pack .binary64 u)).isNaN = u.isNaN := by
  cases hu : u.isNaN with
  | false => exact isNaN_unpack_pack hu
  | true =>
    cases u with
    | notANumber => rfl
    | _ => cases hu

lemma isNaN_mul_eq (x y : Float) : (x * y).isNaN =
    (UnpackedFloat.mul .binary64 x.toModel.unpack y.toModel.unpack).isNaN := isNaN_pack _

lemma isNaN_add_eq (x y : Float) : (x + y).isNaN =
    (UnpackedFloat.add .binary64 x.toModel.unpack y.toModel.unpack).isNaN := isNaN_pack _

lemma unpack_of_isNaN (hx : x.isNaN = true) : x.toModel.unpack = .notANumber := by
  change x.toModel.unpack.isNaN = true at hx
  cases hu : x.toModel.unpack with
  | notANumber => rfl
  | _ => rw [hu] at hx; cases hx

lemma eq_nan_of_isNaN (hx : x.isNaN = true) : x = nan :=
  eq_of_unpack_eq ((unpack_of_isNaN hx).trans rfl)

lemma isNaN_mul_of_isNaN (hx : x.isNaN = true) (y : Float) : (x * y).isNaN = true := by
  rw [isNaN_mul_eq, unpack_of_isNaN hx]
  rfl

lemma isNaN_add_of_isNaN_left (hx : x.isNaN = true) (y : Float) : (x + y).isNaN = true := by
  rw [isNaN_add_eq, unpack_of_isNaN hx]
  rfl

lemma isNaN_add_of_isNaN_right (x : Float) (hy : y.isNaN = true) : (x + y).isNaN = true := by
  rw [isNaN_add_eq, unpack_of_isNaN hy]
  cases x.toModel.unpack <;> rfl

lemma isNaN_mul_of_toRat_ne_zero (hx : x.isNaN = false) (hy : toRat y ≠ 0) :
    (x * y).isNaN = false := by
  obtain ⟨sign, m, e, hm, hunpack, -⟩ := unpack_of_toRat_ne_zero hy
  rw [isNaN_mul_eq]
  exact isNaN_mul hx (by rw [hunpack]; rfl)

lemma isNaN_add_of_isFinite (hx : x.isFinite = true) (hy : y.isNaN = false) :
    (x + y).isNaN = false := by
  change y.toModel.unpack.isNaN = false at hy
  rw [isNaN_add_eq]
  obtain ⟨sign, hunpack⟩ | ⟨sign, m, e, hm, hunpack, -⟩ := unpack_of_isFinite hx
  · rw [hunpack]
    cases hv : y.toModel.unpack with
    | notANumber => rw [hv] at hy; cases hy
    | zero sign' => cases sign <;> cases sign' <;> rfl
    | _ => rfl
  · rw [hunpack]
    cases hv : y.toModel.unpack with
    | notANumber => rw [hv] at hy; cases hy
    | finite sign' m' e' hm' => exact isNaN_normalize ..
    | _ => rfl

lemma isInf_of_isNaN (hx : x.isNaN = true) : x.isInf = false := by
  change x.toModel.unpack.isInf = false
  rw [unpack_of_isNaN hx]
  rfl

lemma isInf_of_isFinite (hx : x.isFinite = true) : x.isInf = false := by
  change x.toModel.unpack.isInf = false
  obtain ⟨sign, hunpack⟩ | ⟨sign, m, e, hm, hunpack, -⟩ := unpack_of_isFinite hx <;>
    rw [hunpack] <;> rfl

lemma exists_unpack_mul_zero (hx : x.isFinite = true) :
    ∃ sign, (x * 0.0).toModel.unpack = .zero sign := by
  have hzero : ∀ sign, unpack .binary64 (pack .binary64 (.zero sign)) = .zero sign := by
    rintro (_ | _) <;> rfl
  change ∃ sign, unpack .binary64 (pack .binary64
    (UnpackedFloat.mul .binary64 x.toModel.unpack (0.0 : Float).toModel.unpack)) = .zero sign
  rw [unpack_zero]
  obtain ⟨sign, hunpack⟩ | ⟨sign, m, e, hm, hunpack, -⟩ := unpack_of_isFinite hx <;>
    rw [hunpack] <;> exact ⟨_, hzero _⟩

lemma isFinite_add_zero {sign : Sign} (hx : x.isFinite = true) (hy : y.toModel.unpack = .zero sign) :
    (x + y).isFinite = true := by
  change (unpack .binary64 (pack .binary64
    (UnpackedFloat.add .binary64 x.toModel.unpack y.toModel.unpack))).isFinite = true
  rw [hy]
  obtain ⟨sign', hunpack⟩ | ⟨sign', m, e, hm, hunpack, hcanon⟩ := unpack_of_isFinite hx
  · rw [hunpack]
    cases sign <;> cases sign' <;> rfl
  · rw [hunpack]
    change (unpack .binary64 (pack .binary64 (.finite sign' m e hm))).isFinite = true
    rw [unpack_pack hm hcanon]
    rfl

end MarketFormula.Decimal
