import MarketFormula.Proofs.Decimal.Exact

/-!
# The order of doubles

Doubles are compared as the rational numbers that they stand for, with an infinity on either side. A
missing value is neither above nor below anything.
-/
namespace MarketFormula.Decimal

open Float.Model Float.Model.UnpackedFloat

/-- Rational numbers between two infinities. -/
abbrev Extended := WithBot (WithTop ℚ)

def extendedOf : UnpackedFloat → Extended
  | .infinity .negative => ⊥
  | .infinity .positive => ((⊤ : WithTop ℚ) : Extended)
  | u => ((rationalOf u : WithTop ℚ) : Extended)

/-- Where a double stands among the rational numbers and the infinities. -/
def toExtended (x : Float) : Extended :=
  extendedOf x.toModel.unpack

section Magnitude

variable {m m' : Nat} {e e' : Int} (h : IsCanonical m e) (h' : IsCanonical m' e')

include h h'

lemma magnitude_lt_of_lt (hlt : e < e') : (m : ℚ) * 2 ^ e < m' * 2 ^ e' := by
  have hm : (m : ℚ) < 2 ^ 53 := by exact_mod_cast h.1
  have hm' : (2 : ℚ) ^ 52 ≤ m' := by
    have hfull : 2 ^ 52 ≤ m' := h'.2.2.2.resolve_right (by have := h.2.1; omega)
    exact_mod_cast hfull
  have hpow : (2 : ℚ) ^ (e + 1) ≤ 2 ^ e' := zpow_le_zpow_right₀ one_le_two hlt
  have hpos : (0 : ℚ) < 2 ^ e := zpow_pos two_pos e
  calc (m : ℚ) * 2 ^ e < 2 ^ 53 * 2 ^ e := mul_lt_mul_of_pos_right hm hpos
    _ = 2 ^ 52 * 2 ^ (e + 1) := by rw [zpow_add_one₀ two_ne_zero]; ring
    _ ≤ m' * 2 ^ e' := mul_le_mul hm' hpow (zpow_pos two_pos _).le (Nat.cast_nonneg m')

lemma compare_magnitude :
    (compare e e').then (compare m m') = compare ((m : ℚ) * 2 ^ e) (m' * 2 ^ e') := by
  rcases lt_trichotomy e e' with hlt | rfl | hgt
  · rw [compare_lt_iff_lt.mpr hlt, compare_lt_iff_lt.mpr (magnitude_lt_of_lt h h' hlt)]
    rfl
  · have hpos : (0 : ℚ) < 2 ^ e := zpow_pos two_pos e
    have hmono : StrictMono fun k : ℕ => (k : ℚ) * 2 ^ e := fun _ _ hlt =>
      mul_lt_mul_of_pos_right (Nat.cast_lt.mpr hlt) hpos
    rw [compare_eq_iff_eq.mpr rfl, Ordering.eq_then, ← cmp_eq_compare, ← cmp_eq_compare]
    exact (hmono.cmp_map_eq m m').symm
  · rw [compare_gt_iff_gt.mpr hgt, compare_gt_iff_gt.mpr (magnitude_lt_of_lt h' h hgt)]
    rfl

end Magnitude

lemma compare_neg_neg (q r : ℚ) : compare (-q) (-r) = (compare q r).swap := by
  have hanti : StrictAnti fun q : ℚ => -q := fun _ _ => neg_lt_neg
  rw [← cmp_eq_compare, ← cmp_eq_compare, cmp_swap]
  exact hanti.cmp_map_eq q r

lemma rationalOf_finite_pos {m : Nat} {e : Int} {hm : 0 < m} :
    0 < rationalOf (.finite .positive m e hm) := by
  have hcast : (0 : ℚ) < ((m : ℤ) : ℚ) := by exact_mod_cast hm
  exact mul_pos hcast (zpow_pos two_pos e)

lemma rationalOf_finite_neg {m : Nat} {e : Int} {hm : 0 < m} :
    rationalOf (.finite .negative m e hm) < 0 := by
  have hcast : ((-(m : ℤ) : ℤ) : ℚ) < 0 := by
    have hneg : -(m : ℤ) < 0 := by omega
    exact_mod_cast hneg
  exact mul_neg_of_neg_of_pos hcast (zpow_pos two_pos e)

/-- Neither missing nor infinite, and in the form to which doubles are unpacked. -/
def IsPlain : UnpackedFloat → Prop
  | .zero _ => True
  | .finite _ m e _ => IsCanonical m e
  | _ => False

lemma isPlain_unpack {x : Float} (h : x.isFinite = true) : IsPlain x.toModel.unpack := by
  obtain ⟨sign, hzero⟩ | ⟨sign, m, e, hm, hfinite, hcanonical⟩ := unpack_of_isFinite h
  · rw [hzero]
    trivial
  · rw [hfinite]
    exact hcanonical

lemma compare_plain {u v : UnpackedFloat} (hu : IsPlain u) (hv : IsPlain v) :
    u.compare v = some (compare (rationalOf u) (rationalOf v)) := by
  have hzero : ∀ sign, rationalOf (.zero sign) = 0 := fun _ => rfl
  cases u with
  | notANumber => exact hu.elim
  | infinity sign => exact hu.elim
  | zero sign =>
    cases v with
    | notANumber => exact hv.elim
    | infinity sign' => exact hv.elim
    | zero sign' => rw [hzero, hzero, compare_eq_iff_eq.mpr rfl]; rfl
    | finite sign' m' e' hm' =>
      cases sign' with
      | positive => rw [hzero, compare_lt_iff_lt.mpr rationalOf_finite_pos]; rfl
      | negative => rw [hzero, compare_gt_iff_gt.mpr rationalOf_finite_neg]; rfl
  | finite sign m e hm =>
    cases v with
    | notANumber => exact hv.elim
    | infinity sign' => exact hv.elim
    | zero sign' =>
      cases sign with
      | positive => rw [hzero, compare_gt_iff_gt.mpr rationalOf_finite_pos]; rfl
      | negative => rw [hzero, compare_lt_iff_lt.mpr rationalOf_finite_neg]; rfl
    | finite sign' m' e' hm' =>
      have hmagnitude := compare_magnitude hu hv
      cases sign <;> cases sign'
      case positive.positive => exact congrArg some hmagnitude
      case positive.negative =>
        rw [compare_gt_iff_gt.mpr (rationalOf_finite_neg.trans rationalOf_finite_pos)]
        rfl
      case negative.positive =>
        rw [compare_lt_iff_lt.mpr (rationalOf_finite_neg.trans rationalOf_finite_pos)]
        rfl
      case negative.negative =>
        have hnegated : ∀ (k : Nat) (hk : 0 < k) (i : Int),
            rationalOf (.finite .negative k i hk) = -((k : ℚ) * 2 ^ i) := by
          intro k hk i
          change ((-(k : ℤ) : ℤ) : ℚ) * 2 ^ i = -((k : ℚ) * 2 ^ i)
          rw [Int.cast_neg, Int.cast_natCast, neg_mul]
        rw [hnegated, hnegated, compare_neg_neg, ← hmagnitude]
        rfl

lemma compare_coe (q r : ℚ) :
    compare ((q : WithTop ℚ) : Extended) ((r : WithTop ℚ) : Extended) = compare q r := by
  have hmono : StrictMono fun q : ℚ => ((q : WithTop ℚ) : Extended) := fun _ _ hlt =>
    WithBot.coe_lt_coe.mpr (WithTop.coe_lt_coe.mpr hlt)
  rw [← cmp_eq_compare, ← cmp_eq_compare]
  exact hmono.cmp_map_eq q r

lemma extendedOf_plain {u : UnpackedFloat} (h : IsPlain u) :
    extendedOf u = ((rationalOf u : WithTop ℚ) : Extended) := by
  cases u with
  | infinity sign => exact h.elim
  | _ => rfl

lemma toExtended_of_isFinite {x : Float} (h : x.isFinite = true) :
    toExtended x = ((toRat x : WithTop ℚ) : Extended) :=
  extendedOf_plain (isPlain_unpack h)

lemma extendedOf_negative_lt {u : UnpackedFloat} (h : u ≠ .infinity .negative) :
    extendedOf (.infinity .negative) < extendedOf u := by
  cases u with
  | infinity sign =>
    cases sign with
    | positive => exact WithBot.bot_lt_coe _
    | negative => exact absurd rfl h
  | _ => exact WithBot.bot_lt_coe _

lemma extendedOf_lt_positive {u : UnpackedFloat} (h : u ≠ .infinity .positive) :
    extendedOf u < extendedOf (.infinity .positive) := by
  cases u with
  | infinity sign =>
    cases sign with
    | positive => exact absurd rfl h
    | negative => exact WithBot.bot_lt_coe _
  | _ => exact WithBot.coe_lt_coe.mpr (WithTop.coe_lt_top _)

lemma compare_infinity_left (sign : Sign) {v : UnpackedFloat} (hv : v.isNaN = false) :
    UnpackedFloat.compare (.infinity sign) v =
      some (compare (extendedOf (.infinity sign)) (extendedOf v)) := by
  by_cases heq : v = .infinity sign
  · rw [heq, compare_eq_iff_eq.mpr rfl]
    cases sign <;> rfl
  · cases sign with
    | positive =>
      rw [compare_gt_iff_gt.mpr (extendedOf_lt_positive heq)]
      cases v with
      | notANumber => cases hv
      | infinity sign =>
        cases sign with
        | positive => exact absurd rfl heq
        | negative => rfl
      | _ => rfl
    | negative =>
      rw [compare_lt_iff_lt.mpr (extendedOf_negative_lt heq)]
      cases v with
      | notANumber => cases hv
      | infinity sign =>
        cases sign with
        | positive => rfl
        | negative => exact absurd rfl heq
      | _ => rfl

lemma compare_infinity_right (sign : Sign) {u : UnpackedFloat} (hu : IsPlain u) :
    UnpackedFloat.compare u (.infinity sign) =
      some (compare (extendedOf u) (extendedOf (.infinity sign))) := by
  have hne : ∀ sign, u ≠ .infinity sign := by
    rintro sign rfl
    exact hu
  cases sign with
  | positive =>
    rw [compare_lt_iff_lt.mpr (extendedOf_lt_positive (hne .positive))]
    cases u with
    | notANumber => exact hu.elim
    | infinity sign => exact hu.elim
    | _ => rfl
  | negative =>
    rw [compare_gt_iff_gt.mpr (extendedOf_negative_lt (hne .negative))]
    cases u with
    | notANumber => exact hu.elim
    | infinity sign => exact hu.elim
    | _ => rfl

lemma isPlain_or_infinity {x : Float} (h : x.isNaN = false) :
    IsPlain x.toModel.unpack ∨ ∃ sign, x.toModel.unpack = .infinity sign := by
  change x.toModel.unpack.isNaN = false at h
  cases hx : x.toModel.unpack with
  | notANumber => rw [hx] at h; cases h
  | infinity sign => exact .inr ⟨sign, rfl⟩
  | zero sign => exact .inl trivial
  | finite sign m e hm => exact .inl (canonical_of_unpack hx)

lemma compare_eq {x y : Float} (hx : x.isNaN = false) (hy : y.isNaN = false) :
    x.toModel.unpack.compare y.toModel.unpack = some (compare (toExtended x) (toExtended y)) := by
  obtain hplain | ⟨sign, hinfinite⟩ := isPlain_or_infinity hx
  · obtain hplain' | ⟨sign, hinfinite⟩ := isPlain_or_infinity hy
    · rw [compare_plain hplain hplain', toExtended, toExtended, extendedOf_plain hplain,
        extendedOf_plain hplain', compare_coe]
    · rw [toExtended, toExtended, hinfinite]
      exact compare_infinity_right sign hplain
  · rw [toExtended, hinfinite]
    exact compare_infinity_left sign hy

lemma compare_nan {x y : Float} (h : x.isNaN = true ∨ y.isNaN = true) :
    x.toModel.unpack.compare y.toModel.unpack = none := by
  have hmissing : ∀ u : UnpackedFloat, u.isNaN = true → u = .notANumber := by
    intro u hu
    cases u with
    | notANumber => rfl
    | _ => cases hu
  obtain hx | hy := h
  · rw [hmissing _ hx]
    rfl
  · rw [hmissing _ hy]
    cases x.toModel.unpack <;> rfl

lemma isLE_compare {a b : Extended} : (compare a b).isLE = true ↔ a ≤ b := by
  rw [← compare_le_iff_le]
  cases compare a b <;> decide

section Comparison

variable {x y : Float}

theorem lt_iff : x < y ↔ x.isNaN = false ∧ y.isNaN = false ∧ toExtended x < toExtended y := by
  rw [lt_iff_compare]
  cases hx : x.isNaN with
  | true => simp [compare_nan (.inl hx)]
  | false =>
    cases hy : y.isNaN with
    | true => simp [compare_nan (.inr hy)]
    | false => simp [compare_eq hx hy, compare_lt_iff_lt]

lemma le_iff_compare :
    x ≤ y ↔ (x.toModel.unpack.compare y.toModel.unpack).any (·.isLE) = true := by
  have hmodel : x ≤ y ↔ decide (x.toModel ≤ y.toModel) = true := Iff.rfl
  rw [hmodel, decide_eq_true_iff]
  rfl

theorem le_iff : x ≤ y ↔ x.isNaN = false ∧ y.isNaN = false ∧ toExtended x ≤ toExtended y := by
  rw [le_iff_compare]
  cases hx : x.isNaN with
  | true => simp [compare_nan (.inl hx)]
  | false =>
    cases hy : y.isNaN with
    | true => simp [compare_nan (.inr hy)]
    | false => simp [compare_eq hx hy, isLE_compare]

lemma beq_iff_compare :
    (x == y) = true ↔ x.toModel.unpack.compare y.toModel.unpack = some .eq := by
  change (x.toModel.unpack.compare y.toModel.unpack == some .eq) = true ↔ _
  exact beq_iff_eq

theorem beq_iff :
    (x == y) = true ↔ x.isNaN = false ∧ y.isNaN = false ∧ toExtended x = toExtended y := by
  rw [beq_iff_compare]
  cases hx : x.isNaN with
  | true => simp [compare_nan (.inl hx)]
  | false =>
    cases hy : y.isNaN with
    | true => simp [compare_nan (.inr hy)]
    | false => simp [compare_eq hx hy]

end Comparison

lemma isNaN_of_isFinite {x : Float} (h : x.isFinite = true) : x.isNaN = false := by
  change x.toModel.unpack.isFinite = true at h
  change x.toModel.unpack.isNaN = false
  cases hunpack : x.toModel.unpack with
  | notANumber => rw [hunpack] at h; cases h
  | _ => rfl

section Finite

variable {x y : Float} (hx : x.isFinite = true) (hy : y.isFinite = true)

include hx hy

theorem lt_iff_toRat_lt : x < y ↔ toRat x < toRat y := by
  rw [lt_iff, isNaN_of_isFinite hx, isNaN_of_isFinite hy, toExtended_of_isFinite hx,
    toExtended_of_isFinite hy, WithBot.coe_lt_coe, WithTop.coe_lt_coe]
  simp only [true_and]

theorem le_iff_toRat_le : x ≤ y ↔ toRat x ≤ toRat y := by
  rw [le_iff, isNaN_of_isFinite hx, isNaN_of_isFinite hy, toExtended_of_isFinite hx,
    toExtended_of_isFinite hy, WithBot.coe_le_coe, WithTop.coe_le_coe]
  simp only [true_and]

theorem beq_iff_toRat_eq : (x == y) = true ↔ toRat x = toRat y := by
  rw [beq_iff, isNaN_of_isFinite hx, isNaN_of_isFinite hy, toExtended_of_isFinite hx,
    toExtended_of_isFinite hy, WithBot.coe_inj, WithTop.coe_inj]
  simp only [true_and]

lemma not_lt_iff_le : ¬ x < y ↔ y ≤ x := by
  rw [lt_iff_toRat_lt hx hy, le_iff_toRat_le hy hx, not_lt]

end Finite

end MarketFormula.Decimal
