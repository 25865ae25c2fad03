import MarketFormula.Proofs.Decimal.Order
import MarketFormula.Proofs.Evaluation.AtBar
import MarketFormula.Proofs.Evaluation.Decision

/-!
# Conditions have two truth values

A missing number counts as false, and so its negation is true. Every operand is made a truth value
before it is combined, so negation turns conjunctions into disjunctions and back.
-/
namespace MarketFormula

def BinaryOp.comparisons : List BinaryOp :=
  [lt, le, eq, ne, ge, gt]

/-- What an operator says about two numbers if it is a comparison. -/
def verdict (x y : Float) (op : BinaryOp) : Bool :=
  op.comparison?.any fun f => compareScalars f x y

/-- What the six comparisons say about two numbers: nothing if one is missing, and otherwise that
exactly one of `<`, `==` and `>` holds, the others being disjunctions of two of these. -/
inductive TwoValued (x y : Float) (holds : BinaryOp → Bool) : Prop
  | missing (hmissing : x.isNaN = true ∨ y.isNaN = true)
    (hnone : ∀ op ∈ BinaryOp.comparisons, holds op = false)
  | numbers (hx : x.isNaN = false) (hy : y.isNaN = false)
    (hone : [holds .lt, holds .eq, holds .gt].count true = 1)
    (hle : holds .le = (holds .lt || holds .eq)) (hge : holds .ge = (holds .gt || holds .eq))
    (hne : holds .ne = (holds .lt || holds .gt))

section Verdicts

variable {x y : Float}

lemma verdict_of_isNaN (h : x.isNaN = true ∨ y.isNaN = true) (op : BinaryOp) :
    verdict x y op = false := by
  have hnone : ∀ f, compareScalars f x y = false := fun f => if_pos (Bool.or_eq_true_iff.mpr h)
  cases hop : op.comparison? <;> simp only [verdict, hop, hnone, Option.any_none, Option.any_some]

variable (hx : x.isNaN = false) (hy : y.isNaN = false)

include hx hy

lemma compareScalars_of_isNaN (f : Float → Float → Bool) : compareScalars f x y = f x y :=
  if_neg (by rw [hx, hy]; decide)

open Decimal in
theorem twoValued_of_numbers : TwoValued x y (verdict x y) := by
  have hplain : ∀ op f, op.comparison? = some f → verdict x y op = f x y := fun op f hop => by
    rw [verdict, hop, Option.any_some, compareScalars_of_isNaN hx hy]
  have hlt : verdict x y .lt = decide (toExtended x < toExtended y) := by
    simp only [hplain .lt _ rfl, lt_iff, hx, hy, true_and]
  have hgt : verdict x y .gt = decide (toExtended y < toExtended x) := by
    simp only [hplain .gt _ rfl, lt_iff, hx, hy, true_and]
  have hle : verdict x y .le = decide (toExtended x ≤ toExtended y) := by
    simp only [hplain .le _ rfl, le_iff, hx, hy, true_and]
  have hge : verdict x y .ge = decide (toExtended y ≤ toExtended x) := by
    simp only [hplain .ge _ rfl, le_iff, hx, hy, true_and]
  have heq : verdict x y .eq = decide (toExtended x = toExtended y) := by
    rw [hplain .eq _ rfl, Bool.eq_iff_iff, beq_iff, decide_eq_true_iff]
    simp only [hx, hy, true_and]
  have hne : verdict x y .ne = !verdict x y .eq := by
    rw [hplain .ne _ rfl, hplain .eq _ rfl]
    rfl
  rcases lt_trichotomy (toExtended x) (toExtended y) with hbelow | hsame | habove
  · refine .numbers hx hy ?_ ?_ ?_ ?_ <;>
      simp [hlt, hgt, hle, hge, hne, heq, hbelow, hbelow.le, hbelow.ne, hbelow.not_gt,
        hbelow.not_ge]
  · refine .numbers hx hy ?_ ?_ ?_ ?_ <;> simp [hlt, hgt, hle, hge, hne, heq, hsame]
  · refine .numbers hx hy ?_ ?_ ?_ ?_ <;>
      simp [hlt, hgt, hle, hge, hne, heq, habove, habove.le, habove.ne', habove.not_gt,
        habove.not_ge]

end Verdicts

theorem twoValued_verdict (x y : Float) : TwoValued x y (verdict x y) := by
  by_cases h : x.isNaN = true ∨ y.isNaN = true
  · exact .missing h fun op _ => verdict_of_isNaN h op
  · rw [not_or, Bool.not_eq_true, Bool.not_eq_true] at h
    exact twoValued_of_numbers h.1 h.2

namespace Value

variable {n : Nat}

lemma toBoolean_negation (v : Value) : (v.negation n).toBoolean n = (v.toBoolean n).map (!·) := by
  cases v with
  | scalar s =>
    change List.replicate n (!s.toBool) = (List.replicate n s.toBool).map (!·)
    rw [List.map_replicate]
  | _ => rfl

lemma negation_logical {f g : Bool → Bool → Bool} (hdual : ∀ a b, (!f a b) = g (!a) (!b))
    (v w : Value) : (logical n f v w).negation n = logical n g (v.negation n) (w.negation n) := by
  have hcolumns : (List.zipWith f (v.toBoolean n) (w.toBoolean n)).map (!·) =
      List.zipWith g ((v.negation n).toBoolean n) ((w.negation n).toBoolean n) := by
    simp only [toBoolean_negation, List.map_zipWith, List.zipWith_map, hdual]
  cases v <;> cases w
  case scalar.scalar a b => exact congrArg (fun c => scalar (.truth c)) (hdual a.toBool b.toBool)
  all_goals exact congrArg boolean hcolumns

end Value

namespace Expr

variable {frame : Frame} {left right : Expr} {v w : Value}

lemma exists_atBar_of_eval (hleft : left.eval frame = .ok v) {i : Nat} (hi : i < frame.length) :
    ∃ s, v.AtBar i s := by
  cases v with
  | scalar s => exact ⟨s, .scalar s⟩
  | numeric xs =>
    have hlength : xs.length = frame.length := length_toNumeric_of_eval hleft
    exact ⟨_, .numeric (List.getElem?_eq_getElem (hlength ▸ hi))⟩
  | boolean bs =>
    have hlength : bs.length = frame.length := length_toBoolean_of_eval hleft
    exact ⟨_, .boolean (List.getElem?_eq_getElem (hlength ▸ hi))⟩

lemma eval_not (hleft : left.eval frame = .ok v) (p : Int) :
    (unary .not left p).eval frame = .ok (v.negation frame.length) := by
  simp only [eval, hleft, bind, Except.bind]
  rfl

variable (hleft : left.eval frame = .ok v) (hright : right.eval frame = .ok w)

include hleft hright

lemma eval_logical {op : BinaryOp} {f : Bool → Bool → Bool} (hop : op.logical? = some f) (p : Int) :
    (binary op left right p).eval frame = .ok (.logical frame.length f v w) := by
  simp only [eval, hleft, hright, evalBinary, hop, bind, Except.bind]

lemma eval_comparison {op : BinaryOp} {f : Float → Float → Bool} (hop : op.comparison? = some f)
    (p : Int) : (binary op left right p).eval frame = .ok (.comparison frame.length f v w) := by
  simp only [eval, hleft, hright, bind, Except.bind]
  cases op <;> simp only [BinaryOp.comparison?, Option.some.injEq, reduceCtorEq] at hop <;>
    subst hop <;> rfl

lemma eval_not_logical {op dual : BinaryOp} {f g : Bool → Bool → Bool} (hop : op.logical? = some f)
    (hdual : dual.logical? = some g) (h : ∀ a b, (!f a b) = g (!a) (!b)) :
    ∃ value, ∀ p q r s t,
      (unary .not (binary op left right p) q).eval frame = .ok value ∧
      (binary dual (unary .not left r) (unary .not right s) t).eval frame = .ok value := by
  refine ⟨_, fun p q r s t => ⟨eval_not (eval_logical hleft hright hop p) q, ?_⟩⟩
  rw [eval_logical (eval_not hleft r) (eval_not hright s) hdual, Value.negation_logical h]

/-- Conditions obey the laws of two-valued logic, whatever kinds of values they are made of: the
negation of a conjunction is the disjunction of the negations and the other way round, and at every
bar the comparisons of two values say that a number is missing or how the numbers lie. -/
theorem conditions_twoValued :
    (∃ value, ∀ p q r s t,
      (unary .not (binary .and left right p) q).eval frame = .ok value ∧
      (binary .or (unary .not left r) (unary .not right s) t).eval frame = .ok value) ∧
    (∃ value, ∀ p q r s t,
      (unary .not (binary .or left right p) q).eval frame = .ok value ∧
      (binary .and (unary .not left r) (unary .not right s) t).eval frame = .ok value) ∧
    ∃ outcome : BinaryOp → Value,
      (∀ op ∈ BinaryOp.comparisons, ∀ p, (binary op left right p).eval frame = .ok (outcome op)) ∧
      ∀ i < frame.length, ∃ x y holds, (v.toNumeric frame.length)[i]? = some x ∧
        (w.toNumeric frame.length)[i]? = some y ∧
        (∀ op ∈ BinaryOp.comparisons, (outcome op).AtBar i (.truth (holds op))) ∧
        TwoValued x y holds := by
  have hrelation : ∀ op ∈ BinaryOp.comparisons, ∃ f, op.comparison? = some f := by
    simp [BinaryOp.comparisons, BinaryOp.comparison?]
  refine ⟨eval_not_logical hleft hright rfl rfl Bool.not_and,
    eval_not_logical hleft hright rfl rfl Bool.not_or,
    fun op => .comparison frame.length (op.comparison?.getD fun _ _ => false) v w,
    fun op hop p => ?_, fun i hi => ?_⟩
  · obtain ⟨f, hf⟩ := hrelation op hop
    simp only [eval_comparison hleft hright hf, hf, Option.getD_some]
  · obtain ⟨s, hs⟩ := exists_atBar_of_eval hleft hi
    obtain ⟨t, ht⟩ := exists_atBar_of_eval hright hi
    refine ⟨_, _, verdict s.toFloat t.toFloat, hs.toNumeric hi, ht.toNumeric hi, fun op hop => ?_,
      twoValued_verdict ..⟩
    obtain ⟨f, hf⟩ := hrelation op hop
    have hentry := hs.comparison hi ht f
    simpa [verdict, hf] using hentry

omit hleft hright in
/-- The average of two days beside a number: on the first day the average is missing, so that its
negation is true, and is not even different from the number. -/
theorem conditions_twoValued_average :
    let average : Expr := .call "MA" [.field "C" 3, .literal 2.0 6] 0
    let constant : Expr := .literal 3.0 13
    let frame : Frame := [⟨2, 2, 2, 2, 10⟩, ⟨4, 4, 4, 4, 10⟩]
    average.eval frame = .ok (.numeric [Decimal.nan, 3]) ∧
    constant.eval frame = .ok (.scalar (.number 3)) ∧
    (binary .or (unary .not average 0) (unary .not constant 0) 0).eval frame =
      .ok (.boolean [true, false]) ∧
    ∃ different, (binary .ne average constant 10).eval frame = .ok different ∧
      different.AtBar 0 (.truth false) := by
  intro average constant frame
  have haverage : average.eval frame = .ok (.numeric [Decimal.nan, 3]) := by decide +kernel
  have hconstant : constant.eval frame = .ok (.scalar (.number 3)) := by decide +kernel
  have hnegated : (unary .not (binary .and average constant 0) 0).eval frame =
      .ok (.boolean [true, false]) := by decide +kernel
  obtain ⟨⟨value, hdual⟩, -, outcome, houtcome, hbars⟩ :=
    conditions_twoValued haverage hconstant
  obtain ⟨hvalue, hdisjunction⟩ := hdual 0 0 0 0 0
  cases hnegated.symm.trans hvalue
  obtain ⟨x, y, holds, hx, -, hentries, htwo⟩ := hbars 0 (by decide)
  cases hx
  have hfalse : holds .ne = false := by
    cases htwo with
    | missing _ hnone => exact hnone .ne (by decide)
    | numbers hnumber => exact absurd hnumber (by decide +kernel)
  exact ⟨haverage, hconstant, hdisjunction, _, houtcome .ne (by decide) 10,
    hfalse ▸ hentries .ne (by decide)⟩

end Expr

end MarketFormula
