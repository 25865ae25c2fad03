import Mathlib.Order.Nat
import MarketFormula.Evaluation.Eval

/-!
# Operators on columns are the operators on scalars, bar by bar

Columns compute first and discard results afterwards; scalars decide first. Both give the same
number or truth value at every bar, missing numbers and divisions by zero included.
-/
namespace MarketFormula

theorem truths_eq_map (xs : List Float) : truths xs = xs.map isTrue := by
  induction xs with
  | nil => rfl
  | cons x rest ih =>
    have hhead : Bool.and (x != 0.0) (!x.isNaN) = isTrue x := by
      unfold isTrue
      cases x.isNaN <;> simp
    simp only [truths, present, List.map_cons, List.zipWith_cons_cons] at ih ⊢
    rw [hhead, ih]

namespace Arithmetic

lemma division_onColumns (xs ys : List Float) :
    division.onColumns xs ys = List.zipWith division.onScalars xs ys := by
  induction xs generalizing ys with
  | nil => cases ys <;> rfl
  | cons x xs ih =>
    cases ys with
    | nil => rfl
    | cons y ys =>
      have hhead : (if y != 0.0 then x / y else Decimal.nan) = division.onScalars x y := by
        change _ = if y == 0.0 then Decimal.nan else x / y
        unfold bne
        cases y == 0.0 <;> simp
      have htail : List.zipWith (fun quotient y => if y != 0.0 then quotient else Decimal.nan)
          (List.zipWith (· / ·) xs ys) ys = List.zipWith division.onScalars xs ys := ih ys
      rw [List.zipWith_cons_cons, ← hhead, ← htail]
      rfl

end Arithmetic

theorem onColumns_eq_zipWith {op : BinaryOp} {f : Arithmetic} (h : op.arithmetic? = some f)
    (xs ys : List Float) : f.onColumns xs ys = List.zipWith f.onScalars xs ys := by
  cases op <;> simp only [BinaryOp.arithmetic?, Option.some.injEq, reduceCtorEq] at h <;> subst h
  case div => exact Arithmetic.division_onColumns xs ys
  all_goals rfl

theorem compareColumns_eq_zipWith (f : Float → Float → Bool) (xs ys : List Float) :
    compareColumns f xs ys = List.zipWith (compareScalars f) xs ys := by
  induction xs generalizing ys with
  | nil => cases ys <;> rfl
  | cons x xs ih =>
    cases ys with
    | nil => rfl
    | cons y ys =>
      have hhead : ((f x y).and (!x.isNaN)).and (!y.isNaN) = compareScalars f x y := by
        unfold compareScalars
        cases x.isNaN <;> cases y.isNaN <;> simp
      simp only [compareColumns, present, List.map_cons, List.zipWith_cons_cons] at ih ⊢
      rw [hhead, ih]

end MarketFormula
