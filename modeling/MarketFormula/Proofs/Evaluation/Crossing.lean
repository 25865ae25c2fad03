import MarketFormula.Proofs.Decimal.Order
import MarketFormula.Proofs.Evaluation.Delay

/-!
# Crossings in terms of the other operators

A column crosses another where it is above and was not above one bar ago. Comparisons, a delay and
a conjunction say the same.
-/
namespace MarketFormula

namespace Indicator

def above (xs ys : List Float) : List Bool :=
  List.zipWith (fun x y => decide (y < x)) xs ys

def atMost (xs ys : List Float) : List Bool :=
  List.zipWith (fun x y => decide (x ≤ y)) xs ys

variable (xs ys : List Float)

lemma crossingFrom_eq_zipWith (previous : Option (Float × Float)) :
    crossingFrom previous (xs.zip ys) = List.zipWith Bool.and (above xs ys)
      ((previous.any fun before => decide (before.1 ≤ before.2)) :: atMost xs ys) := by
  induction xs generalizing ys previous with
  | nil => rfl
  | cons x xs ih =>
    cases ys with
    | nil => rfl
    | cons y ys =>
      rw [List.zip_cons_cons, crossingFrom, ih]
      rfl

lemma crossing_eq_zipWith :
    crossing xs ys = List.zipWith Bool.and (above xs ys) (false :: atMost xs ys) :=
  crossingFrom_eq_zipWith xs ys none

variable {xs ys}

lemma above_of_crossing {i : Nat} (h : (crossing xs ys)[i]? = some true) :
    (above xs ys)[i]? = some true := by
  rw [crossing_eq_zipWith, List.getElem?_zipWith_eq_some] at h
  obtain ⟨b, c, hb, -, hboth⟩ := h
  rw [hb, (Bool.and_eq_true_iff.mp hboth).1]

lemma atMost_of_crossing {i : Nat} (h : (crossing xs ys)[i]? = some true) :
    ∃ j, i = j + 1 ∧ (atMost xs ys)[j]? = some true := by
  rw [crossing_eq_zipWith, List.getElem?_zipWith_eq_some] at h
  obtain ⟨b, c, -, hc, hboth⟩ := h
  rw [(Bool.and_eq_true_iff.mp hboth).2] at hc
  cases i with
  | zero => cases hc
  | succ j => exact ⟨j, rfl, hc⟩

lemma exists_of_above {i : Nat} (h : (above xs ys)[i]? = some true) :
    ∃ x y, xs[i]? = some x ∧ ys[i]? = some y ∧ y < x := by
  rw [above, List.getElem?_zipWith_eq_some] at h
  obtain ⟨x, y, hx, hy, hlt⟩ := h
  exact ⟨x, y, hx, hy, of_decide_eq_true hlt⟩

lemma not_atMost_of_above {i : Nat} (h : (above xs ys)[i]? = some true) :
    (atMost xs ys)[i]? ≠ some true := by
  obtain ⟨x, y, hx, hy, hlt⟩ := exists_of_above h
  rw [atMost, List.getElem?_zipWith, hx, hy]
  intro hle
  exact not_lt_of_ge (Decimal.le_iff.mp (of_decide_eq_true (Option.some.inj hle))).2.2
    (Decimal.lt_iff.mp hlt).2.2

lemma not_above_of_above {i : Nat} (h : (above xs ys)[i]? = some true) :
    (above ys xs)[i]? ≠ some true := by
  obtain ⟨x, y, hx, hy, hlt⟩ := exists_of_above h
  rw [above, List.getElem?_zipWith, hx, hy]
  intro hgt
  exact lt_asymm (Decimal.lt_iff.mp (of_decide_eq_true (Option.some.inj hgt))).2.2
    (Decimal.lt_iff.mp hlt).2.2

/-- Where crossings stand: never at the first bar, nor where the columns cross the other way, nor at
two bars in a row, and between two of them the first column gets back to at most the second. -/
structure Alternates (crossings reversed below : List Bool) : Prop where
  not_first : crossings[0]? ≠ some true
  not_reversed : ∀ i : Nat, crossings[i]? = some true → reversed[i]? ≠ some true
  not_twice : ∀ i : Nat, crossings[i]? = some true → crossings[i + 1]? ≠ some true
  back_between : ∀ i j : Nat, i < j → crossings[i]? = some true → crossings[j]? = some true →
    ∃ k, i < k ∧ k < j ∧ below[k]? = some true

theorem alternates_crossing (xs ys : List Float) :
    Alternates (crossing xs ys) (crossing ys xs) (atMost xs ys) := by
  -- the bar before a crossing is one where the first column is not above
  have hbefore : ∀ i j : Nat, i < j → (crossing xs ys)[i]? = some true →
      (crossing xs ys)[j]? = some true → ∃ k, i < k ∧ k < j ∧ (atMost xs ys)[k]? = some true := by
    intro i j hij hi hj
    obtain ⟨k, rfl, hk⟩ := atMost_of_crossing hj
    have hne : i ≠ k := by
      rintro rfl
      exact not_atMost_of_above (above_of_crossing hi) hk
    exact ⟨k, by omega, by omega, hk⟩
  refine ⟨fun h => ?_, fun i h hreversed => ?_, fun i h htwice => ?_, hbefore⟩
  · obtain ⟨j, hj, -⟩ := atMost_of_crossing h
    omega
  · exact not_above_of_above (above_of_crossing h) (above_of_crossing hreversed)
  · obtain ⟨k, hik, hk, -⟩ := hbefore i (i + 1) (by omega) h htwice
    omega

lemma delayed_one_cons (x : Float) (xs : List Float) :
    delayed 1 (x :: xs) = Decimal.nan :: (x :: xs).take xs.length := by
  rw [delayed, List.length_cons, Nat.add_sub_cancel, Nat.min_eq_left (by omega)]
  rfl

lemma atMost_delayed_one (hlength : xs.length = ys.length) :
    atMost (delayed 1 xs) (delayed 1 ys) = (false :: atMost xs ys).take xs.length := by
  cases xs with
  | nil => rfl
  | cons x xs =>
    cases ys with
    | nil => cases hlength
    | cons y ys =>
      have hnan : decide (Decimal.nan ≤ Decimal.nan) = false := by decide +kernel
      have htail : xs.length = ys.length := Nat.succ.inj hlength
      rw [delayed_one_cons, delayed_one_cons, atMost, List.zipWith_cons_cons, hnan, ← htail,
        ← List.take_zipWith]
      rfl

theorem crossing_eq_zipWith_delayed (hlength : xs.length = ys.length) :
    crossing xs ys =
      List.zipWith Bool.and (above xs ys) (atMost (delayed 1 xs) (delayed 1 ys)) := by
  have habove : (above xs ys).length = xs.length := by
    rw [above, List.length_zipWith, hlength, Nat.min_self]
  have hshort : (crossing xs ys).length ≤ xs.length := by
    rw [length_crossing]
    exact Nat.min_le_left ..
  rw [atMost_delayed_one hlength, ← List.take_of_length_le hshort, crossing_eq_zipWith,
    List.take_zipWith, List.take_of_length_le habove.le]

end Indicator

lemma compareScalars_of_numbers {f : Float → Float → Bool}
    (hf : ∀ x y, f x y = true → x.isNaN = false ∧ y.isNaN = false) : compareScalars f = f := by
  funext x y
  unfold compareScalars
  cases hrelated : f x y with
  | false => rw [ite_self]
  | true =>
    obtain ⟨hx, hy⟩ := hf x y hrelated
    rw [hx, hy]
    rfl

namespace Value

variable (n : Nat) (x y : Value)

lemma toBoolean_comparison (f : Float → Float → Bool) : (comparison n f x y).toBoolean n =
    List.zipWith (compareScalars f) (x.toNumeric n) (y.toNumeric n) := by
  cases x <;> cases y
  case scalar.scalar a b =>
    change List.replicate n (compareScalars f a.toFloat b.toFloat) = List.zipWith
      (compareScalars f) (List.replicate n a.toFloat) (List.replicate n b.toFloat)
    rw [List.zipWith_replicate']
  all_goals exact compareColumns_eq_zipWith f _ _

lemma toBoolean_gt : (comparison n (fun x y => decide (y < x)) x y).toBoolean n =
    Indicator.above (x.toNumeric n) (y.toNumeric n) := by
  rw [toBoolean_comparison, compareScalars_of_numbers fun x y h => ?_]
  · rfl
  · obtain ⟨hy, hx, -⟩ := Decimal.lt_iff.mp (of_decide_eq_true h)
    exact ⟨hx, hy⟩

lemma toBoolean_le : (comparison n (fun x y => decide (x ≤ y)) x y).toBoolean n =
    Indicator.atMost (x.toNumeric n) (y.toNumeric n) := by
  rw [toBoolean_comparison, compareScalars_of_numbers fun x y h => ?_]
  · rfl
  · obtain ⟨hx, hy, -⟩ := Decimal.le_iff.mp (of_decide_eq_true h)
    exact ⟨hx, hy⟩

lemma logical_boolean (f : Bool → Bool → Bool) (bs : List Bool) :
    logical n f x (.boolean bs) = .boolean (List.zipWith f (x.toBoolean n) bs) := by
  cases x <;> rfl

end Value

namespace Expr

open Indicator Windowed

variable {frame : Frame} {left right : Expr} {v w : Value} (hleft : left.eval frame = .ok v)
  (hright : right.eval frame = .ok w)

include hleft hright

lemma eval_crossing (position : Int) : (call cross.name [left, right] position).eval frame =
    .ok (.boolean (crossing (v.toNumeric frame.length) (w.toNumeric frame.length))) :=
  Indicator.eval_call hleft hright

lemma eval_le_ref (p : Int) (q s : Int × Int) :
    (binary .le (ref.call left 1 q) (ref.call right 1 s) p).eval frame =
      .ok (.boolean (atMost (delayed 1 (v.toNumeric frame.length))
        (delayed 1 (w.toNumeric frame.length)))) := by
  -- A delay makes columns of both operands, so their comparison is one as well.
  have hcolumns : ∀ xs ys, (Value.numeric xs).comparison frame.length
      (fun x y => decide (x ≤ y)) (.numeric ys) = .boolean (atMost xs ys) := by
    intro xs ys
    exact congrArg Value.boolean (Value.toBoolean_le frame.length (.numeric xs) (.numeric ys))
  simp only [eval, eval_ref hleft Nat.one_pos (by decide), eval_ref hright Nat.one_pos (by decide),
    bind, Except.bind]
  exact congrArg Except.ok (hcolumns _ _)

lemma eval_gt_and {right' : Expr} {bs : List Bool} (hright' : right'.eval frame = .ok (.boolean bs))
    (p q : Int) : (binary .and (binary .gt left right p) right' q).eval frame =
      .ok (.boolean (List.zipWith Bool.and
        (above (v.toNumeric frame.length) (w.toNumeric frame.length)) bs)) := by
  simp only [eval, hleft, hright, hright', bind, Except.bind]
  refine congrArg Except.ok ((Value.logical_boolean ..).trans ?_)
  rw [Value.toBoolean_gt]

/-- A crossing is a column that says where the first operand is above the second and was at most the
second one bar ago, whatever kind of values the operands are. -/
theorem cross_eq_gt_and_le_ref :
    ∃ crossings reversed below, crossings.length = frame.length ∧
      (∀ position, (call cross.name [left, right] position).eval frame =
        .ok (.boolean crossings)) ∧
      (∀ p q s t r, (binary .and (binary .gt left right p)
        (binary .le (ref.call left 1 q) (ref.call right 1 s) t) r).eval frame =
          .ok (.boolean crossings)) ∧
      (∀ position, (call cross.name [right, left] position).eval frame =
        .ok (.boolean reversed)) ∧
      (∀ p, ∃ value, (binary .le left right p).eval frame = .ok value ∧
        value.toBoolean frame.length = below) ∧
      Alternates crossings reversed below := by
  have hlength := length_toNumeric_of_eval hleft
  have hlength' := length_toNumeric_of_eval hright
  refine ⟨_, _, _, ?_, eval_crossing hleft hright, fun p q s t r => ?_, eval_crossing hright hleft,
    fun p => ⟨_, ?_, Value.toBoolean_le frame.length v w⟩, alternates_crossing _ _⟩
  · rw [length_crossing, hlength, hlength', Nat.min_self]
  · rw [eval_gt_and hleft hright (eval_le_ref hleft hright t q s),
      crossing_eq_zipWith_delayed (hlength.trans hlength'.symm)]
  · simp only [eval, hleft, hright, bind, Except.bind]
    rfl

omit hleft hright in
theorem cross_eq_gt_and_le_ref_constant :
    let close : Expr := .field "C" 1
    let constant : Expr := .literal 2.0 5
    let frame : Frame := [⟨1, 1, 1, 1, 10⟩, ⟨3, 3, 3, 3, 10⟩, ⟨4, 4, 4, 4, 10⟩]
    close.eval frame = .ok (.numeric [1, 3, 4]) ∧
    constant.eval frame = .ok (.scalar (.number 2.0)) ∧
    (binary .and (binary .gt close constant 3)
      (binary .le (ref.call close 1 (9, 16)) (ref.call constant 1 (22, 29)) 19) 7).eval frame =
        .ok (.boolean [false, true, false]) := by
  intro close constant frame
  have hclose : close.eval frame = .ok (.numeric [1, 3, 4]) := rfl
  have hconstant : constant.eval frame = .ok (.scalar (.number 2.0)) := rfl
  have hcall : (call cross.name [close, constant] 0).eval frame =
      .ok (.boolean [false, true, false]) := by decide +kernel
  obtain ⟨crossings, reversed, below, -, hcross, hdefined, -⟩ :=
    cross_eq_gt_and_le_ref hclose hconstant
  cases hcall.symm.trans (hcross 0)
  exact ⟨hclose, hconstant, hdefined ..⟩

end Expr

end MarketFormula
