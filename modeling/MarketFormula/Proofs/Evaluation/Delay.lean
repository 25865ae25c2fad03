import MarketFormula.Proofs.Evaluation.LongWindow
import MarketFormula.Proofs.Evaluation.Lookback
import MarketFormula.Proofs.Evaluation.Windowed
import MarketFormula.Proofs.Indicator.Shift

/-!
# Delays commute with the language

A delayed expression has the value of the expression some bars ago, and none at the first bars.
-/
namespace MarketFormula

lemma Decimal.natural?_ofNat {n : Nat} (hne : n ≠ 0) (hn : n < 2 ^ 53) :
    natural? (Float.ofNat n) = some n := by
  change natural? (Float.ofScientific n false 0) = some n
  unfold Float.ofScientific
  rw [dif_pos ⟨hn, by decide⟩]
  exact natural?_small hne hn

section Operators

variable {op : BinaryOp} {f : Arithmetic} (hop : op.arithmetic? = some f)

include hop

lemma onScalars_nan : f.onScalars Decimal.nan Decimal.nan = Decimal.nan := by
  cases op <;> simp only [BinaryOp.arithmetic?, Option.some.injEq, reduceCtorEq] at hop <;>
    subst hop <;> decide +kernel

lemma Expr.evalBinary_arithmetic (n : Nat) (position : Int) (x y : Value) :
    evalBinary n op position x y = .ok (.arithmetic n f x y) := by
  cases op <;> simp only [BinaryOp.arithmetic?, Option.some.injEq, reduceCtorEq] at hop <;>
    subst hop <;> rfl

lemma Value.toNumeric_arithmetic (n : Nat) (x y : Value) : (arithmetic n f x y).toNumeric n =
    List.zipWith f.onScalars (x.toNumeric n) (y.toNumeric n) := by
  cases x <;> cases y
  case scalar.scalar a b =>
    change List.replicate n (f.onScalars a.toFloat b.toFloat) = List.zipWith f.onScalars
      (List.replicate n a.toFloat) (List.replicate n b.toFloat)
    rw [List.zipWith_replicate']
  all_goals exact onColumns_eq_zipWith hop _ _

end Operators

lemma Value.toNumeric_opposite (n : Nat) (x : Value) :
    (x.opposite n).toNumeric n = (x.toNumeric n).map (- ·) := by
  cases x with
  | scalar a =>
    change List.replicate n (-a.toFloat) = (List.replicate n a.toFloat).map (- ·)
    rw [List.map_replicate]
  | _ => rfl

lemma Expr.eval_neg {frame : Frame} {x : Expr} {v : Value} (hx : x.eval frame = .ok v)
    (position : Int) :
    (Expr.unary .neg x position).eval frame = .ok (v.opposite frame.length) := by
  simp only [Expr.eval, hx, bind, Except.bind]
  rfl

def Windowed.call (function : Windowed) (x : Expr) (n : Nat) (place : Int × Int) : Expr :=
  .call (Indicator.windowed function).name [x, .literal (Float.ofNat n) place.2] place.1

section Calls

variable {frame : Frame} {x : Expr} {v : Value} {n : Nat} (hx : x.eval frame = .ok v) (hpos : 0 < n)
  (hn : n < 2 ^ 53)

include hx hpos hn

lemma Windowed.eval_call {function : Windowed} {column : List Float}
    (hcolumn : function.values n (v.toNumeric frame.length) = .ok column) (place : Int × Int) :
    (function.call x n place).eval frame = .ok (.numeric column) := by
  obtain ⟨k, rfl⟩ : ∃ k, n = k + 1 := ⟨n - 1, by omega⟩
  have hwindow : function.IsWindow frame (.literal (Float.ofNat (k + 1)) place.2) (k + 1) := by
    refine ⟨_, rfl, ?_⟩
    simp only [Value.window, Decimal.natural?_ofNat (Nat.succ_ne_zero k) hn]
  exact hwindow.eval_call hx hcolumn place.1

lemma Windowed.eval_ref (place : Int × Int) : (ref.call x n place).eval frame =
    .ok (.numeric (Indicator.delayed n (v.toNumeric frame.length))) :=
  eval_call hx hpos hn rfl place

end Calls

/-- Two expressions have the same column as their value. -/
def Expr.SameColumn (frame : Frame) (e e' : Expr) : Prop :=
  ∃ column, e.eval frame = .ok (.numeric column) ∧ e'.eval frame = .ok (.numeric column)

section Delay

open Windowed

variable {frame : Frame} {x left right : Expr} {v l r : Value} {a b n : Nat} (ha : 0 < a)
  (ha' : a < 2 ^ 53)

include ha ha'

lemma sameColumn_ref_ref (hx : x.eval frame = .ok v) (hb : 0 < b) (hab : a + b < 2 ^ 53)
    (p q s : Int × Int) :
    Expr.SameColumn frame (ref.call (ref.call x a p) b q) (ref.call x (a + b) s) := by
  have htwice := eval_ref (eval_ref hx ha ha' p) hb (by omega) q
  refine ⟨_, htwice, ?_⟩
  rw [eval_ref hx (by omega) hab s, ← Indicator.delayed_delayed]
  rfl

lemma sameColumn_ref_binary {op : BinaryOp} {f : Arithmetic} (hop : op.arithmetic? = some f)
    (hleft : left.eval frame = .ok l) (hright : right.eval frame = .ok r) (p q : Int)
    (s t u : Int × Int) :
    Expr.SameColumn frame (ref.call (.binary op left right p) a s)
      (.binary op (ref.call left a t) (ref.call right a u) q) := by
  have hinside : (Expr.binary op left right p).eval frame =
      .ok (.arithmetic frame.length f l r) := by
    simp only [Expr.eval, hleft, hright, bind, Except.bind]
    exact Expr.evalBinary_arithmetic hop ..
  have houtside : (Expr.binary op (ref.call left a t) (ref.call right a u) q).eval frame =
      .ok (.numeric (f.onColumns (Indicator.delayed a (l.toNumeric frame.length))
        (Indicator.delayed a (r.toNumeric frame.length)))) := by
    simp only [Expr.eval, eval_ref hleft ha ha', eval_ref hright ha ha', bind, Except.bind]
    exact Expr.evalBinary_arithmetic hop ..
  have hlength : (l.toNumeric frame.length).length = (r.toNumeric frame.length).length := by
    rw [Expr.length_toNumeric_of_eval hleft, Expr.length_toNumeric_of_eval hright]
  refine ⟨_, eval_ref hinside ha ha' s, ?_⟩
  rw [houtside, Value.toNumeric_arithmetic hop, onColumns_eq_zipWith hop,
    Indicator.zipWith_delayed (onScalars_nan hop) a hlength]

lemma sameColumn_ref_neg (hx : x.eval frame = .ok v) (p q : Int) (s t : Int × Int) :
    Expr.SameColumn frame (ref.call (.unary .neg x p) a s)
      (.unary .neg (ref.call x a t) q) := by
  have hinside := Expr.eval_neg hx p
  have houtside := Expr.eval_neg (eval_ref hx ha ha' t) q
  have hnan : -Decimal.nan = Decimal.nan := by decide +kernel
  refine ⟨_, eval_ref hinside ha ha' s, ?_⟩
  rw [houtside, Value.toNumeric_opposite, ← Indicator.map_delayed hnan]
  rfl

lemma sameColumn_ref_windowed {function : Windowed}
    (hfunction : function = ma ∨ function = hhv ∨ function = llv) (hx : x.eval frame = .ok v)
    (hpos : 0 < n) (hn : n < 2 ^ 53) (p q s t : Int × Int) :
    Expr.SameColumn frame (ref.call (function.call x n p) a q)
      (function.call (ref.call x a s) n t) := by
  obtain ⟨column, hcolumn⟩ : ∃ column,
      function.values n (v.toNumeric frame.length) = .ok column := by
    obtain rfl | rfl | rfl := hfunction <;> exact ⟨_, rfl⟩
  have hdelayed := values_delayed hfunction hpos a (v.toNumeric frame.length)
  rw [hcolumn] at hdelayed
  exact ⟨_, eval_ref (eval_call hx hpos hn hcolumn p) ha ha' q,
    eval_call (eval_ref hx ha ha' s) hpos hn hdelayed t⟩

end Delay

namespace Expr

open Windowed

/-- Delays add up, and move through arithmetic, averages and extremes, wherever the calls stand. -/
theorem sameColumn_delayed {frame : Frame} {x left right : Expr} {v l r : Value} {a b n : Nat}
    (hx : x.eval frame = .ok v) (hleft : left.eval frame = .ok l)
    (hright : right.eval frame = .ok r) (ha : 0 < a) (hb : 0 < b) (hab : a + b < 2 ^ 53)
    (hpos : 0 < n) (hn : n < 2 ^ 53) :
    (∀ p q s, SameColumn frame (ref.call (ref.call x a p) b q) (ref.call x (a + b) s)) ∧
    (∀ op ∈ [BinaryOp.add, .sub, .mul, .div], ∀ p q s t u,
      SameColumn frame (ref.call (.binary op left right p) a s)
        (.binary op (ref.call left a t) (ref.call right a u) q)) ∧
    (∀ p q s t, SameColumn frame (ref.call (.unary .neg x p) a s)
      (.unary .neg (ref.call x a t) q)) ∧
    (∀ function ∈ [ma, hhv, llv], ∀ p q s t,
      SameColumn frame (ref.call (function.call x n p) a q)
        (function.call (ref.call x a s) n t)) := by
  have ha' : a < 2 ^ 53 := by omega
  refine ⟨sameColumn_ref_ref ha ha' hx hb hab, ?_, sameColumn_ref_neg ha ha' hx, ?_⟩
  · intro op hop
    obtain ⟨f, hf⟩ : ∃ f, op.arithmetic? = some f := by
      simp only [List.mem_cons, List.not_mem_nil, or_false] at hop
      obtain rfl | rfl | rfl | rfl := hop <;> exact ⟨_, rfl⟩
    exact sameColumn_ref_binary ha ha' hf hleft hright
  · intro function hfunction
    have hcases : function = ma ∨ function = hhv ∨ function = llv := by simpa using hfunction
    exact sameColumn_ref_windowed ha ha' hcases hx hpos hn

theorem sameColumn_delayed_average :
    SameColumn [⟨1, 1, 1, 1, 10⟩, ⟨2, 2, 2, 2, 10⟩, ⟨4, 4, 4, 4, 10⟩]
      (ref.call (ma.call (.field "C" 7) 2 (4, 10)) 1 (0, 14))
      (ma.call (ref.call (.field "C" 7) 1 (3, 10)) 2 (0, 14)) := by
  have hclose : (field "C" 7).eval [⟨1, 1, 1, 1, 10⟩, ⟨2, 2, 2, 2, 10⟩, ⟨4, 4, 4, 4, 10⟩] =
      .ok (.numeric [1, 2, 4]) := rfl
  have hdelayed := sameColumn_delayed (a := 1) (b := 1) (n := 2) hclose hclose hclose (by decide)
    (by decide) (by decide) (by decide) (by decide)
  exact hdelayed.2.2.2 ma (by decide) (4, 10) (0, 14) (3, 10) (0, 14)

end Expr

end MarketFormula
