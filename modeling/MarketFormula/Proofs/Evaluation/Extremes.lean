import MarketFormula.Proofs.Evaluation.Delay
import MarketFormula.Proofs.Indicator.Extreme

/-!
# Highest and lowest values

The highest value of a window is one of its finite entries that no other exceeds. The lowest value
is its mirror image, signs of zeros included.
-/
namespace MarketFormula

namespace Windowed

open Indicator Decimal

/-- Highest and lowest values are exact over the finite entries of a window, which is cut at the
first bar. They enclose the entry at the bar, and longer windows make them differ more. -/
theorem extremes_exact {n : Nat} (hn : 1 ≤ n) (xs : List Float) :
    hhv.Gives n xs (highest n xs) ∧ llv.Gives n xs (lowest n xs) ∧
    ∀ i x, xs[i]? = some x →
      ∃ high low, (highest n xs)[i]? = some high ∧ (lowest n xs)[i]? = some low ∧
        IsExtreme (fun y m => m < y) (counted n i xs) high ∧
        IsExtreme (fun y m => y < m) (counted n i xs) low ∧
        (x.isFinite = true → low ≤ x ∧ x ≤ high) ∧
        ∀ m, n ≤ m →
          ∃ high' low', (highest m xs)[i]? = some high' ∧ (lowest m xs)[i]? = some low' ∧
            (high.isNaN = false → high ≤ high') ∧ (low.isNaN = false → low' ≤ low) := by
  refine ⟨gives_of_values hn rfl, gives_of_values hn rfl, fun i x hx => ?_⟩
  obtain ⟨hi, -⟩ := List.getElem?_eq_some_iff.mp hx
  obtain ⟨high, hhigh, hhighest⟩ := exists_highest hi n
  obtain ⟨low, hlow, hlowest⟩ := exists_lowest hi n
  refine ⟨high, low, hhigh, hlow, hhighest, hlowest, fun hfinite => ?_, fun m hm => ?_⟩
  · have hmem := mem_counted hi hn hx hfinite
    have hhighfinite := isFinite_of_mem_counted (hhighest.mem (List.ne_nil_of_mem hmem))
    have hlowfinite := isFinite_of_mem_counted (hlowest.mem (List.ne_nil_of_mem hmem))
    exact ⟨(not_lt_iff_le hfinite hlowfinite).mp (hlowest.not_exceeds hmem),
      (not_lt_iff_le hhighfinite hfinite).mp (hhighest.not_exceeds hmem)⟩
  · obtain ⟨high', hhigh', hhighest'⟩ := exists_highest hi m
    obtain ⟨low', hlow', hlowest'⟩ := exists_lowest hi m
    have hsubset := counted_subset hm i xs
    refine ⟨high', low', hhigh', hlow', fun hnumber => ?_, fun hnumber => ?_⟩
    · obtain ⟨hmem, hmem', hbelow⟩ := hhighest.of_subset hhighest' hsubset hnumber
      exact (not_lt_iff_le (isFinite_of_mem_counted hmem') (isFinite_of_mem_counted hmem)).mp hbelow
    · obtain ⟨hmem, hmem', habove⟩ := hlowest.of_subset hlowest' hsubset hnumber
      exact (not_lt_iff_le (isFinite_of_mem_counted hmem) (isFinite_of_mem_counted hmem')).mp habove

theorem extremes_exact_zeros :
    ∃ ys high, hhv.compute 3 [3.0, nan, 0.0, -0.0] = .ok ys ∧ ys[3]? = some high ∧
      IsExtreme (fun y m => m < y) [0.0, -0.0] high := by
  obtain ⟨hhighest, -, hbars⟩ := extremes_exact (n := 3) (by decide) [3.0, nan, 0.0, -0.0]
  obtain ⟨high, low, hhigh, -, hexact, -⟩ := hbars 3 (-0.0) rfl
  have hcounted : counted 3 3 [3.0, nan, 0.0, -0.0] = [0.0, -0.0] := by decide +kernel
  rw [hcounted] at hexact
  exact ⟨_, high, hhighest.compute fun _ => by decide, hhigh, hexact⟩

theorem not_every_window_maximal :
    ¬ ∀ (n : Nat) (xs : List Float), 1 ≤ n → ∃ ys, hhv.compute n xs = .ok ys ∧
      ∀ i < xs.length, ∃ high, ys[i]? = some high ∧
        IsExtreme (fun y m => m < y) (counted n i xs) high := by
  intro hall
  obtain ⟨ys, hcompute, -⟩ := hall 100000000000000000000 [1, 2, 3] (by decide)
  have hrefused : hhv.compute 100000000000000000000 [1, 2, 3] = .error .windowTooLarge := rfl
  cases hrefused.symm.trans hcompute

end Windowed

namespace Expr

open Windowed Indicator

section Extremes

variable {frame : Frame} {x : Expr} {v : Value} (hx : x.eval frame = .ok v)

include hx

lemma sameColumn_twice {function : Windowed} (hfunction : function = hhv ∨ function = llv)
    {a b : Nat} (ha : 0 < a) (hb : 0 < b) (hab : a + b - 1 < 2 ^ 53) (p q s : Int × Int) :
    SameColumn frame (function.call (function.call x a p) b q)
      (function.call x (a + b - 1) s) := by
  obtain ⟨column, inner, hcolumn, hinner, houter⟩ : ∃ column inner,
      function.values (a + b - 1) (v.toNumeric frame.length) = .ok column ∧
      function.values a (v.toNumeric frame.length) = .ok inner ∧
      function.values b inner = .ok column := by
    obtain rfl | rfl := hfunction
    · exact ⟨_, _, rfl, rfl, congrArg Except.ok (highest_highest ha hb _)⟩
    · exact ⟨_, _, rfl, rfl, congrArg Except.ok (lowest_lowest ha hb _)⟩
  have hnested := eval_call hx ha (by omega) hinner p
  exact ⟨column, eval_call hnested hb (by omega) houter q, eval_call hx (by omega) hab hcolumn s⟩

lemma sameColumn_mirrored {n : Nat} (hn : 0 < n) (hn' : n < 2 ^ 53) (p q : Int) (s t : Int × Int) :
    SameColumn frame (llv.call x n s)
      (.unary .neg (hhv.call (.unary .neg x p) n t) q) := by
  have hopposite : hhv.values n ((v.opposite frame.length).toNumeric frame.length) =
      .ok (highest n ((v.toNumeric frame.length).map (- ·))) := by
    rw [Value.toNumeric_opposite]
    rfl
  refine ⟨_, eval_call hx hn hn' rfl s, ?_⟩
  rw [eval_neg (eval_call (eval_neg hx p) hn hn' hopposite t) q, lowest_eq_neg_highest]
  rfl

end Extremes

/-- Highest values of highest values are those of a longer window, and so are lowest ones; lowest
values are the opposites of the highest values of opposites. -/
theorem sameColumn_extremes {frame : Frame} {x : Expr} {v : Value} {a b n : Nat}
    (hx : x.eval frame = .ok v) (ha : 0 < a) (hb : 0 < b) (hn : 0 < n) (ha' : a < 2 ^ 52)
    (hb' : b < 2 ^ 52) (hn' : n < 2 ^ 52) :
    (∀ function ∈ [hhv, llv], ∀ p q s,
      SameColumn frame (function.call (function.call x a p) b q)
        (function.call x (a + b - 1) s)) ∧
    ∀ p q s t, SameColumn frame (llv.call x n s)
      (.unary .neg (hhv.call (.unary .neg x p) n t) q) := by
  refine ⟨fun function hfunction => ?_, sameColumn_mirrored hx hn (by omega)⟩
  have hcases : function = hhv ∨ function = llv := by simpa using hfunction
  exact sameColumn_twice hx hcases ha hb (by omega)

theorem sameColumn_extremes_closing :
    SameColumn [⟨1, 1, 1, 1, 10⟩, ⟨2, 2, 2, 2, 10⟩, ⟨4, 4, 4, 4, 10⟩]
      (hhv.call (hhv.call (.field "C" 8) 2 (4, 11)) 2 (0, 15))
      (hhv.call (.field "C" 4) 3 (0, 7)) := by
  have hclose : (field "C" 8).eval [⟨1, 1, 1, 1, 10⟩, ⟨2, 2, 2, 2, 10⟩, ⟨4, 4, 4, 4, 10⟩] =
      .ok (.numeric [1, 2, 4]) := rfl
  have hextremes := sameColumn_extremes (a := 2) (b := 2) (n := 2) hclose (by decide) (by decide)
    (by decide) (by decide) (by decide) (by decide)
  exact hextremes.1 hhv (by decide) (4, 11) (0, 15) (0, 7)

end Expr

end MarketFormula
