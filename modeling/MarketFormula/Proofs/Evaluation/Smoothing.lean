import MarketFormula.Proofs.Evaluation.Windowed
import MarketFormula.Proofs.Indicator.Smoothing

/-!
# Exponential averages of columns with missing values

An exponential average is missing from the first missing entry on and nowhere before, whatever the
window is and however large the entries are.
-/
namespace MarketFormula

open Indicator Decimal

/-- A column whose first entry, if there is one, is missing. -/
def StartsMissing (xs : List Float) : Prop :=
  ∀ x ∈ xs.head?, x.isNaN = true

lemma any_isNaN_take (xs : List Float) (i : Nat) : (xs.take (i + 1)).any Float.isNaN = true ↔
    ∃ j x, j ≤ i ∧ xs[j]? = some x ∧ x.isNaN = true := by
  rw [List.any_eq_true]
  constructor
  · rintro ⟨x, hx, hnan⟩
    obtain ⟨j, hj⟩ := List.mem_iff_getElem?.mp hx
    rw [List.getElem?_take] at hj
    split at hj
    · next hle => exact ⟨j, x, Nat.le_of_lt_succ hle, hj, hnan⟩
    · cases hj
  · rintro ⟨j, x, hj, hx, hnan⟩
    refine ⟨x, List.mem_iff_getElem?.mpr ⟨j, ?_⟩, hnan⟩
    rw [List.getElem?_take_of_lt (Nat.lt_succ_of_le hj), hx]

namespace Windowed

variable {function : Windowed} {n : Nat}

lemma values_ema {weight : Float} (h : smoothing n = .ok weight) (xs : List Float) :
    ema.values n xs = .ok (exponentialAverage weight xs) := by
  simp only [values, h]
  rfl

lemma startsMissing_of_values (h : function = ma ∧ 2 ≤ n ∨ function = ref ∧ 1 ≤ n)
    {xs ys : List Float} (hvalues : function.values n xs = .ok ys) : StartsMissing ys := by
  have hshort : (xs.take 1).length ≤ 1 := List.length_take_le 1 xs
  have hfirst : ys.take 1 = List.replicate (xs.take 1).length nan := by
    obtain ⟨rfl, hn⟩ | ⟨rfl, hn⟩ := h <;> cases hvalues
    · rw [movingAverage_take, movingAverage_of_length_lt (by omega)]
    · rw [delayed_take, delayed_of_length_le (by omega)]
  cases ys with
  | nil => exact fun x hx => nomatch hx
  | cons y ys =>
    rintro x ⟨rfl⟩
    have hmem : y ∈ List.replicate (xs.take 1).length nan := hfirst ▸ List.mem_singleton_self y
    rw [List.eq_of_mem_replicate hmem]
    decide +kernel

/-- Exponential averages are missing exactly from the first missing entry on, and so everywhere if
that is the entry at the first bar, as it is for averages and delays. -/
theorem ema_isNaN_iff (hpos : 1 ≤ n) (hn : n ≤ maxInteger) :
    (∀ xs : List Float, (∀ x ∈ xs, x.isInf = false) → ∃ ys, ema.Gives n xs ys ∧
      ys.length = xs.length ∧ ∀ (i : Nat) (y : Float), ys[i]? = some y →
        (y.isNaN = true ↔ ∃ j x, j ≤ i ∧ xs[j]? = some x ∧ x.isNaN = true)) ∧
    (∀ frame x v argument position, x.eval frame = .ok v →
      StartsMissing (v.toNumeric frame.length) → ema.IsWindow frame argument n →
      (Expr.call (windowed ema).name [x, argument] position).eval frame =
        .ok (.numeric (List.replicate frame.length nan))) ∧
    ∀ frame x v function m inner argument (p q : Int), x.eval frame = .ok v →
      (function = ma ∧ 2 ≤ m ∨ function = ref ∧ 1 ≤ m) → function.IsWindow frame inner m →
      ema.IsWindow frame argument n →
      (Expr.call (windowed ema).name
        [.call (windowed function).name [x, inner] p, argument] q).eval frame =
          .ok (.numeric (List.replicate frame.length nan)) := by
  obtain ⟨weight, hsmoothing, hweight⟩ := exists_isWeight hpos hn
  have hcall : ∀ frame x v argument position, Expr.eval frame x = .ok v →
      StartsMissing (v.toNumeric frame.length) → ema.IsWindow frame argument n →
      (Expr.call (windowed ema).name [x, argument] position).eval frame =
        .ok (.numeric (List.replicate frame.length nan)) := by
    intro frame x v argument position hx hmissing hwindow
    rw [hwindow.eval_call hx (values_ema hsmoothing _), exponentialAverage_of_head hmissing,
      Expr.length_toNumeric_of_eval hx]
  refine ⟨fun xs hxs => ?_, hcall, fun frame x v function m inner argument p q hx hm hinner => ?_⟩
  · refine ⟨_, gives_of_values hpos (values_ema hsmoothing xs), length_exponentialAverage .., ?_⟩
    intro i y hy
    rw [hweight.isNaN_exponentialAverage hxs hy, any_isNaN_take]
  · obtain ⟨column, hcolumn⟩ : ∃ column,
        function.values m (v.toNumeric frame.length) = .ok column := by
      obtain ⟨rfl, -⟩ | ⟨rfl, -⟩ := hm <;> exact ⟨_, rfl⟩
    exact hcall frame _ (.numeric column) argument q (hinner.eval_call hx hcolumn p)
      (startsMissing_of_values hm hcolumn)

theorem ema_isNaN_iff_gap :
    (∃ ys, ema.compute 3 [1.0, nan, 2.0] = .ok ys ∧
      (∀ y, ys[0]? = some y → y.isNaN = false) ∧ ∀ y, ys[2]? = some y → y.isNaN = true) ∧
    (Expr.call "EMA" [.call "MA" [.field "C" 7, .literal 2.0 10] 4, .literal 3.0 14] 0).eval
      [⟨1, 1, 1, 1, 10⟩, ⟨2, 2, 2, 2, 10⟩] = .ok (.numeric [nan, nan]) := by
  have hwindow : ∀ (function : Windowed) (frame : Frame) (position : Int),
      function.IsWindow frame (.literal 2.0 position) 2 ∧
        function.IsWindow frame (.literal 3.0 position) 3 :=
    fun function frame position => ⟨⟨_, rfl, rfl⟩, ⟨_, rfl, rfl⟩⟩
  obtain ⟨hcolumn, -, hcall⟩ := ema_isNaN_iff (n := 3) (by decide) (by decide +kernel)
  obtain ⟨ys, hgives, -, hmissing⟩ := hcolumn [1.0, nan, 2.0] (by decide +kernel)
  refine ⟨⟨ys, hgives.compute (fun h => nomatch h), fun y hy => ?_, fun y hy => ?_⟩, ?_⟩
  · rw [Bool.eq_false_iff, Ne, hmissing 0 y hy]
    rintro ⟨j, x, hj, hx, hnan⟩
    obtain rfl : j = 0 := by omega
    cases hx
    exact absurd hnan (by decide +kernel)
  · exact (hmissing 2 y hy).mpr ⟨1, nan, by decide, rfl, by decide +kernel⟩
  · exact hcall _ _ _ ma 2 _ _ 4 0 rfl (.inl ⟨rfl, le_rfl⟩) (hwindow ma _ 10).1 (hwindow ema _ 14).2

end Windowed

end MarketFormula
