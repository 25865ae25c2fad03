import MarketFormula.Proofs.Evaluation.Windowed
import MarketFormula.Proofs.Indicator.Running

/-!
# Cut windows

A call cuts the window of an average, a delay or an extreme to one bar more than there are. The cut
is not seen in its values.
-/
namespace MarketFormula.Windowed

open Indicator Decimal

variable {function : Windowed} {n : Nat}

/-- The values over windows that reach back beyond the first bar from every bar. -/
structure Beyond (function : Windowed) (n : Nat) (xs ys : List Float) : Prop where
  average : function = ma → xs.length < n → ys = List.replicate xs.length nan
  delay : function = ref → xs.length ≤ n → ys = List.replicate xs.length nan
  highest : function = hhv → xs.length ≤ n → ys = running (fun best x => decide (x < best)) xs
  lowest : function = llv → xs.length ≤ n → ys = running (fun best x => decide (best < x)) xs

lemma beyond_of_values {xs ys : List Float} (h : function.values n xs = .ok ys) :
    function.Beyond n xs ys := by
  constructor <;> rintro rfl hn <;> cases h
  · exact movingAverage_of_length_lt hn
  · exact delayed_of_length_le hn
  · exact highest_of_length_le hn
  · exact lowest_of_length_le hn

lemma compute_of_isClipped (hclipped : function.isClipped = true) (hpos : 0 < n) (xs : List Float) :
    function.compute n xs =
      if xs ≠ [] ∧ 0x8000000000000000 ≤ n then .error .windowTooLarge else function.values n xs := by
  have hbelow : ¬ (n : Int) < 1 := by omega
  have hlarge : (0x8000000000000000 : Int) ≤ n ↔ 0x8000000000000000 ≤ n := by omega
  rw [compute, if_neg hbelow, Int.toNat_natCast]
  refine if_congr ?_ rfl rfl
  simp [hclipped, hlarge]

lemma IsWindow.le_maxInteger {frame : Frame} {argument : Expr}
    (h : function.IsWindow frame argument n) : n ≤ maxInteger := by
  obtain ⟨y, -, hy⟩ := h
  exact Value.window_le hy

theorem eval_call_uncut (hpos : 1 ≤ n) (xs : List Float) :
    (∀ function : Windowed, function.isClipped = true → ∃ column,
      (∀ frame x v argument position, x.eval frame = .ok v → v.toNumeric frame.length = xs →
        function.IsWindow frame argument n →
        (Expr.call (windowed function).name [x, argument] position).eval frame =
          .ok (.numeric column)) ∧
      (xs.length + 1 < 0x8000000000000000 →
        function.compute (min n (xs.length + 1) : Nat) xs = .ok column) ∧
      function.compute n xs =
        (if xs ≠ [] ∧ 0x8000000000000000 ≤ n then .error .windowTooLarge else .ok column) ∧
      function.Beyond n xs column) ∧
    ∀ frame x v argument position, x.eval frame = .ok v → v.toNumeric frame.length = xs →
      ema.IsWindow frame argument n →
      ∃ span column, Datum.floatOfInt (n + 1) = .ok span ∧
        column = exponentialAverage (2.0 / span) xs ∧ ema.compute n xs = .ok column ∧
        (Expr.call (windowed ema).name [x, argument] position).eval frame =
          .ok (.numeric column) := by
  constructor
  · intro function hclipped
    obtain ⟨column, hcolumn⟩ : ∃ column, function.values n xs = .ok column := by
      cases function with
      | ema => cases hclipped
      | _ => exact ⟨_, rfl⟩
    refine ⟨column, fun frame x v argument position hx hv hwindow => ?_, fun hfits => ?_, ?_,
      beyond_of_values hcolumn⟩
    · exact hwindow.eval_call hx (hv.symm ▸ hcolumn) position
    · rw [compute_natCast (by omega) (fun _ => by omega),
        function.values_clip hclipped n xs.length xs le_rfl, hcolumn]
    · rw [compute_of_isClipped hclipped hpos, hcolumn]
  · intro frame x v argument position hx hv hwindow
    have hspan : Datum.floatOfInt (n + 1) = .ok (Float.ofNat (n + 1)) :=
      Datum.floatOfInt_natCast (Nat.add_le_add_right hwindow.le_maxInteger 1)
    have hcolumn : ema.values n xs = .ok (exponentialAverage (2.0 / Float.ofNat (n + 1)) xs) := by
      rw [values, smoothing, hspan]
      rfl
    have hcompute : ema.compute n xs = ema.values n xs :=
      compute_natCast hpos (fun hclipped => absurd hclipped (by decide)) xs
    exact ⟨_, _, hspan, rfl, hcompute.trans hcolumn,
      hwindow.eval_call hx (hv.symm ▸ hcolumn) position⟩

/-- A window of 21 digits over two days: a call has the running extremes, and the highest closing
price on its own is refused. -/
theorem eval_call_uncut_highest :
    let close : Expr := .field "C" 4
    let window : Expr := .literal 1e20 7
    let frame : Frame := [⟨3, 3, 3, 3, 10⟩, ⟨2, 2, 2, 2, 10⟩]
    close.eval frame = .ok (.numeric [3, 2]) ∧ hhv.IsWindow frame window 100000000000000000000 ∧
    (Expr.call "HHV" [close, window] 0).eval frame = .ok (.numeric [3, 3]) ∧
    hhv.compute 100000000000000000000 [3, 2] = .error .windowTooLarge := by
  intro close window frame
  have hclose : close.eval frame = .ok (.numeric [3, 2]) := rfl
  have hwindow : hhv.IsWindow frame window 100000000000000000000 :=
    ⟨.scalar (.number 1e20), rfl, by decide +kernel⟩
  obtain ⟨column, hcall, -, hcompute, hbeyond⟩ :=
    (eval_call_uncut (n := 100000000000000000000) (by decide) [3, 2]).1 hhv rfl
  have hcolumn : column = [3, 3] := (hbeyond.highest rfl (by decide)).trans (by decide +kernel)
  subst hcolumn
  exact ⟨hclose, hwindow, hcall _ _ _ _ 0 hclose rfl hwindow, hcompute⟩

theorem not_every_window_fits :
    ¬ ∀ (function : Windowed) (n : Nat) (xs : List Float), function.isClipped = true → 1 ≤ n →
      function.compute n xs = function.compute (min n (xs.length + 1) : Nat) xs := by
  intro hall
  have hsame := hall llv 100000000000000000000 [1, 2, 3] rfl (by decide)
  have hcut : llv.compute (min 100000000000000000000 4 : Nat) [1, 2, 3] = .ok [1, 1, 1] := by
    decide +kernel
  cases hsame.trans hcut

end MarketFormula.Windowed
