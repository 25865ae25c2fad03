import MarketFormula.Proofs.Evaluation.LongWindow

/-!
# Indicators on their own and in formulas

An indicator is computed for a column or called in a formula. What is checked before, and the cut of
a window to the number of bars, do not change its values.
-/
namespace MarketFormula.Windowed

variable {function : Windowed} {n : Nat}

lemma eval_of_window {bars : Nat} {x y : Value} {position : Int} {column : List Float}
    (hlength : (x.toNumeric bars).length = bars)
    (hwindow : y.window (Indicator.windowed function).name position = .ok n)
    (hcolumn : function.values n (x.toNumeric bars) = .ok column) :
    (Indicator.windowed function).eval bars position x y = .ok (.numeric column) := by
  obtain ⟨column', hcolumn', hvalue⟩ := Indicator.exists_column bars x hwindow
  rw [function.values_clipped n hlength, hcolumn] at hcolumn'
  cases hcolumn'
  exact hvalue

/-- An argument whose value is a window of `n` bars. -/
def IsWindow (function : Windowed) (frame : Frame) (argument : Expr) (n : Nat) : Prop :=
  ∃ y, argument.eval frame = .ok y ∧
    y.window (Indicator.windowed function).name argument.position = .ok n

lemma IsWindow.eval_call {frame : Frame} {x argument : Expr} {v : Value} {column : List Float}
    (h : function.IsWindow frame argument n) (hx : x.eval frame = .ok v)
    (hcolumn : function.values n (v.toNumeric frame.length) = .ok column) (position : Int) :
    (Expr.call (Indicator.windowed function).name [x, argument] position).eval frame =
      .ok (.numeric column) := by
  obtain ⟨y, hy, hwindow⟩ := h
  exact (Indicator.eval_call hx hy).trans
    (eval_of_window (Expr.length_toNumeric_of_eval hx) hwindow hcolumn)

/-- A column has these values over windows of `n` bars, whether they are computed or the value of a
call with such a window. -/
structure Gives (function : Windowed) (n : Nat) (xs ys : List Float) : Prop where
  compute : (function.isClipped = true → n < 0x8000000000000000) → function.compute n xs = .ok ys
  eval : ∀ position y, y.window (Indicator.windowed function).name position = .ok n →
    (Indicator.windowed function).eval xs.length position (.numeric xs) y = .ok (.numeric ys)

lemma gives_of_values (hpos : 0 < n) {xs ys : List Float} (h : function.values n xs = .ok ys) :
    function.Gives n xs ys where
  compute hn := (compute_natCast hpos hn xs).trans h
  eval _ _ hwindow := eval_of_window rfl hwindow h

end MarketFormula.Windowed
