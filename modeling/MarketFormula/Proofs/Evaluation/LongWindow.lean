import MarketFormula.Proofs.Decimal.Rounding
import MarketFormula.Proofs.Evaluation.Faults
import MarketFormula.Proofs.Formula.CallText

/-!
# Windows that reach beyond the history

A window that is longer than the history is given as digits, becomes a double and then a whole
number again, and is cut to one bar more than there are. Rounding keeps it beyond the history.
-/
namespace MarketFormula

namespace Text

lemma isDigit_of_ascii {c : Char} (h : c.isDigit = true) : isDigit c = true := by
  have hrange : 48 ≤ c.toNat ∧ c.toNat ≤ 57 := by
    simpa [Char.isDigit, UInt32.le_iff_toNat_le] using h
  rw [isDigit, digitValue?, if_pos (by omega), if_pos hrange]
  rfl

end Text

lemma Decimal.ofPlain_digits {digits : List Char} (h : ∀ c ∈ digits, Text.isDigit c = true) :
    ofPlain digits = ofScaled (Text.ofDigits (digitsOf digits)) 0 := by
  have htake : digits.takeWhile Text.isDigit = digits := List.takeWhile_eq_self_iff.mpr h
  have hdrop : digits.dropWhile Text.isDigit = [] := List.dropWhile_eq_nil_iff.mpr h
  have hnone : digitsOf [] = [] := rfl
  rw [ofPlain, htake, hdrop, hnone, ofDigitParts, List.append_nil]
  rfl

section Places

/-! A place has no part in what is found at it, unless that is a fault. -/

variable {place : Int → Int → Prop} {position position' : Int}

lemma Field.resolve_eq_ok {name : String} {field : Field}
    (h : resolve name (some position') = .ok field) : resolve name (some position) = .ok field := by
  unfold resolve at h ⊢
  split at h
  · exact h
  · cases h

lemma Value.window_eq_ok {y : Value} {function : String} {length : Nat}
    (h : y.window function position' = .ok length) : y.window function position = .ok length := by
  unfold window at h ⊢
  split at h
  · split at h
    · exact h
    · cases h
  · cases h
  · cases h

namespace Indicator

variable {indicator : Indicator}

lemma eval_eq_ok {n : Nat} {x y v : Value} (h : indicator.eval n position' x y = .ok v) :
    indicator.eval n position x y = .ok v := by
  cases indicator with
  | cross => exact h
  | windowed function =>
    simp only [eval, bind_eq_ok_iff, Fault.ofFormula_eq_ok_iff] at h ⊢
    obtain ⟨window, hwindow, hcolumn⟩ := h
    exact ⟨window, Value.window_eq_ok hwindow, hcolumn⟩

end Indicator

namespace Expr

variable {frame : Frame}

lemma Twin.eval_eq_ok {e e' : Expr} (h : Twin place e e') {v : Value} (hv : e'.eval frame = .ok v) :
    e.eval frame = .ok v := by
  -- by induction over the first tree: the value is the same wherever its parts stand
  induction e generalizing e' v with
  | binary op left right position ihl ihr =>
    cases h with
    | binary op hleft hright =>
      simp only [Expr.eval, bind_eq_ok_iff] at hv ⊢
      obtain ⟨x, hx, y, hy, hboth⟩ := hv
      refine ⟨x, ihl hleft hx, y, ihr hright hy, ?_⟩
      cases op <;> first | exact hboth | cases hboth
  | unary op operand position ih =>
    cases h with
    | unary op hoperand =>
      simp only [Expr.eval, bind_eq_ok_iff] at hv ⊢
      obtain ⟨x, hx, hvalue⟩ := hv
      refine ⟨x, ih hoperand hx, ?_⟩
      cases op <;> first | exact hvalue | cases hvalue
  | literal value position =>
    cases h with
    | literal token => exact hv
  | field name position =>
    cases h with
    | field name =>
      simp only [Expr.eval, bind_eq_ok_iff, Fault.ofFormula_eq_ok_iff] at hv ⊢
      obtain ⟨field, hfield, hvalue⟩ := hv
      exact ⟨field, Field.resolve_eq_ok hfield, hvalue⟩
  | call name args position ih =>
    cases h with
    | call name hargs =>
      obtain ⟨indicator, _, _, x, y, hname, rfl, hx, hy, hvalue⟩ := eval_call_eq_ok_iff.mp hv
      obtain ⟨first, _, hfirst, hrest, rfl⟩ := List.forall₂_cons_right_iff.mp hargs
      obtain ⟨second, _, hsecond, hnone, rfl⟩ := List.forall₂_cons_right_iff.mp hrest
      cases hnone
      exact eval_call_eq_ok_iff.mpr ⟨indicator, first, second, x, y, hname, rfl,
        ih first (by simp) hfirst hx, ih second (by simp) hsecond hy, Indicator.eval_eq_ok hvalue⟩
  | bare => cases h

end Expr

end Places

namespace Indicator

lemma resolve_name (indicator : Indicator) (position? : Option Int) :
    resolve (Text.upper indicator.name) 2 position? = .ok indicator := by
  rcases indicator with function | _
  · cases function <;> rfl
  · rfl

lemma eval_call {indicator : Indicator} {x y : Expr} {frame : Frame} {position : Int}
    {vx vy : Value} (hx : x.eval frame = .ok vx) (hy : y.eval frame = .ok vy) :
    (Expr.call indicator.name [x, y] position).eval frame =
      indicator.eval frame.length y.position vx vy := by
  simp [Expr.eval, Expr.evalAll, hx, hy, resolve_name, Fault.ofFormula, Except.mapError, bind,
    Except.bind, pure, Except.pure]

end Indicator

lemma Expr.exists_of_eval_pair {name : String} {x y : Expr} {frame : Frame} {position : Int}
    {v : Value} (h : (call name [x, y] position).eval frame = .ok v) :
    ∃ vx, x.eval frame = .ok vx := by
  obtain ⟨-, _, _, vx, -, -, ⟨⟩, hx, -⟩ := eval_call_eq_ok_iff.mp h
  exact ⟨vx, hx⟩

namespace Windowed

lemma eval_infinity (function : Windowed) (n : Nat) (position : Int) (x : Value) :
    (Indicator.windowed function).eval n position x (.scalar (.number Decimal.infinity)) =
      .error (.formula (.windowNotPositive (Indicator.windowed function).name Decimal.infinity
        position)) := by
  have hnone : Decimal.natural? Decimal.infinity = none := rfl
  simp only [Indicator.eval, Value.window, hnone]
  rfl

section Clipped

variable {function : Windowed} (hclipped : function.isClipped = true) {n : Nat}
  (hn : n + 1 < 0x8000000000000000)

include hclipped hn

lemma exists_compute (xs : List Float) : ∃ column, function.values (n + 1) xs = .ok column ∧
    function.compute (n + 1 : Nat) xs = .ok column := by
  have hmax : n + 1 ≤ Decimal.maxInteger := hn.le.trans (by decide +kernel)
  obtain ⟨column, hcolumn⟩ := function.exists_values hmax xs
  have hcompute := function.compute_eq_values (Nat.succ_pos n) hn xs
  have hcut : (if function.isClipped then min (n + 1) (n + 1) else n + 1) = n + 1 := by
    rw [if_pos hclipped, Nat.min_self]
  rw [hcut] at hcompute
  exact ⟨column, hcolumn, hcompute.trans hcolumn⟩

lemma eval_of_natural? {k : Nat} {w : Float} (hw : Decimal.natural? w = some k) (hk : n < k)
    (position : Int) (x : Value) {column : List Float}
    (hcolumn : function.compute (n + 1 : Nat) (x.toNumeric n) = .ok column) :
    (Indicator.windowed function).eval n position x (.scalar (.number w)) =
      .ok (.numeric column) := by
  obtain ⟨column', hvalues, hcompute⟩ := exists_compute hclipped hn (x.toNumeric n)
  cases hcolumn.symm.trans hcompute
  obtain ⟨k, rfl⟩ : ∃ pred, k = pred + 1 := ⟨k - 1, by omega⟩
  have hwindow : (Value.scalar (.number w)).window (Indicator.windowed function).name position =
      .ok (k + 1) := by
    simp only [Value.window, hw]
  obtain ⟨column', hcut, heval⟩ := Indicator.exists_column n x hwindow
  rw [if_pos hclipped, Nat.min_eq_right (by omega), hvalues] at hcut
  cases hcut
  exact heval

end Clipped

lemma exists_eval_callText {function : Windowed} {argument : String} {x e₁ : Expr} {v₁ : Value}
    {frame : Frame} (hx : Expr.parse argument = .ok x)
    (hone : Expr.parse ((Indicator.windowed function).callText argument "1") = .ok e₁)
    (hvalue : e₁.eval frame = .ok v₁) : ∃ v, x.eval frame = .ok v ∧ ∀ digits : String,
      (∀ c ∈ digits.toList, c.isDigit = true) → digits.toList ≠ [] →
      ∃ e, Expr.parse ((Indicator.windowed function).callText argument digits) = .ok e ∧
        e.eval frame = (Indicator.windowed function).eval frame.length
          ((Indicator.windowed function).numberPlace argument) v
          (.scalar (.number
            (Decimal.ofScaled (Text.ofDigits (Decimal.digitsOf digits.toList)) 0))) := by
  obtain ⟨place, x', nesting, htwin, hparse⟩ := Expr.parse_callText_iff (.windowed function) hx
  obtain ⟨rfl, hnesting, hheight⟩ :=
    (hparse "1" (List.all_eq_true.mp rfl) (by decide) e₁).mp hone
  obtain ⟨v, hv⟩ := Expr.exists_of_eval_pair hvalue
  refine ⟨v, htwin.eval_eq_ok hv, fun digits hdigits hne => ?_⟩
  have hscript : ∀ c ∈ digits.toList, Text.isDigit c = true := fun c hc =>
    Text.isDigit_of_ascii (hdigits c hc)
  have hnumber : ∀ (w : Float) (position : Int),
      (Expr.literal w position).eval frame = .ok (.scalar (.number w)) := fun _ _ => rfl
  refine ⟨_, (hparse digits hscript hne _).mpr ⟨rfl, hnesting, hheight⟩, ?_⟩
  rw [Indicator.eval_call hv (hnumber _ _), Decimal.ofPlain_digits hscript]
  rfl

/-- A window beyond the history, given in digits, has the same values as a window of one bar more
than there are, unless the nearest double is infinite, in which case it is refused. -/
theorem eval_callText_beyond {function : Windowed} (hclipped : function.isClipped = true)
    {argument digits : String} {x e₁ : Expr} {v₁ : Value} (frame : Frame)
    (hx : Expr.parse argument = .ok x)
    (hone : Expr.parse ((Indicator.windowed function).callText argument "1") = .ok e₁)
    (hvalue : e₁.eval frame = .ok v₁) (hdigits : ∀ c ∈ digits.toList, c.isDigit = true)
    (hbeyond : frame.length < Text.ofDigits (Decimal.digitsOf digits.toList))
    (hbars : frame.length < 2 ^ 53) :
    ∃ e v column, Expr.parse ((Indicator.windowed function).callText argument digits) = .ok e ∧
      x.eval frame = .ok v ∧
      function.compute (frame.length + 1 : Nat) (v.toNumeric frame.length) = .ok column ∧
      e.eval frame = if Text.ofDigits (Decimal.digitsOf digits.toList) < Decimal.overflow then
          .ok (.numeric column)
        else
          .error (.formula (.windowNotPositive (Indicator.windowed function).name Decimal.infinity
            ((Indicator.windowed function).numberPlace argument))) := by
  have hne : digits.toList ≠ [] := by
    intro hnone
    rw [hnone] at hbeyond
    exact absurd hbeyond (Nat.not_lt_zero _)
  obtain ⟨v, hv, hcall⟩ := exists_eval_callText hx hone hvalue
  obtain ⟨e, hparse, heval⟩ := hcall digits hdigits hne
  have hbound : frame.length + 1 < 0x8000000000000000 := by omega
  obtain ⟨column, -, hcolumn⟩ := exists_compute hclipped hbound (v.toNumeric frame.length)
  refine ⟨e, v, column, hparse, hv, hcolumn, ?_⟩
  rw [heval]
  split
  · next hrange =>
    obtain ⟨k, hk, hle⟩ := Decimal.exists_natural?_ofScaled (Nat.ne_zero_of_lt hbeyond) hrange
    exact eval_of_natural? hclipped hbound hk (by omega) _ v hcolumn
  · next hrange =>
    rw [Decimal.ofScaled_eq_infinity (not_lt.mp hrange)]
    exact eval_infinity function ..

theorem eval_callText_beyond_lowest : ∃ e v column,
    Expr.parse "LLV(L, 100000000000000000000)" = .ok e ∧
      (Expr.field "L" 0).eval [⟨2, 3, 1, 2, 10⟩] = .ok v ∧
      llv.compute 2 (v.toNumeric 1) = .ok column ∧
      e.eval [⟨2, 3, 1, 2, 10⟩] = .ok (.numeric column) := by
  have hx : Expr.parse "L" = .ok (.field "L" 0) := rfl
  have hone : Expr.parse "LLV(L, 1)" =
      .ok (.call "LLV" [.field "L" 4, .literal (Decimal.ofPlain ['1']) 7] 0) := rfl
  have hdigits : ∀ c ∈ "100000000000000000000".toList, c.isDigit = true := List.all_eq_true.mp rfl
  obtain ⟨e, v, column, hparse, hv, hcolumn, hvalue⟩ :=
    @eval_callText_beyond .llv rfl "L" "100000000000000000000" _ _ _ [⟨2, 3, 1, 2, 10⟩] hx hone rfl
      hdigits (by decide +kernel) (by decide)
  rw [if_pos (by decide +kernel)] at hvalue
  exact ⟨e, v, column, hparse, hv, hcolumn, hvalue⟩

theorem not_every_window_accepted :
    ¬ ∀ (function : Windowed) (argument digits : String) (frame : Frame),
      function.isClipped = true → (∃ x, Expr.parse argument = .ok x) →
      (∃ e v, Expr.parse ((Indicator.windowed function).callText argument "1") = .ok e ∧
        e.eval frame = .ok v) →
      (∀ c ∈ digits.toList, c.isDigit = true) →
      frame.length < Text.ofDigits (Decimal.digitsOf digits.toList) →
      ∃ e v, Expr.parse ((Indicator.windowed function).callText argument digits) = .ok e ∧
        e.eval frame = .ok v := by
  intro hall
  obtain ⟨digits, htext⟩ : ∃ digits : String, digits.toList = '1' :: List.replicate 309 '0' :=
    ⟨_, String.toList_ofList⟩
  have hdigits : ∀ c ∈ digits.toList, c.isDigit = true := by
    rw [htext]
    exact List.forall_mem_cons.mpr ⟨rfl, fun c hc => by rw [List.eq_of_mem_replicate hc]; rfl⟩
  have hoverflow : Decimal.overflow ≤ Text.ofDigits (Decimal.digitsOf digits.toList) := by
    rw [htext]
    decide +kernel
  have hbeyond := Nat.lt_of_lt_of_le (by decide +kernel : 1 < Decimal.overflow) hoverflow
  have hone : Expr.parse "HHV(C, 1)" =
      .ok (.call "HHV" [.field "C" 4, .literal (Decimal.ofPlain ['1']) 7] 0) := rfl
  obtain ⟨e, v, hparse, hok⟩ := hall .hhv "C" digits [⟨1, 1, 1, 1, 10⟩] rfl ⟨_, rfl⟩
    ⟨_, _, hone, rfl⟩ hdigits hbeyond
  obtain ⟨x, -, hcall⟩ := @exists_eval_callText .hhv "C" _ _ _ [⟨1, 1, 1, 1, 10⟩] rfl hone rfl
  obtain ⟨e', hparse', heval⟩ := hcall digits hdigits (by rw [htext]; exact List.cons_ne_nil _ _)
  cases hparse.symm.trans hparse'
  rw [hok, Decimal.ofScaled_eq_infinity hoverflow, eval_infinity] at heval
  cases heval

end Windowed

end MarketFormula
