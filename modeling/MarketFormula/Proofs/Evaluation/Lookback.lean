import MarketFormula.Proofs.Evaluation.AtBar
import MarketFormula.Proofs.Evaluation.Call
import MarketFormula.Proofs.Evaluation.Decision
import MarketFormula.Proofs.Indicator.Lookback

/-!
# Formulas without averages have a finite memory

A formula that calls no average has a lookback: the number of bars before a bar that its value
there depends on. Leaving out the first bars changes the values at as many of the others at most.
-/
namespace MarketFormula

namespace Expr

def indicator? (name : String) : Option Indicator :=
  Indicator.ofName? (Text.upper (Text.upper name))

/-- The window length that an argument gives, which is the same over all frames. -/
def windowLength (e : Expr) : Nat :=
  match e.eval [] with
  | .ok (.scalar (.number x)) => (Decimal.natural? x).getD 0
  | _ => 0

mutual

def averageFree : Expr → Bool
  | binary _ left right _ => left.averageFree && right.averageFree
  | unary _ operand _ => operand.averageFree
  | call name args _ =>
    indicator? name != some (.windowed .ma) && indicator? name != some (.windowed .ema) &&
      averageFreeAll args
  | literal .. | field .. | bare => true

def averageFreeAll : List Expr → Bool
  | [] => true
  | e :: es => e.averageFree && averageFreeAll es

end

end Expr

def Indicator.lookback (window x y : Nat) : Indicator → Nat
  | windowed .ref => window + x
  | windowed .hhv | windowed .llv => window - 1 + x
  | cross => 1 + max x y
  | windowed .ma | windowed .ema => 0

namespace Expr

/-- The lookback of a call of an indicator, given those of the arguments. -/
def callLookback : Option Indicator → List Expr → List Nat → Nat
  | some indicator, [_, second], [x, y] => indicator.lookback second.windowLength x y
  | _, _, _ => 0

mutual

/-- The number of bars before a bar that the value of an expression without averages there depends
on. -/
def lookback : Expr → Nat
  | binary _ left right _ => max left.lookback right.lookback
  | unary _ operand _ => operand.lookback
  | call name args _ => callLookback (indicator? name) args (lookbackAll args)
  | literal .. | field .. | bare => 0

def lookbackAll : List Expr → List Nat
  | [] => []
  | e :: es => e.lookback :: lookbackAll es

end

lemma eval_agree_zero (e : Expr) (frame frame' : Frame) :
    Related (Value.Agree 0 frame.length frame'.length) (e.eval frame) (e.eval frame') :=
  eval_agree (Nat.zero_le _) (Nat.zero_le _) e fun _ _ =>
    ⟨List.length_map _, List.length_map _, rfl⟩

lemma windowLength_eq {e : Expr} {frame : Frame} {v : Value} {function : String} {position : Int}
    {n : Nat} (hv : e.eval frame = .ok v) (hn : v.window function position = .ok n) :
    e.windowLength = n := by
  obtain ⟨v', hv', hagree⟩ := (eval_agree_zero e frame []).exists_of_ok hv
  rw [hagree.window_eq] at hn
  unfold Value.window at hn
  split at hn
  · next x =>
    rw [windowLength, hv']
    split at hn
    · next n hnatural =>
      cases hn
      simp [hnatural]
    · cases hn
  · cases hn
  · cases hn

end Expr

namespace Value

/-- Values over a frame and over the frame without its first `d` bars that are the same at its bars
from `l` on. -/
def Shifted (d l n' : Nat) (v v' : Value) : Prop :=
  ∀ j, l ≤ j → j < n' → ∃ s, v.AtBar (d + j) s ∧ v'.AtBar j s

namespace Shifted

variable {d l n' : Nat} {v v' : Value}

lemma mono {l' : Nat} (h : Shifted d l n' v v') (hl : l ≤ l') : Shifted d l' n' v v' :=
  fun j hj => h j (hl.trans hj)

lemma toNumeric_drop (h : Shifted d l n' v v') (hlength : (v.toNumeric (d + n')).length = d + n')
    (hlength' : (v'.toNumeric n').length = n') :
    (v.toNumeric (d + n')).drop (d + l) = (v'.toNumeric n').drop l := by
  apply List.ext_getElem?
  intro i
  rw [List.getElem?_drop, List.getElem?_drop, Nat.add_assoc]
  rcases Nat.lt_or_ge (l + i) n' with hlt | hle
  · obtain ⟨s, hs, hs'⟩ := h (l + i) (Nat.le_add_right l i) hlt
    rw [hs.toNumeric (Nat.add_lt_add_left hlt d), hs'.toNumeric hlt]
  · rw [List.getElem?_eq_none (by omega), List.getElem?_eq_none (by omega)]

lemma exists_getElem? {α : Type} {xs xs' : List α} (hlength : xs'.length = n')
    (h : xs.drop (d + l) = xs'.drop l) {j : Nat} (hl : l ≤ j) (hj : j < n') :
    ∃ x, xs[d + j]? = some x ∧ xs'[j]? = some x := by
  obtain ⟨i, rfl⟩ := Nat.exists_eq_add_of_le hl
  have hentry := congrArg (·[i]?) h
  simp only [List.getElem?_drop, Nat.add_assoc] at hentry
  have hlt : l + i < xs'.length := hlength.symm ▸ hj
  exact ⟨xs'[l + i], hentry.trans (List.getElem?_eq_getElem hlt), List.getElem?_eq_getElem hlt⟩

lemma numeric {xs xs' : List Float} (hlength : xs'.length = n')
    (h : xs.drop (d + l) = xs'.drop l) : Shifted d l n' (.numeric xs) (.numeric xs') :=
  fun _ hl hj => by
    obtain ⟨x, hx, hx'⟩ := exists_getElem? hlength h hl hj
    exact ⟨.number x, .numeric hx, .numeric hx'⟩

lemma boolean {bs bs' : List Bool} (hlength : bs'.length = n')
    (h : bs.drop (d + l) = bs'.drop l) : Shifted d l n' (.boolean bs) (.boolean bs') :=
  fun _ hl hj => by
    obtain ⟨b, hb, hb'⟩ := exists_getElem? hlength h hl hj
    exact ⟨.truth b, .boolean hb, .boolean hb'⟩

end Shifted

end Value

namespace Expr

lemma evalUnary_scalar (n n' : Nat) (op : UnaryOp) (position : Int) (s : Scalar) :
    evalUnary n op position (.scalar s) = evalUnary n' op position (.scalar s) := by
  cases op <;> rfl

lemma evalBinary_scalar (n n' : Nat) (op : BinaryOp) (position : Int) (s t : Scalar) :
    evalBinary n op position (.scalar s) (.scalar t) =
      evalBinary n' op position (.scalar s) (.scalar t) := by
  unfold evalBinary
  split <;> rfl

section Operators

variable {d l n' : Nat} {position : Int} {x x' y y' v v' : Value}

lemma evalUnary_shifted {op : UnaryOp} (hx : x.Shifted d l n' x')
    (hv : evalUnary (d + n') op position x = .ok v) (hv' : evalUnary n' op position x' = .ok v') :
    v.Shifted d l n' v' := by
  intro j hl hj
  obtain ⟨s, hs, hs'⟩ := hx j hl hj
  obtain ⟨_, hw, t, rfl, ht⟩ :=
    (evalUnary_atBar (Nat.add_lt_add_left hj d) op position hs).exists_of_ok hv
  obtain ⟨_, hw', t', rfl, ht'⟩ := (evalUnary_atBar hj op position hs').exists_of_ok hv'
  rw [evalUnary_scalar _ n', hw'] at hw
  cases hw
  exact ⟨t, ht, ht'⟩

lemma evalBinary_shifted {op : BinaryOp} (hx : x.Shifted d l n' x') (hy : y.Shifted d l n' y')
    (hv : evalBinary (d + n') op position x y = .ok v)
    (hv' : evalBinary n' op position x' y' = .ok v') : v.Shifted d l n' v' := by
  intro j hl hj
  obtain ⟨s, hs, hs'⟩ := hx j hl hj
  obtain ⟨t, ht, ht'⟩ := hy j hl hj
  obtain ⟨_, hw, u, rfl, hu⟩ :=
    (evalBinary_atBar (Nat.add_lt_add_left hj d) op position hs ht).exists_of_ok hv
  obtain ⟨_, hw', u', rfl, hu'⟩ := (evalBinary_atBar hj op position hs' ht').exists_of_ok hv'
  rw [evalBinary_scalar _ n', hw'] at hw
  cases hw
  exact ⟨u, hu, hu'⟩

lemma crossing_shifted {lx ly : Nat} (hx : x.Shifted d lx n' x') (hy : y.Shifted d ly n' y')
    (hxs : (x.toNumeric (d + n')).length = d + n') (hxs' : (x'.toNumeric n').length = n')
    (hys : (y.toNumeric (d + n')).length = d + n') (hys' : (y'.toNumeric n').length = n') :
    Value.Shifted d (1 + max lx ly) n'
      (.boolean (Indicator.crossing (x.toNumeric (d + n')) (y.toNumeric (d + n'))))
      (.boolean (Indicator.crossing (x'.toNumeric n') (y'.toNumeric n'))) := by
  have hxdrop := (hx.mono (Nat.le_max_left lx ly)).toNumeric_drop hxs hxs'
  have hydrop := (hy.mono (Nat.le_max_right lx ly)).toNumeric_drop hys hys'
  refine .boolean (by rw [Indicator.length_crossing, hxs', hys', Nat.min_self]) ?_
  rw [Nat.add_comm 1, ← Nat.add_assoc, Indicator.crossing_drop, hxdrop, hydrop,
    ← Indicator.crossing_drop]

lemma values_shifted {lx window r : Nat} {function : Windowed} {ys ys' : List Float}
    (hx : x.Shifted d lx n' x') (hxs : (x.toNumeric (d + n')).length = d + n')
    (hxs' : (x'.toNumeric n').length = n') (hreach : function.reach? window = some r)
    (hys : function.values window (x.toNumeric (d + n')) = .ok ys)
    (hys' : function.values window (x'.toNumeric n') = .ok ys') :
    Value.Shifted d (r + lx) n' (.numeric ys) (.numeric ys') := by
  have hdrop := hx.toNumeric_drop hxs hxs'
  have hvalues := function.values_drop hreach (d + lx) (x.toNumeric (d + n'))
  rw [hdrop, ← function.values_drop hreach lx (x'.toNumeric n'), hys, hys'] at hvalues
  have hcolumns := Except.ok.inj hvalues
  refine .numeric ((Windowed.length_of_values hys').trans hxs') ?_
  rw [Nat.add_comm r, ← Nat.add_assoc]
  exact hcolumns

end Operators

lemma lookback_windowed {function : Windowed} {window r : Nat}
    (h : function.reach? window = some r) (x y : Nat) :
    (Indicator.windowed function).lookback window x y = r + x := by
  cases function <;> cases h <;> rfl

lemma exists_reach? {function : Windowed} (hma : function ≠ .ma) (hema : function ≠ .ema) (n : Nat) :
    ∃ r, function.reach? n = some r := by
  cases function with
  | ma => exact absurd rfl hma
  | ema => exact absurd rfl hema
  | _ => exact ⟨_, rfl⟩

lemma evalIndicator_shifted {indicator : Indicator} (hma : indicator ≠ .windowed .ma)
    (hema : indicator ≠ .windowed .ema) {d n' lx ly window : Nat} {position : Int}
    {x x' y y' v v' : Value} (hx : x.Shifted d lx n' x') (hy : y.Shifted d ly n' y')
    (hxs : (x.toNumeric (d + n')).length = d + n') (hxs' : (x'.toNumeric n').length = n')
    (hys : (y.toNumeric (d + n')).length = d + n') (hys' : (y'.toNumeric n').length = n')
    (hwindow : ∀ function n, y.window function position = .ok n → window = n)
    (hwindow' : ∀ function n, y'.window function position = .ok n → window = n)
    (hv : indicator.eval (d + n') position x y = .ok v)
    (hv' : indicator.eval n' position x' y' = .ok v') :
    v.Shifted d (indicator.lookback window lx ly) n' v' := by
  cases indicator with
  | cross =>
    cases hv
    cases hv'
    exact crossing_shifted hx hy hxs hxs' hys hys'
  | windowed function =>
    simp only [Indicator.eval, bind_eq_ok_iff, function.values_clipped _ hxs,
      function.values_clipped _ hxs'] at hv hv'
    obtain ⟨n, hn, ys, hvalues, hv⟩ := hv
    obtain ⟨n', hn', ys', hvalues', hv'⟩ := hv'
    cases hv
    cases hv'
    obtain rfl := hwindow _ n (Fault.ofFormula_eq_ok_iff.mp hn)
    obtain rfl := hwindow' _ n' (Fault.ofFormula_eq_ok_iff.mp hn')
    have hma' : function ≠ .ma := fun h => hma (congrArg _ h)
    have hema' : function ≠ .ema := fun h => hema (congrArg _ h)
    obtain ⟨r, hreach⟩ := exists_reach? hma' hema' window
    rw [lookback_windowed hreach]
    exact values_shifted hx hxs hxs' hreach (Fault.ofData_eq_ok_iff.mp hvalues)
      (Fault.ofData_eq_ok_iff.mp hvalues')

/-- The induction over the tree: the lookback of an operation is that of its operands and the number
of entries that it looks back itself. -/
theorem eval_shifted {frame : Frame} {d n' : Nat} (hn : frame.length = d + n') {e : Expr}
    (hfree : e.averageFree = true) {v v' : Value} (hv : e.eval frame = .ok v)
    (hv' : e.eval (frame.drop d) = .ok v') : v.Shifted d e.lookback n' v' := by
  have hn' : (frame.drop d).length = n' := by
    rw [List.length_drop]
    omega
  induction e generalizing v v' with
  | binary op left right position ihl ihr =>
    simp only [averageFree, Bool.and_eq_true] at hfree
    simp only [eval, bind_eq_ok_iff, hn, hn'] at hv hv'
    obtain ⟨x, hx, y, hy, hv⟩ := hv
    obtain ⟨x', hx', y', hy', hv'⟩ := hv'
    rw [lookback]
    exact evalBinary_shifted ((ihl hfree.1 hx hx').mono (Nat.le_max_left _ _))
      ((ihr hfree.2 hy hy').mono (Nat.le_max_right _ _)) hv hv'
  | unary op operand position ih =>
    simp only [averageFree] at hfree
    simp only [eval, bind_eq_ok_iff, hn, hn'] at hv hv'
    obtain ⟨x, hx, hv⟩ := hv
    obtain ⟨x', hx', hv'⟩ := hv'
    rw [lookback]
    exact evalUnary_shifted (ih hfree hx hx') hv hv'
  | literal value position =>
    simp only [eval] at hv hv'
    cases hv
    cases hv'
    exact fun j _ _ => ⟨_, .scalar _, .scalar _⟩
  | field name position =>
    simp only [eval, bind_eq_ok_iff] at hv hv'
    obtain ⟨field, hfield, hv⟩ := hv
    obtain ⟨field', hfield', hv'⟩ := hv'
    cases hfield.symm.trans hfield'
    cases hv
    cases hv'
    refine .numeric ((List.length_map _).trans hn') ?_
    rw [Frame.column, Frame.column, List.map_drop, lookback, Nat.add_zero, List.drop_zero]
  | call name args position ih =>
    obtain ⟨indicator, first, second, x, y, hname, rfl, hx, hy, hv⟩ := eval_call_eq_ok_iff.mp hv
    obtain ⟨indicator', _, _, x', y', hname', ⟨⟩, hx', hy', hv'⟩ := eval_call_eq_ok_iff.mp hv'
    cases hname.symm.trans hname'
    rw [← indicator?] at hname
    simp only [averageFree, averageFreeAll, hname, Bool.and_eq_true, bne_iff_ne, ne_eq,
      Option.some.injEq] at hfree
    obtain ⟨⟨hma, hema⟩, hfirst, hsecond, -⟩ := hfree
    have hxshift := ih first (by simp) hfirst hx hx'
    have hyshift := ih second (by simp) hsecond hy hy'
    have hxs := length_toNumeric_of_eval hx
    have hxs' := length_toNumeric_of_eval hx'
    have hys := length_toNumeric_of_eval hy
    have hys' := length_toNumeric_of_eval hy'
    rw [hn] at hxs hys hv
    rw [hn'] at hxs' hys' hv'
    simp only [lookback, lookbackAll, hname, callLookback]
    -- the window is a scalar, so that its length is the same over both frames
    exact evalIndicator_shifted hma hema hxshift hyshift hxs hxs' hys hys'
      (fun _ _ => windowLength_eq hy) (fun _ _ => windowLength_eq hy') hv hv'
  | bare =>
    simp only [eval] at hv
    cases hv

lemma eval_drop {frame : Frame} {d n' : Nat} (hn : frame.length = d + n') {e : Expr}
    (hfree : e.averageFree = true) :
    Related (fun v v' => v.Shifted d e.lookback n' v') (e.eval frame) (e.eval (frame.drop d)) := by
  have hagree := eval_agree_zero e frame (frame.drop d)
  cases hv : e.eval frame with
  | error fault =>
    obtain ⟨error, rfl, hv'⟩ := hagree.exists_of_error hv
    rw [hv']
    exact .error error
  | ok v =>
    obtain ⟨v', hv', -⟩ := hagree.exists_of_ok hv
    rw [hv']
    exact .ok (eval_shifted hn hfree hv hv')

end Expr

/-- Results that differ at most in the place of the last bar. -/
structure TriggerResult.SameDecision (result result' : TriggerResult) : Prop where
  triggered : result.triggered = result'.triggered
  date : result.date = result'.date
  explanation : result.explanation = result'.explanation

namespace Series

section Tail

variable {α : Type} {s : Series α} {v v' : Value} {t : Scalar}

lemma resolve_last {last : Nat} (hlength : s.length = last + 1) (h : v.AtBar last t) :
    s.resolve v = .ok (.atBar t.toBool last s[last].date) := by
  have htruth := Value.truthAt_of_getElem? (h.toBoolean (Nat.lt_succ_self last))
  have hresolve := resolve_take (s := s) (i := last) (by omega) htruth
  rwa [← hlength, List.take_length] at hresolve

lemma sameDecision_drop {d last : Nat} (hlength : s.length = d + (last + 1))
    (h : v.AtBar (d + last) t) (h' : v'.AtBar last t) :
    ∃ result result', s.resolve v = .ok result ∧ resolve (s.drop d) v' = .ok result' ∧
      result.SameDecision result' := by
  have hlength' : (s.drop d).length = last + 1 := by
    rw [List.length_drop]
    omega
  have hdate : (s.drop d)[last].date = s[d + last].date := by rw [List.getElem_drop]
  refine ⟨_, _, resolve_last hlength h, resolve_last hlength' h', rfl, hdate.symm, ?_⟩
  simp only [TriggerResult.atBar, hdate]
  rfl

variable [ToFloat α] {frame : Frame}

lemma Reads.drop (h : s.Reads frame) (d : Nat) : Reads (s.drop d) (frame.drop d) :=
  List.forall₂_drop d h

lemma evaluateTree_related_self (h : s.Reads frame) (e : Expr) :
    Related (· = ·) (s.evaluateTree e) (s.evaluateTree e) := by
  -- Evaluation over a series of numbers fails because of the formula only.
  cases hs : s.isEmpty with
  | true =>
    simp only [evaluateTree, hs, if_true]
    exact .ok rfl
  | false =>
    rw [h.evaluateTree_eq hs]
    cases hv : e.eval frame with
    | error fault =>
      obtain ⟨error, rfl⟩ := Expr.exists_of_eval_eq_error hv
      exact .error error
    | ok v =>
      obtain ⟨result, hresult⟩ := exists_resolve h hv
      simp only [bind, Except.bind, hresult]
      exact .ok rfl

lemma evaluateTree_tail (h : s.Reads frame) {e : Expr} (hfree : e.averageFree = true) {m : Int}
    (hm : (e.lookback : Int) < m) :
    Related TriggerResult.SameDecision (s.evaluateTree e) (evaluateTree (s.tail m) e) := by
  rcases Nat.le_total s.length m.toNat with hle | hle
  · rw [tail, Nat.sub_eq_zero_of_le hle, List.drop_zero]
    refine (evaluateTree_related_self h e).imp ?_
    rintro result _ rfl
    exact ⟨rfl, rfl, rfl⟩
  · obtain ⟨last, hlast⟩ : ∃ last, m.toNat = last + 1 := ⟨m.toNat - 1, by omega⟩
    obtain ⟨d, hd⟩ : ∃ d, s.length = d + (last + 1) := ⟨s.length - m.toNat, by omega⟩
    have htail : s.tail m = s.drop d := by
      rw [tail]
      congr 1
      omega
    have hs : s.isEmpty = false := by
      rw [List.isEmpty_eq_false_iff, ← List.length_pos_iff]
      omega
    have hs' : (s.drop d).isEmpty = false := by
      rw [List.isEmpty_eq_false_iff, ← List.length_pos_iff, List.length_drop]
      omega
    rw [htail, h.evaluateTree_eq hs, (h.drop d).evaluateTree_eq hs']
    refine (Expr.eval_drop (h.length_eq.trans hd) hfree).bind fun v v' hshift => ?_
    obtain ⟨t, hat, hat'⟩ := hshift last (by omega) (Nat.lt_succ_self last)
    obtain ⟨result, result', hresult, hresult', hsame⟩ := sameDecision_drop hd hat hat'
    rw [hresult, hresult']
    exact .ok hsame

lemma reads_of_toFrame (h : s.toFrame = .ok frame) : s.Reads frame := by
  obtain ⟨-, -, hframe⟩ := bind_eq_ok_iff.mp h
  exact forall₂_of_mapM_eq_ok hframe

lemma exists_reads_of_evaluateTree {e : Expr} {result : TriggerResult}
    (h : s.evaluateTree e = .ok result) : ∃ frame, s.Reads frame := by
  unfold evaluateTree at h
  split at h
  · next hs =>
    obtain rfl := List.isEmpty_iff.mp hs
    exact ⟨[], .nil⟩
  · obtain ⟨frame, hframe, -⟩ := bind_eq_ok_iff.mp h
    exact ⟨frame, reads_of_toFrame (Fault.ofData_eq_ok_iff.mp hframe)⟩

lemma evaluate_text {text : String} {e : Expr} (hparse : Expr.parse text = .ok e) (s : Series α) :
    s.evaluate (.text text) = s.evaluateTree e := by
  unfold evaluate
  split
  · next hs => rw [evaluateTree, if_pos hs]
  · rw [Expr.ofDatum, hparse]
    rfl

end Tail

end Series

end MarketFormula
