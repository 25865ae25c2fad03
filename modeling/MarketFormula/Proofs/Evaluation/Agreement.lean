import MarketFormula.Proofs.Decimal.Range
import MarketFormula.Proofs.Evaluation.Barwise
import MarketFormula.Proofs.Evaluation.Related
import MarketFormula.Proofs.Formula.Tree
import MarketFormula.Proofs.Indicator.Stability

/-!
# Values look back only

Two frames that agree on their first bars, in the columns an expression refers to, give it values
that agree on those bars, or the same fault.
-/
namespace MarketFormula

variable {k n n' : Nat}

/-- Columns of `n` and `n'` entries with the same first `k`. -/
structure PrefixAgree {α : Type} (k n n' : Nat) (xs xs' : List α) : Prop where
  length : xs.length = n
  length' : xs'.length = n'
  take : xs.take k = xs'.take k

namespace PrefixAgree

variable {α β γ : Type}

lemma replicate (hk : k ≤ n) (hk' : k ≤ n') (x : α) :
    PrefixAgree k n n' (List.replicate n x) (List.replicate n' x) where
  length := List.length_replicate
  length' := List.length_replicate
  take := by rw [List.take_replicate, List.take_replicate, Nat.min_eq_left hk, Nat.min_eq_left hk']

lemma map (f : α → β) {xs xs' : List α} (h : PrefixAgree k n n' xs xs') :
    PrefixAgree k n n' (xs.map f) (xs'.map f) where
  length := (List.length_map f).trans h.length
  length' := (List.length_map f).trans h.length'
  take := by rw [← List.map_take, ← List.map_take, h.take]

lemma zipWith (f : α → β → γ) {xs xs' : List α} {ys ys' : List β}
    (hx : PrefixAgree k n n' xs xs') (hy : PrefixAgree k n n' ys ys') :
    PrefixAgree k n n' (List.zipWith f xs ys) (List.zipWith f xs' ys') where
  length := by rw [List.length_zipWith, hx.length, hy.length, Nat.min_self]
  length' := by rw [List.length_zipWith, hx.length', hy.length', Nat.min_self]
  take := by rw [List.take_zipWith, List.take_zipWith, hx.take, hy.take]

lemma exists_getElem? (hk : k ≤ n) {xs xs' : List α} (h : PrefixAgree k n n' xs xs') {i : Nat}
    (hi : i < k) : ∃ x, xs[i]? = some x ∧ xs'[i]? = some x := by
  have hlt : i < xs.length := h.length.symm ▸ hi.trans_le hk
  refine ⟨xs[i], List.getElem?_eq_getElem hlt, ?_⟩
  have htake := congrArg (·[i]?) h.take
  simp only [List.getElem?_take_of_lt hi] at htake
  rw [← htake, List.getElem?_eq_getElem hlt]

lemma of_getElem? {xs xs' : List α} (hlength : xs.length = n) (hlength' : xs'.length = n')
    (h : ∀ i < k, xs[i]? = xs'[i]?) : PrefixAgree k n n' xs xs' where
  length := hlength
  length' := hlength'
  take := by
    apply List.ext_getElem?
    intro i
    simp only [List.getElem?_take]
    split
    · next hi => exact h i hi
    · rfl

lemma crossing {xs xs' ys ys' : List Float} (hx : PrefixAgree k n n' xs xs')
    (hy : PrefixAgree k n n' ys ys') :
    PrefixAgree k n n' (Indicator.crossing xs ys) (Indicator.crossing xs' ys') where
  length := by rw [Indicator.length_crossing, hx.length, hy.length, Nat.min_self]
  length' := by rw [Indicator.length_crossing, hx.length', hy.length', Nat.min_self]
  take := by rw [Indicator.crossing_take, Indicator.crossing_take, hx.take, hy.take]

end PrefixAgree

namespace Value

/-- Values of one kind over `n` and `n'` bars that are the same at the first `k`. -/
inductive Agree (k n n' : Nat) : Value → Value → Prop
  | scalar (s : Scalar) : Agree k n n' (.scalar s) (.scalar s)
  | numeric {xs xs' : List Float} (h : PrefixAgree k n n' xs xs') :
    Agree k n n' (.numeric xs) (.numeric xs')
  | boolean {bs bs' : List Bool} (h : PrefixAgree k n n' bs bs') :
    Agree k n n' (.boolean bs) (.boolean bs')

namespace Agree

variable {v v' w w' : Value}

lemma toNumeric (hk : k ≤ n) (hk' : k ≤ n') (h : Agree k n n' v v') :
    PrefixAgree k n n' (v.toNumeric n) (v'.toNumeric n') := by
  cases h with
  | scalar s => exact .replicate hk hk' _
  | numeric h => exact h
  | boolean h => exact h.map ofTruth

lemma toBoolean (hk : k ≤ n) (hk' : k ≤ n') (h : Agree k n n' v v') :
    PrefixAgree k n n' (v.toBoolean n) (v'.toBoolean n') := by
  cases h with
  | scalar s => exact .replicate hk hk' _
  | numeric h =>
    simp only [Value.toBoolean, truths_eq_map]
    exact h.map isTrue
  | boolean h => exact h

section Operators

variable (hk : k ≤ n) (hk' : k ≤ n') (hv : Agree k n n' v v') (hw : Agree k n n' w w')

include hk hk' hv

lemma negation : Agree k n n' (v.negation n) (v'.negation n') := by
  have hcolumns := (hv.toBoolean hk hk').map (!·)
  cases hv with
  | scalar s => exact .scalar _
  | numeric h => exact .boolean hcolumns
  | boolean h => exact .boolean hcolumns

lemma opposite : Agree k n n' (v.opposite n) (v'.opposite n') := by
  have hcolumns := (hv.toNumeric hk hk').map (- ·)
  cases hv with
  | scalar s => exact .scalar _
  | numeric h => exact .numeric hcolumns
  | boolean h => exact .numeric hcolumns

include hw

lemma arithmetic {f : Arithmetic}
    (hf : ∀ xs ys, f.onColumns xs ys = List.zipWith f.onScalars xs ys) :
    Agree k n n' (.arithmetic n f v w) (.arithmetic n' f v' w') := by
  have hcolumns := (hv.toNumeric hk hk').zipWith f.onScalars (hw.toNumeric hk hk')
  simp only [← hf] at hcolumns
  cases hv <;> cases hw
  case scalar.scalar => exact .scalar _
  all_goals exact .numeric hcolumns

lemma comparison (f : Float → Float → Bool) :
    Agree k n n' (.comparison n f v w) (.comparison n' f v' w') := by
  have hcolumns := (hv.toNumeric hk hk').zipWith (compareScalars f) (hw.toNumeric hk hk')
  simp only [← compareColumns_eq_zipWith] at hcolumns
  cases hv <;> cases hw
  case scalar.scalar => exact .scalar _
  all_goals exact .boolean hcolumns

lemma logical (f : Bool → Bool → Bool) :
    Agree k n n' (.logical n f v w) (.logical n' f v' w') := by
  have hcolumns := (hv.toBoolean hk hk').zipWith f (hw.toBoolean hk hk')
  cases hv <;> cases hw
  case scalar.scalar => exact .scalar _
  all_goals exact .boolean hcolumns

end Operators

lemma window_eq (h : Agree k n n' v v') (function : String) (position : Int) :
    v.window function position = v'.window function position := by
  cases h <;> rfl

end Agree

lemma window_le {v : Value} {function : String} {position : Int} {length : Nat}
    (h : v.window function position = .ok length) : length ≤ Decimal.maxInteger := by
  unfold window at h
  split at h
  · split at h
    · next hnatural => cases h; exact Decimal.natural?_le hnatural
    · cases h
  · cases h
  · cases h

end Value

lemma Windowed.exists_values (function : Windowed) {length : Nat}
    (h : length ≤ Decimal.maxInteger) (xs : List Float) :
    ∃ ys, function.values length xs = .ok ys := by
  cases function with
  | ema =>
    have hspan : Datum.floatOfInt ((length : Int) + 1) = .ok (Float.ofNat (length + 1)) :=
      Datum.floatOfInt_natCast (Nat.add_le_add_right h 1)
    simp only [values, Indicator.smoothing, hspan]
    exact ⟨_, rfl⟩
  | _ => exact ⟨_, rfl⟩

lemma Windowed.values_clipped (function : Windowed) (length : Nat) {xs : List Float}
    (h : xs.length = n) :
    function.values (if function.isClipped then min length (n + 1) else length) xs =
      function.values length xs := by
  split
  · next hclipped => exact function.values_clip hclipped length n xs h.le
  · rfl

lemma PrefixAgree.values (function : Windowed) {length : Nat} {xs xs' ys ys' : List Float}
    (h : PrefixAgree k n n' xs xs') (hy : function.values length xs = .ok ys)
    (hy' : function.values length xs' = .ok ys') : PrefixAgree k n n' ys ys' where
  length := (Windowed.length_of_values hy).trans h.length
  length' := (Windowed.length_of_values hy').trans h.length'
  take := by
    have htake := function.values_take length k xs
    rw [h.take, ← function.values_take length k xs', hy, hy'] at htake
    exact Except.ok.inj htake

section Evaluation

variable (hk : k ≤ n) (hk' : k ≤ n')

include hk hk'

lemma Indicator.eval_agree (indicator : Indicator) (position : Int) {x x' y y' : Value}
    (hx : x.Agree k n n' x') (hy : y.Agree k n n' y') :
    Related (Value.Agree k n n') (indicator.eval n position x y)
      (indicator.eval n' position x' y') := by
  have hxs := hx.toNumeric hk hk'
  cases indicator with
  | cross => exact .ok (.boolean (hxs.crossing (hy.toNumeric hk hk')))
  | windowed function =>
    simp only [eval, function.values_clipped _ hxs.length, function.values_clipped _ hxs.length',
      ← hy.window_eq]
    cases hwindow : y.window (windowed function).name position with
    | error e => exact .error e
    | ok length =>
      have hlength := Value.window_le hwindow
      obtain ⟨ys, hys⟩ := function.exists_values hlength (x.toNumeric n)
      obtain ⟨ys', hys'⟩ := function.exists_values hlength (x'.toNumeric n')
      simp only [Fault.ofFormula, Fault.ofData, Except.mapError, bind, Except.bind, hys, hys']
      exact .ok (.numeric (hxs.values function hys hys'))

lemma Expr.evalUnary_agree (op : UnaryOp) (position : Int) {x x' : Value}
    (hx : x.Agree k n n' x') :
    Related (Value.Agree k n n') (evalUnary n op position x) (evalUnary n' op position x') := by
  cases op with
  | not => exact .ok (hx.negation hk hk')
  | neg => exact .ok (hx.opposite hk hk')
  | other symbol => exact .error _

lemma Expr.evalBinary_agree (op : BinaryOp) (position : Int) {x x' y y' : Value}
    (hx : x.Agree k n n' x') (hy : y.Agree k n n' y') :
    Related (Value.Agree k n n') (evalBinary n op position x y)
      (evalBinary n' op position x' y') := by
  unfold evalBinary
  split
  · exact .ok (hx.logical hk hk' hy _)
  · next hf _ => exact .ok (hx.arithmetic hk hk' hy (onColumns_eq_zipWith hf))
  · exact .ok (hx.comparison hk hk' hy _)
  · exact .error _

end Evaluation

namespace Expr

/-- The induction over the tree: frames that agree on a prefix of the columns of an expression give
it the same fault or values that agree on that prefix. -/
theorem eval_agree {frame frame' : Frame} (hk : k ≤ frame.length) (hk' : k ≤ frame'.length)
    (e : Expr) (h : ∀ field ∈ e.fields,
      PrefixAgree k frame.length frame'.length (frame.column field) (frame'.column field)) :
    Related (Value.Agree k frame.length frame'.length) (e.eval frame) (e.eval frame') := by
  induction e with
  | binary op left right position ihl ihr =>
    simp only [fields, List.mem_append] at h
    have hleft := ihl fun field hfield => h field (.inl hfield)
    have hright := ihr fun field hfield => h field (.inr hfield)
    simp only [eval]
    exact hleft.bind fun _ _ hx => hright.bind fun _ _ hy =>
      evalBinary_agree hk hk' op position hx hy
  | unary op operand position ih =>
    simp only [fields] at h
    simp only [eval]
    exact (ih h).bind fun _ _ hx => evalUnary_agree hk hk' op position hx
  | literal value position =>
    simp only [eval]
    exact .ok (.scalar _)
  | field name position =>
    simp only [eval, Field.resolve]
    cases hfield : Field.ofLetter? (Text.upper name) with
    | none => exact .error _
    | some field =>
      have hcolumn := h field (by simp [fields, hfield])
      exact .ok (.numeric hcolumn)
  | call name args position ih =>
    have hargs := Related.evalAll fun e he =>
      ih e he fun field hfield => h field (by
        simp only [fields]
        exact fields_subset_fieldsAll he hfield)
    simp only [eval]
    refine (Related.ofFormula _).bind ?_
    rintro indicator _ rfl
    refine hargs.bind fun values values' hvalues => ?_
    -- there are two values over one frame exactly if there are two over the other
    split
    · next second x y =>
      cases hvalues with | cons hx hrest =>
      cases hrest with | cons hy hnil =>
      cases hnil
      exact indicator.eval_agree hk hk' _ hx hy
    · next hshape =>
      split
      · next second x y _ =>
        cases hvalues with | cons hx hrest =>
        cases hrest with | cons hy hnil =>
        cases hnil
        exact absurd rfl (hshape _ _ _ _ rfl)
      · exact .error _
  | bare =>
    simp only [eval]
    exact .error _

/-- Frames with the same first `k` bars in the columns of an expression, whatever their lengths and
whatever else they hold, both give it a value or both do not, and the two values are the same number
and the same truth value at each of these bars. -/
theorem eval_causal (e : Expr) (frame frame' : Frame) (k : Nat) (hk : k ≤ frame.length)
    (hk' : k ≤ frame'.length)
    (h : ∀ field ∈ e.fields, ∀ i < k, (frame.column field)[i]? = (frame'.column field)[i]?) :
    ((∃ v, e.eval frame = .ok v) ↔ ∃ v', e.eval frame' = .ok v') ∧
      ∀ v v', e.eval frame = .ok v → e.eval frame' = .ok v' → ∀ i < k,
        (∃ x, (v.toNumeric frame.length)[i]? = some x ∧
          (v'.toNumeric frame'.length)[i]? = some x) ∧
        ∃ b, (v.toBoolean frame.length)[i]? = some b ∧
          (v'.toBoolean frame'.length)[i]? = some b := by
  have houtcome := eval_agree hk hk' e fun field hfield =>
    .of_getElem? (List.length_map _) (List.length_map _) (h field hfield)
  refine ⟨houtcome.exists_ok_iff, fun v v' hv hv' i hi => ?_⟩
  have hagree := houtcome.of_ok hv hv'
  exact ⟨(hagree.toNumeric hk hk').exists_getElem? hk hi,
    (hagree.toBoolean hk hk').exists_getElem? hk hi⟩

theorem eval_causal_average :
    let average : Expr := .call "MA" [.field "C" 3, .literal 2.0 5] 0
    let frame : Frame := [⟨1, 3, 0, 2, 10⟩, ⟨2, 5, 1, 4, 20⟩, ⟨4, 9, 3, 9, 30⟩]
    let frame' : Frame := [⟨7, 7, 7, 2, 70⟩, ⟨8, 8, 8, 4, 80⟩]
    (∀ field ∈ average.fields, ∀ i < 2,
      (frame.column field)[i]? = (frame'.column field)[i]?) ∧
    average.eval frame = .ok (.numeric [Decimal.nan, 3, 6.5]) ∧
    average.eval frame' = .ok (.numeric [Decimal.nan, 3]) ∧
    ∀ i < 2, ∃ x, ([Decimal.nan, 3, 6.5] : List Float)[i]? = some x ∧
      ([Decimal.nan, 3] : List Float)[i]? = some x := by
  intro average frame frame'
  have hcolumns : ∀ field ∈ average.fields, ∀ i < 2,
      (frame.column field)[i]? = (frame'.column field)[i]? := by decide +kernel
  have hvalue : average.eval frame = .ok (.numeric [Decimal.nan, 3, 6.5]) := by decide +kernel
  have hvalue' : average.eval frame' = .ok (.numeric [Decimal.nan, 3]) := by decide +kernel
  have hcausal := eval_causal average frame frame' 2 (by decide) (by decide) hcolumns
  exact ⟨hcolumns, hvalue, hvalue', fun i hi => (hcausal.2 _ _ hvalue hvalue' i hi).1⟩

end Expr

end MarketFormula
