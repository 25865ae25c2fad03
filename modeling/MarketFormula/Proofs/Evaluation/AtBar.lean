import MarketFormula.Proofs.Evaluation.Barwise
import MarketFormula.Proofs.Evaluation.Related
import MarketFormula.Proofs.Formula.Tree
import MarketFormula.Proofs.Result

/-!
# Values at one bar

An expression without calls has at every bar the value of the same expression over the numbers of
that bar. The first is computed on whole columns and the second on scalars alone.
-/
namespace MarketFormula

namespace Expr

mutual

/-- An expression whose columns are replaced by their numbers in a quote. -/
def atBar (q : Quote Float) : Expr → Expr
  | binary op left right position => .binary op (left.atBar q) (right.atBar q) position
  | unary op operand position => .unary op (operand.atBar q) position
  | literal value position => .literal value position
  | field name position =>
    match Field.ofLetter? (Text.upper name) with
    | some column => .literal (q.get column) position
    | none => .field name position
  | call name args position => .call name (atBarAll q args) position
  | bare => .bare

def atBarAll (q : Quote Float) : List Expr → List Expr
  | [] => []
  | e :: es => e.atBar q :: atBarAll q es

end

def isCallFree : Expr → Bool
  | binary _ left right _ => left.isCallFree && right.isCallFree
  | unary _ operand _ => operand.isCallFree
  | call .. => false
  | _ => true

/-- The expressions that an expression consists of, itself among them. -/
inductive IsPart (part : Expr) : Expr → Prop
  | self : IsPart part part
  | child {child e : Expr} (hchild : child ∈ e.children) (h : IsPart part child) : IsPart part e

lemma fields_subset_of_mem_children {e child : Expr} (h : child ∈ e.children) :
    child.fields ⊆ e.fields := by
  cases e with
  | binary op left right position =>
    simp only [children, List.mem_cons, List.not_mem_nil, or_false] at h
    rw [fields]
    rcases h with rfl | rfl
    · exact List.subset_append_left _ _
    · exact List.subset_append_right _ _
  | unary op operand position =>
    obtain rfl := List.mem_singleton.mp h
    rw [fields]
    exact List.Subset.refl _
  | call name args position =>
    rw [fields]
    exact fields_subset_fieldsAll h
  | _ => cases h

lemma isCallFree_of_mem_children {e child : Expr} (h : child ∈ e.children)
    (he : e.isCallFree = true) : child.isCallFree = true := by
  cases e with
  | binary op left right position =>
    rw [isCallFree, Bool.and_eq_true] at he
    simp only [children, List.mem_cons, List.not_mem_nil, or_false] at h
    rcases h with rfl | rfl
    · exact he.1
    · exact he.2
  | unary op operand position =>
    obtain rfl := List.mem_singleton.mp h
    exact he
  | call name args position => cases he
  | _ => cases h

namespace IsPart

variable {part e : Expr}

lemma fields_subset (h : IsPart part e) : part.fields ⊆ e.fields := by
  induction h with
  | self => exact List.Subset.refl _
  | child hchild _ ih => exact List.Subset.trans ih (fields_subset_of_mem_children hchild)

lemma isCallFree (h : IsPart part e) (he : e.isCallFree = true) : part.isCallFree = true := by
  induction h with
  | self => exact he
  | child hchild _ ih => exact ih (isCallFree_of_mem_children hchild he)

end IsPart

lemma fields_atBar (q : Quote Float) {e : Expr} (h : e.isCallFree = true) :
    (e.atBar q).fields = [] := by
  induction e with
  | binary op left right position ihl ihr =>
    rw [isCallFree, Bool.and_eq_true] at h
    rw [atBar, fields, ihl h.1, ihr h.2, List.append_nil]
  | unary op operand position ih => rw [atBar, fields, ih h]
  | field name position =>
    rw [atBar]
    cases hcolumn : Field.ofLetter? (Text.upper name) with
    | some column => rfl
    | none => simp [fields, hcolumn]
  | call name args position => cases h
  | literal value position => rfl
  | bare => rfl

lemma isCallFree_atBar (q : Quote Float) {e : Expr} (h : e.isCallFree = true) :
    (e.atBar q).isCallFree = true := by
  induction e with
  | binary op left right position ihl ihr =>
    rw [isCallFree, Bool.and_eq_true] at h
    rw [atBar, isCallFree, ihl h.1, ihr h.2, Bool.and_self]
  | unary op operand position ih => rw [atBar, isCallFree, ih h]
  | field name position =>
    rw [atBar]
    split <;> rfl
  | call name args position => cases h
  | literal value position => rfl
  | bare => rfl

end Expr

namespace Value

/-- A value has a scalar as its entry at bar `i`. -/
inductive AtBar (i : Nat) : Value → Scalar → Prop
  | scalar (s : Scalar) : AtBar i (.scalar s) s
  | numeric {xs : List Float} {x : Float} (h : xs[i]? = some x) : AtBar i (.numeric xs) (.number x)
  | boolean {bs : List Bool} {b : Bool} (h : bs[i]? = some b) : AtBar i (.boolean bs) (.truth b)

namespace AtBar

variable {n i : Nat} (hi : i < n) {v w : Value} {s t : Scalar} (hv : v.AtBar i s) (hw : w.AtBar i t)

include hi hv

lemma toNumeric : (v.toNumeric n)[i]? = some s.toFloat := by
  cases hv with
  | scalar => exact List.getElem?_replicate_of_lt hi
  | numeric h => exact h
  | boolean h => simp [Value.toNumeric, Scalar.toFloat, h]

lemma toBoolean : (v.toBoolean n)[i]? = some s.toBool := by
  cases hv with
  | scalar => exact List.getElem?_replicate_of_lt hi
  | numeric h => simp [Value.toBoolean, truths_eq_map, Scalar.toBool, h]
  | boolean h => exact h

lemma negation : (v.negation n).AtBar i (.truth !s.toBool) := by
  have hentry : ((v.toBoolean n).map (!·))[i]? = some (!s.toBool) := by
    rw [List.getElem?_map, hv.toBoolean hi, Option.map_some]
  cases hv with
  | scalar => exact .scalar _
  | numeric h => exact .boolean hentry
  | boolean h => exact .boolean hentry

lemma opposite : (v.opposite n).AtBar i (.number (-s.toFloat)) := by
  have hentry : ((v.toNumeric n).map (- ·))[i]? = some (-s.toFloat) := by
    rw [List.getElem?_map, hv.toNumeric hi, Option.map_some]
  cases hv with
  | scalar => exact .scalar _
  | numeric h => exact .numeric hentry
  | boolean h => exact .numeric hentry

include hw

lemma arithmetic {f : Arithmetic}
    (hf : ∀ xs ys, f.onColumns xs ys = List.zipWith f.onScalars xs ys) :
    (Value.arithmetic n f v w).AtBar i (.number (f.onScalars s.toFloat t.toFloat)) := by
  have hentry : (f.onColumns (v.toNumeric n) (w.toNumeric n))[i]? =
      some (f.onScalars s.toFloat t.toFloat) := by
    rw [hf, List.getElem?_zipWith, hv.toNumeric hi, hw.toNumeric hi]
  cases hv <;> cases hw
  case scalar.scalar => exact .scalar _
  all_goals exact .numeric hentry

lemma comparison (f : Float → Float → Bool) :
    (Value.comparison n f v w).AtBar i (.truth (compareScalars f s.toFloat t.toFloat)) := by
  have hentry : (compareColumns f (v.toNumeric n) (w.toNumeric n))[i]? =
      some (compareScalars f s.toFloat t.toFloat) := by
    rw [compareColumns_eq_zipWith, List.getElem?_zipWith, hv.toNumeric hi, hw.toNumeric hi]
  cases hv <;> cases hw
  case scalar.scalar => exact .scalar _
  all_goals exact .boolean hentry

lemma logical (f : Bool → Bool → Bool) :
    (Value.logical n f v w).AtBar i (.truth (f s.toBool t.toBool)) := by
  have hentry : (List.zipWith f (v.toBoolean n) (w.toBoolean n))[i]? =
      some (f s.toBool t.toBool) := by
    rw [List.getElem?_zipWith, hv.toBoolean hi, hw.toBoolean hi]
  cases hv <;> cases hw
  case scalar.scalar => exact .scalar _
  all_goals exact .boolean hentry

end AtBar

lemma exists_scalar_unary {n : Nat} {op : UnaryOp} {position : Int} {s : Scalar} {v : Value}
    (h : Expr.evalUnary n op position (.scalar s) = .ok v) : ∃ s', v = .scalar s' := by
  cases op <;> cases h <;> exact ⟨_, rfl⟩

lemma exists_scalar_binary {n : Nat} {op : BinaryOp} {position : Int} {s t : Scalar} {v : Value}
    (h : Expr.evalBinary n op position (.scalar s) (.scalar t) = .ok v) :
    ∃ s', v = .scalar s' := by
  unfold Expr.evalBinary at h
  split at h <;> cases h <;> exact ⟨_, rfl⟩

end Value

namespace Expr

theorem exists_scalar_of_eval {frame : Frame} {e : Expr} (hcalls : e.isCallFree = true)
    (hfields : e.fields = []) {v : Value} (hv : e.eval frame = .ok v) : ∃ s, v = .scalar s := by
  induction e generalizing v with
  | binary op left right position ihl ihr =>
    rw [isCallFree, Bool.and_eq_true] at hcalls
    rw [fields, List.append_eq_nil_iff] at hfields
    simp only [eval, bind_eq_ok_iff] at hv
    obtain ⟨x, hx, y, hy, hv⟩ := hv
    obtain ⟨s, rfl⟩ := ihl hcalls.1 hfields.1 hx
    obtain ⟨t, rfl⟩ := ihr hcalls.2 hfields.2 hy
    exact Value.exists_scalar_binary hv
  | unary op operand position ih =>
    rw [isCallFree] at hcalls
    rw [fields] at hfields
    simp only [eval, bind_eq_ok_iff] at hv
    obtain ⟨x, hx, hv⟩ := hv
    obtain ⟨s, rfl⟩ := ih hcalls hfields hx
    exact Value.exists_scalar_unary hv
  | literal value position =>
    simp only [eval] at hv
    cases hv
    exact ⟨_, rfl⟩
  | field name position =>
    simp only [fields, Option.toList_eq_nil_iff] at hfields
    simp [eval, Field.resolve, hfields, Fault.ofFormula, Except.mapError, bind, Except.bind] at hv
  | call name args position => cases hcalls
  | bare =>
    simp only [eval] at hv
    cases hv

section Evaluation

variable {n i : Nat} (hi : i < n)

include hi

lemma evalUnary_atBar (op : UnaryOp) (position : Int) {v : Value} {s : Scalar}
    (hv : v.AtBar i s) :
    Related (fun v w => ∃ s, w = .scalar s ∧ v.AtBar i s) (evalUnary n op position v)
      (evalUnary n op position (.scalar s)) := by
  cases op with
  | not => exact .ok ⟨_, rfl, hv.negation hi⟩
  | neg => exact .ok ⟨_, rfl, hv.opposite hi⟩
  | other symbol => exact .error _

lemma evalBinary_atBar (op : BinaryOp) (position : Int) {v w : Value} {s t : Scalar}
    (hv : v.AtBar i s) (hw : w.AtBar i t) :
    Related (fun v w => ∃ s, w = .scalar s ∧ v.AtBar i s) (evalBinary n op position v w)
      (evalBinary n op position (.scalar s) (.scalar t)) := by
  unfold evalBinary
  split
  · exact .ok ⟨_, rfl, hv.logical hi hw _⟩
  · next hf _ => exact .ok ⟨_, rfl, hv.arithmetic hi hw (onColumns_eq_zipWith hf)⟩
  · exact .ok ⟨_, rfl, hv.comparison hi hw _⟩
  · exact .error _

end Evaluation

lemma eval_atBar_agree {frame : Frame} {i : Nat} (hi : i < frame.length) {e : Expr}
    (h : e.isCallFree = true) :
    Related (fun v w => ∃ s, w = .scalar s ∧ v.AtBar i s) (e.eval frame)
      ((e.atBar frame[i]).eval frame) := by
  -- by induction over the tree; each operator keeps the entry at a bar
  induction e with
  | binary op left right position ihl ihr =>
    rw [isCallFree, Bool.and_eq_true] at h
    simp only [atBar, eval]
    refine (ihl h.1).bind ?_
    rintro x _ ⟨s, rfl, hx⟩
    refine (ihr h.2).bind ?_
    rintro y _ ⟨t, rfl, hy⟩
    exact evalBinary_atBar hi op position hx hy
  | unary op operand position ih =>
    simp only [atBar, eval]
    refine (ih h).bind ?_
    rintro x _ ⟨s, rfl, hx⟩
    exact evalUnary_atBar hi op position hx
  | literal value position =>
    simp only [atBar, eval]
    exact .ok ⟨_, rfl, .scalar _⟩
  | field name position =>
    rw [atBar]
    cases hcolumn : Field.ofLetter? (Text.upper name) with
    | none =>
      simp only [eval, Field.resolve, hcolumn]
      exact .error _
    | some column =>
      have hentry : (frame.column column)[i]? = some (frame[i].get column) := by
        rw [Frame.column, List.getElem?_map, List.getElem?_eq_getElem hi, Option.map_some]
      simp only [eval, Field.resolve, hcolumn]
      exact .ok ⟨_, rfl, .numeric hentry⟩
  | call name args position => cases h
  | bare =>
    simp only [atBar, eval]
    exact .error _

/-- An expression without calls and the same expression over the numbers of bar `i` fail alike, or
the second is a scalar that is the entry of the first at `i`, as a number and as a truth value. All
parts of the second that have a value are scalars. -/
theorem eval_atBar (e : Expr) (h : e.isCallFree = true) (frame : Frame) (i : Nat)
    (hi : i < frame.length) :
    ((∃ fault, e.eval frame = .error fault ∧ (e.atBar frame[i]).eval frame = .error fault) ∨
      ∃ v s, e.eval frame = .ok v ∧ (e.atBar frame[i]).eval frame = .ok (.scalar s) ∧
        (v.toNumeric frame.length)[i]? = some s.toFloat ∧
        (v.toBoolean frame.length)[i]? = some s.toBool) ∧
    ∀ part w, IsPart part (e.atBar frame[i]) → part.eval frame = .ok w → ∃ s, w = .scalar s := by
  have hagree := eval_atBar_agree hi h
  constructor
  · cases hv : e.eval frame with
    | error fault =>
      exact .inl ⟨fault, rfl, (hagree.error_iff fault).mp hv⟩
    | ok v =>
      obtain ⟨_, hw, s, rfl, hat⟩ := hagree.exists_of_ok hv
      exact .inr ⟨v, s, rfl, hw, hat.toNumeric hi, hat.toBoolean hi⟩
  · intro part w hpart hw
    have hfields : part.fields ⊆ [] := fields_atBar frame[i] h ▸ hpart.fields_subset
    exact exists_scalar_of_eval (hpart.isCallFree (isCallFree_atBar frame[i] h))
      (List.subset_nil.mp hfields) hw

/-- A rise against a volume divided by a truth value: on the first of two days that is a division by
zero, on the second both sides are equal. -/
theorem eval_atBar_division :
    let e : Expr := .binary .ge (.binary .sub (.field "C" 0) (.field "o" 4) 2)
      (.binary .div (.field "V" 9) (.unary .not (.field "H" 17) 13) 11) 6
    let frame : Frame := [⟨1, 3, 0, 2, 10⟩, ⟨2, 0, 1, 4, 2⟩]
    e.isCallFree = true ∧ e.eval frame = .ok (.boolean [false, true]) ∧
      (e.atBar ⟨2, 0, 1, 4, 2⟩).eval frame = .ok (.scalar (.truth true)) ∧
      ([false, true] : List Bool)[1]? = some (Scalar.truth true).toBool := by
  intro e frame
  have hvalue : e.eval frame = .ok (.boolean [false, true]) := by decide +kernel
  have hscalar : (e.atBar ⟨2, 0, 1, 4, 2⟩).eval frame = .ok (.scalar (.truth true)) := by
    decide +kernel
  obtain ⟨fault, hfault, -⟩ | ⟨v, s, hv, hs, -, hentry⟩ :=
    (eval_atBar e (by decide) frame 1 (by decide)).1
  · cases hvalue.symm.trans hfault
  · cases hvalue.symm.trans hv
    cases hscalar.symm.trans hs
    exact ⟨by decide, hvalue, hscalar, hentry⟩

end Expr

end MarketFormula
