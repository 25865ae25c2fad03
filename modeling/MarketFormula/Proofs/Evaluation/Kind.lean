import MarketFormula.Proofs.Evaluation.Agreement
import MarketFormula.Proofs.Evaluation.Call
import MarketFormula.Proofs.Text.CaseChange

/-!
# The outcome of an evaluation does not depend on the data

Whether an expression fails, with which fault, and whether its value is a number, a truth value or
a column of either can be read off the expression.
-/
namespace MarketFormula

namespace Value

def isBoolean : Value → Bool
  | scalar s => s.isTruth
  | numeric _ => false
  | boolean _ => true

/-- The same scalar, or columns of one kind with an entry for each of `n` and of `n'` bars. -/
inductive SameKind (n n' : Nat) : Value → Value → Prop
  | scalar (s : Scalar) : SameKind n n' (.scalar s) (.scalar s)
  | numeric {xs xs' : List Float} (h : xs.length = n) (h' : xs'.length = n') :
    SameKind n n' (.numeric xs) (.numeric xs')
  | boolean {bs bs' : List Bool} (h : bs.length = n) (h' : bs'.length = n') :
    SameKind n n' (.boolean bs) (.boolean bs')

lemma Agree.sameKind {k n n' : Nat} {v v' : Value} (h : Agree k n n' v v') :
    SameKind n n' v v' := by
  cases h with
  | scalar s => exact .scalar s
  | numeric h => exact .numeric h.length h.length'
  | boolean h => exact .boolean h.length h.length'

variable (n : Nat) (x y : Value)

lemma isVector_negation : (x.negation n).isVector = x.isVector := by
  cases x <;> rfl

lemma isVector_opposite : (x.opposite n).isVector = x.isVector := by
  cases x <;> rfl

lemma isVector_arithmetic (f : Arithmetic) :
    (arithmetic n f x y).isVector = (x.isVector || y.isVector) := by
  cases x <;> cases y <;> rfl

lemma isVector_comparison (f : Float → Float → Bool) :
    (comparison n f x y).isVector = (x.isVector || y.isVector) := by
  cases x <;> cases y <;> rfl

lemma isVector_logical (f : Bool → Bool → Bool) :
    (logical n f x y).isVector = (x.isVector || y.isVector) := by
  cases x <;> cases y <;> rfl

lemma isBoolean_negation : (x.negation n).isBoolean = true := by
  cases x <;> rfl

lemma isBoolean_opposite : (x.opposite n).isBoolean = false := by
  cases x <;> rfl

lemma isBoolean_arithmetic (f : Arithmetic) : (arithmetic n f x y).isBoolean = false := by
  cases x <;> cases y <;> rfl

lemma isBoolean_comparison (f : Float → Float → Bool) :
    (comparison n f x y).isBoolean = true := by
  cases x <;> cases y <;> rfl

lemma isBoolean_logical (f : Bool → Bool → Bool) : (logical n f x y).isBoolean = true := by
  cases x <;> cases y <;> rfl

end Value

namespace Indicator

variable {n : Nat} {position : Int} {x y v : Value} {indicator : Indicator}

lemma isVector_of_eval (h : indicator.eval n position x y = .ok v) : v.isVector = true := by
  cases indicator with
  | cross =>
    cases h
    rfl
  | windowed function =>
    simp only [eval, bind_eq_ok_iff] at h
    obtain ⟨window, -, column, -, hvalue⟩ := h
    cases hvalue
    rfl

lemma isBoolean_of_eval (h : indicator.eval n position x y = .ok v) :
    v.isBoolean = (indicator.name == "CROSS") := by
  cases indicator with
  | cross =>
    cases h
    rfl
  | windowed function =>
    simp only [eval, bind_eq_ok_iff] at h
    obtain ⟨window, -, column, -, hvalue⟩ := h
    cases hvalue
    cases function <;> rfl

end Indicator

namespace Expr

def isConstant : Expr → Bool
  | binary _ left right _ => left.isConstant && right.isConstant
  | unary _ operand _ => operand.isConstant
  | field .. | call .. => false
  | literal .. | bare => true

/-- Whether an expression is at its root a logical operator, a comparison or a crossing. -/
def isCondition : Expr → Bool
  | binary op .. => [.and, .or, .gt, .ge, .lt, .le, .eq, .ne].contains op
  | unary op .. => op == .not
  | call name .. => Text.upper name == "CROSS"
  | _ => false

variable {n : Nat} {position : Int} {x y v : Value}

lemma isVector_of_evalUnary {op : UnaryOp} (h : evalUnary n op position x = .ok v) :
    v.isVector = x.isVector := by
  cases op with
  | not => cases h; exact x.isVector_negation n
  | neg => cases h; exact x.isVector_opposite n
  | other symbol => cases h

lemma isBoolean_of_evalUnary {op : UnaryOp} (h : evalUnary n op position x = .ok v) :
    v.isBoolean = (op == .not) := by
  cases op with
  | not => cases h; exact x.isBoolean_negation n
  | neg => cases h; exact x.isBoolean_opposite n
  | other symbol => cases h

lemma isVector_of_evalBinary {op : BinaryOp} (h : evalBinary n op position x y = .ok v) :
    v.isVector = (x.isVector || y.isVector) := by
  unfold evalBinary at h
  split at h
  · cases h; exact x.isVector_logical n y _
  · cases h; exact x.isVector_arithmetic n y _
  · cases h; exact x.isVector_comparison n y _
  · cases h

lemma isBoolean_of_evalBinary {op : BinaryOp} (h : evalBinary n op position x y = .ok v) :
    v.isBoolean = [.and, .or, .gt, .ge, .lt, .le, .eq, .ne].contains op := by
  cases op <;> cases h
  case and | or => exact x.isBoolean_logical n y _
  case add | sub | mul | div => exact x.isBoolean_arithmetic n y _
  all_goals exact x.isBoolean_comparison n y _

variable {frame : Frame}

lemma isVector_of_eval {e : Expr} (h : e.eval frame = .ok v) : v.isVector = !e.isConstant := by
  induction e generalizing v with
  | binary op left right position ihl ihr =>
    simp only [eval, bind_eq_ok_iff] at h
    obtain ⟨x, hx, y, hy, hvalue⟩ := h
    rw [isVector_of_evalBinary hvalue, ihl hx, ihr hy, isConstant, Bool.not_and]
  | unary op operand position ih =>
    simp only [eval, bind_eq_ok_iff] at h
    obtain ⟨x, hx, hvalue⟩ := h
    rw [isVector_of_evalUnary hvalue, ih hx, isConstant]
  | literal value position =>
    simp only [eval] at h
    cases h
    rfl
  | field name position =>
    simp only [eval, bind_eq_ok_iff] at h
    obtain ⟨field, -, hvalue⟩ := h
    cases hvalue
    rfl
  | call name args position _ =>
    obtain ⟨indicator, _, _, x, y, -, -, -, -, hvalue⟩ := eval_call_eq_ok_iff.mp h
    exact Indicator.isVector_of_eval hvalue
  | bare =>
    simp only [eval] at h
    cases h

lemma isBoolean_of_eval {e : Expr} (h : e.eval frame = .ok v) : v.isBoolean = e.isCondition := by
  -- only the root decides, so no induction is needed
  cases e with
  | binary op left right position =>
    simp only [eval, bind_eq_ok_iff] at h
    obtain ⟨x, -, y, -, hvalue⟩ := h
    exact isBoolean_of_evalBinary hvalue
  | unary op operand position =>
    simp only [eval, bind_eq_ok_iff] at h
    obtain ⟨x, -, hvalue⟩ := h
    exact isBoolean_of_evalUnary hvalue
  | literal value position =>
    simp only [eval] at h
    cases h
    rfl
  | field name position =>
    simp only [eval, bind_eq_ok_iff] at h
    obtain ⟨field, -, hvalue⟩ := h
    cases hvalue
    rfl
  | call name args position =>
    obtain ⟨indicator, _, _, x, y, hname, -, -, -, hvalue⟩ := eval_call_eq_ok_iff.mp h
    -- the name is put into upper case once by the call and once more where it is looked up
    have htwice : Text.upper (Text.upper name) = "CROSS" ↔ Text.upper name = "CROSS" := by
      refine ⟨fun h => Text.upper_eq_of_upper_upper h (by simp), fun h => ?_⟩
      rw [h]
      decide +kernel
    rw [Indicator.isBoolean_of_eval hvalue, Indicator.name_of_ofName? hname, isCondition,
      Bool.eq_iff_iff, beq_iff_eq, beq_iff_eq, htwice]
  | bare =>
    simp only [eval] at h
    cases h

/-- Over any two frames an expression has the same fault, the same scalar, or columns of one kind
with an entry for each bar of their frames. Its value is a scalar if it refers to no column and
calls no indicator, and made of truth values if its root is a condition. -/
theorem eval_uniform (e : Expr) (frame frame' : Frame) :
    Related (Value.SameKind frame.length frame'.length) (e.eval frame) (e.eval frame') ∧
      ∀ v, e.eval frame = .ok v →
        (v.isVector = false ↔ e.isConstant = true) ∧
          (v.isBoolean = true ↔ e.isCondition = true) := by
  have hagree := eval_agree (Nat.zero_le _) (Nat.zero_le _) e fun field _ =>
    (⟨List.length_map _, List.length_map _, rfl⟩ :
      PrefixAgree 0 frame.length frame'.length (frame.column field) (frame'.column field))
  refine ⟨hagree.imp fun _ _ h => h.sameKind, fun v hv => ⟨?_, ?_⟩⟩
  · rw [isVector_of_eval hv, Bool.not_eq_false']
  · rw [isBoolean_of_eval hv]

theorem eval_uniform_crossing :
    let crossing : Expr := .call "cross" [.field "C" 6, .literal 2.0 9] 0
    let frame : Frame := [⟨1, 1, 1, 1, 10⟩, ⟨3, 3, 3, 3, 10⟩]
    crossing.eval frame = .ok (.boolean [false, true]) ∧
    Related (Value.SameKind 2 0) (crossing.eval frame) (crossing.eval []) ∧
    (Value.boolean [false, true]).isVector = true ∧ crossing.isCondition = true := by
  intro crossing frame
  have hvalue : crossing.eval frame = .ok (.boolean [false, true]) := by decide +kernel
  obtain ⟨hrelated, hkind⟩ := eval_uniform crossing frame []
  exact ⟨hvalue, hrelated, rfl, (hkind _ hvalue).2.mp rfl⟩

end Expr

end MarketFormula
