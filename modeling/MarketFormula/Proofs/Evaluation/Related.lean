import Mathlib.Data.List.Forall2
import MarketFormula.Evaluation.Eval

/-!
# Related evaluations

Two evaluations have related outcomes if they fail in the same way because of the formula, or give
related results. Neither of them may fail because of the data.
-/
namespace MarketFormula

namespace Fault

variable {α : Type} {result : Except FormulaError α}

lemma ofFormula_eq_ok_iff {a : α} : ofFormula result = .ok a ↔ result = .ok a := by
  cases result <;> simp [ofFormula, Except.mapError]

lemma ofFormula_eq_error_iff {fault : Fault} :
    ofFormula result = .error fault ↔ ∃ e, fault = .formula e ∧ result = .error e := by
  cases result <;> simp [ofFormula, Except.mapError, eq_comm]

lemma ofData_eq_ok_iff {result : Except DataError α} {a : α} :
    ofData result = .ok a ↔ result = .ok a := by
  cases result <;> simp [ofData, Except.mapError]

end Fault

inductive Related {α β : Type} (R : α → β → Prop) : Except Fault α → Except Fault β → Prop
  | error (e : FormulaError) : Related R (.error (.formula e)) (.error (.formula e))
  | ok {a : α} {b : β} (h : R a b) : Related R (.ok a) (.ok b)

namespace Related

variable {α β γ δ : Type} {R : α → β → Prop} {S : γ → δ → Prop}
variable {x : Except Fault α} {y : Except Fault β}

lemma bind {f : α → Except Fault γ} {g : β → Except Fault δ} (h : Related R x y)
    (hf : ∀ a b, R a b → Related S (f a) (g b)) : Related S (x >>= f) (y >>= g) := by
  cases h with
  | error e => exact .error e
  | ok hab => exact hf _ _ hab

lemma imp {R' : α → β → Prop} (h : Related R x y) (hR : ∀ a b, R a b → R' a b) :
    Related R' x y := by
  cases h with
  | error e => exact .error e
  | ok hab => exact .ok (hR _ _ hab)

lemma ofFormula (result : Except FormulaError α) :
    Related (· = ·) (Fault.ofFormula result) (Fault.ofFormula result) := by
  cases result with
  | error e => exact .error e
  | ok a => exact .ok rfl

lemma error_iff (h : Related R x y) (fault : Fault) : x = .error fault ↔ y = .error fault := by
  cases h <;> simp

lemma exists_ok_iff (h : Related R x y) : (∃ a, x = .ok a) ↔ ∃ b, y = .ok b := by
  cases h <;> simp

lemma of_ok {a : α} {b : β} (h : Related R x y) (hx : x = .ok a) (hy : y = .ok b) : R a b := by
  cases h with
  | error e => cases hx
  | ok hab => cases hx; cases hy; exact hab

lemma exists_of_ok {a : α} (h : Related R x y) (hx : x = .ok a) : ∃ b, y = .ok b ∧ R a b := by
  cases h with
  | error e => cases hx
  | ok hab => cases hx; exact ⟨_, rfl, hab⟩

lemma exists_of_error {fault : Fault} (h : Related R x y) (hx : x = .error fault) :
    ∃ e, fault = .formula e ∧ y = .error (.formula e) := by
  cases h with
  | error e => cases hx; exact ⟨e, rfl, rfl⟩
  | ok hab => cases hx

lemma evalAll {R : Value → Value → Prop} {frame frame' : Frame} {es : List Expr}
    (h : ∀ e ∈ es, Related R (e.eval frame) (e.eval frame')) :
    Related (List.Forall₂ R) (Expr.evalAll frame es) (Expr.evalAll frame' es) := by
  induction es with
  | nil => exact .ok .nil
  | cons e es ih =>
    have hhead := h e (List.mem_cons_self ..)
    have htail := ih fun e' he' => h e' (List.mem_cons_of_mem _ he')
    simp only [Expr.evalAll]
    exact hhead.bind fun x x' hx => htail.bind fun xs xs' hxs => .ok (.cons hx hxs)

end Related

end MarketFormula
