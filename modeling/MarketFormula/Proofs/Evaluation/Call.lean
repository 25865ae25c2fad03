import MarketFormula.Proofs.Evaluation.Related
import MarketFormula.Proofs.Result

/-!
# The outcome of a call

A call has a value if its name stands for an indicator, it has two arguments, and the indicator has
a value at theirs.
-/
namespace MarketFormula

namespace Indicator

variable {name : String} {count : Int} {position? : Option Int} {indicator : Indicator}

lemma resolve_eq_ok_iff : resolve name count position? = .ok indicator ↔
    ofName? (Text.upper name) = some indicator ∧ count = arity := by
  unfold resolve
  cases ofName? (Text.upper name) with
  | none => simp
  | some found =>
    dsimp only
    split
    · next hcount => simp [hcount]
    · next hcount => simp [hcount]

lemma name_of_ofName? (h : ofName? name = some indicator) : indicator.name = name := by
  have hname := List.find?_some h
  exact eq_of_beq hname

end Indicator

namespace Expr

variable {frame : Frame} {name : String} {args : List Expr} {position : Int}

lemma evalAll_eq_mapM (es : List Expr) : evalAll frame es = es.mapM (eval frame) := by
  induction es with
  | nil => rfl
  | cons e es ih =>
    rw [evalAll, List.mapM_cons, ih]

lemma evalAll_eq_ok_iff {values : List Value} : evalAll frame args = .ok values ↔
    List.Forall₂ (fun e v => e.eval frame = .ok v) args values := by
  rw [evalAll_eq_mapM]
  exact ⟨forall₂_of_mapM_eq_ok, mapM_eq_ok⟩

lemma exists_of_evalAll_eq_error {fault : Fault} (h : evalAll frame args = .error fault) :
    ∃ e ∈ args, e.eval frame = .error fault := by
  rw [evalAll_eq_mapM, mapM_eq_error_iff] at h
  obtain ⟨before, e, after, rfl, -, he⟩ := h
  exact ⟨e, by simp, he⟩

lemma eval_call_eq_ok_iff {v : Value} : (call name args position).eval frame = .ok v ↔
    ∃ indicator first second x y,
      Indicator.ofName? (Text.upper (Text.upper name)) = some indicator ∧ args = [first, second] ∧
      first.eval frame = .ok x ∧ second.eval frame = .ok y ∧
      indicator.eval frame.length second.position x y = .ok v := by
  simp only [eval, bind_eq_ok_iff, Fault.ofFormula_eq_ok_iff, Indicator.resolve_eq_ok_iff,
    evalAll_eq_ok_iff]
  constructor
  · rintro ⟨indicator, ⟨hname, -⟩, values, hvalues, hvalue⟩
    split at hvalue
    · next first second x y =>
      cases hvalues with | cons hx hrest =>
      cases hrest with | cons hy _ =>
      exact ⟨indicator, first, second, x, y, hname, rfl, hx, hy, hvalue⟩
    · cases hvalue
  · rintro ⟨indicator, first, second, x, y, hname, rfl, hx, hy, hvalue⟩
    exact ⟨indicator, ⟨hname, rfl⟩, [x, y], .cons hx (.cons hy .nil), hvalue⟩

lemma cases_of_eval_call_eq_error {fault : Fault}
    (h : (call name args position).eval frame = .error fault) :
    (∃ error, fault = .formula error ∧
      Indicator.resolve (Text.upper name) args.length (some position) = .error error) ∨
    (∃ e ∈ args, e.eval frame = .error fault) ∨
    ∃ indicator first second x y,
      Indicator.ofName? (Text.upper (Text.upper name)) = some indicator ∧ args = [first, second] ∧
      first.eval frame = .ok x ∧ second.eval frame = .ok y ∧
      indicator.eval frame.length second.position x y = .error fault := by
  simp only [eval, bind_eq_error_iff, Fault.ofFormula_eq_ok_iff, Fault.ofFormula_eq_error_iff,
    Indicator.resolve_eq_ok_iff, evalAll_eq_ok_iff] at h
  obtain hresolve | ⟨indicator, ⟨hname, hcount⟩, hargs | ⟨values, hvalues, hvalue⟩⟩ := h
  · exact .inl hresolve
  · exact .inr (.inl (exists_of_evalAll_eq_error hargs))
  -- two arguments have two values, so that the last branch is out of reach
  · rw [Indicator.arity] at hcount
    obtain ⟨first, second, rfl⟩ := List.length_eq_two.mp (show args.length = 2 by omega)
    cases hvalues with | @cons _ x _ _ hx hrest =>
    cases hrest with | @cons _ y _ _ hy hnil =>
    cases hnil
    exact .inr (.inr ⟨indicator, first, second, x, y, hname, rfl, hx, hy, hvalue⟩)

end Expr

end MarketFormula
