import MarketFormula.Proofs.Evaluation.Decision
import MarketFormula.Rules.Sweep

/-!
# Checks of single rules

The check of a rule notes why the series or the formula failed. Only a formula that is neither a
text nor missing stops it.
-/
namespace MarketFormula

lemma Series.evaluate_of_not_isFormula {s : Series Float} {formula : Datum} (hs : s ≠ [])
    (hformula : formula.isFormula = false) :
    s.evaluate formula = .error (.data (.wrongType formula.shape)) := by
  have hsome : s.isEmpty = false := List.isEmpty_eq_false_iff.mpr hs
  simp only [evaluate, hsome, Bool.false_eq_true, if_false]
  cases formula with
  | null => cases hformula
  | text formula => cases hformula
  | _ => rfl

namespace Rule

variable {rule : Rule} {fetch : Source} {count : Int}

lemma check_cases {check : RuleCheck} (h : rule.check fetch count = .ok check) :
    check.rule = rule ∧ ((∃ e, fetch rule.code count = .error e ∧ check.outcome = .fetchFailed e) ∨
      ∃ series, fetch rule.code count = .ok series ∧
        ((∃ result, series.evaluate rule.formula = .ok result ∧ check.outcome = .resolved result) ∨
          ∃ e, series.evaluate rule.formula = .error (.formula e) ∧
            check.outcome = .formulaFault e)) := by
  unfold Rule.check at h
  split at h
  · next e hfetch =>
    cases h
    exact ⟨rfl, .inl ⟨e, hfetch, rfl⟩⟩
  · next series hfetch =>
    split at h
    · next result hresult =>
      cases h
      exact ⟨rfl, .inr ⟨series, hfetch, .inl ⟨result, hresult, rfl⟩⟩⟩
    · next e hfault =>
      cases h
      exact ⟨rfl, .inr ⟨series, hfetch, .inr ⟨e, hfault, rfl⟩⟩⟩
    · cases h

lemma isFormula_of_check_eq_error {e : DataError} (h : rule.check fetch count = .error e) :
    rule.formula.isFormula = false := by
  by_contra hformula
  rw [Bool.not_eq_false] at hformula
  unfold Rule.check at h
  split at h
  · cases h
  · next series _ =>
    split at h
    · cases h
    · cases h
    · next hevaluate =>
      obtain ⟨frame, hframe⟩ := series.exists_reads_float
      obtain ⟨error, hfault, -⟩ := Series.exists_of_evaluate_eq_error hframe hformula hevaluate
      cases hfault

lemma check_eq_error_iff {e : DataError} :
    rule.check fetch count = .error e ↔
      e = .wrongType rule.formula.shape ∧ rule.formula.isFormula = false ∧
        ∃ series, fetch rule.code count = .ok series ∧ series ≠ [] := by
  constructor
  · intro h
    have hformula := isFormula_of_check_eq_error h
    unfold check at h
    split at h
    · cases h
    · next series hfetch =>
      by_cases hseries : series = []
      · subst hseries
        cases h
      · rw [Series.evaluate_of_not_isFormula hseries hformula] at h
        cases h
        exact ⟨rfl, hformula, series, hfetch, hseries⟩
  · rintro ⟨rfl, hformula, series, hfetch, hseries⟩
    simp only [check, hfetch, Series.evaluate_of_not_isFormula hseries hformula]

lemma exists_check (hformula : rule.formula.isFormula = true) (fetch : Source) (count : Int) :
    ∃ check, rule.check fetch count = .ok check := by
  cases hcheck : rule.check fetch count with
  | ok check => exact ⟨check, rfl⟩
  | error e =>
    have hnot := isFormula_of_check_eq_error hcheck
    rw [hformula] at hnot
    cases hnot

end Rule

end MarketFormula
