import MarketFormula.Proofs.Evaluation.Signal
import MarketFormula.Proofs.Formula.Acceptance

/-!
# What a decision on a series can come to

Over a series of numbers a formula that is a text, or that is missing, is read and evaluated
without any fault of the data, and in the same way for the last bar as for all bars.
-/
namespace MarketFormula

namespace Expr

variable {frame : Frame}

lemma eval_agree_self (e : Expr) (frame : Frame) :
    Related (Value.Agree frame.length frame.length frame.length) (e.eval frame) (e.eval frame) :=
  eval_agree le_rfl le_rfl e fun _ _ => ⟨List.length_map _, List.length_map _, rfl⟩

lemma exists_of_eval_eq_error {e : Expr} {fault : Fault} (h : e.eval frame = .error fault) :
    ∃ error, fault = .formula error := by
  obtain ⟨error, rfl, -⟩ := (eval_agree_self e frame).exists_of_error h
  exact ⟨error, rfl⟩

lemma length_toNumeric_of_eval {e : Expr} {v : Value} (h : e.eval frame = .ok v) :
    (v.toNumeric frame.length).length = frame.length :=
  (((eval_agree_self e frame).of_ok h h).toNumeric le_rfl le_rfl).length

lemma length_toBoolean_of_eval {e : Expr} {v : Value} (h : e.eval frame = .ok v) :
    (v.toBoolean frame.length).length = frame.length := by
  have hagree := (eval_agree_self e frame).of_ok h h
  exact (hagree.toBoolean le_rfl le_rfl).length

end Expr

def Datum.isFormula (formula : Datum) : Bool :=
  formula.isText || formula.isNull

lemma Expr.exists_of_ofDatum_eq_error {formula : Datum} (hformula : formula.isFormula = true)
    {fault : Fault} (h : ofDatum formula = .error fault) :
    ∃ error, fault = .formula error ∧ error.kind = .malformed := by
  cases formula with
  | null =>
    cases h
    exact ⟨.emptyFormula, rfl, rfl⟩
  | text formula =>
    obtain ⟨error, rfl, hparse⟩ := Fault.ofFormula_eq_error_iff.mp h
    exact ⟨error, rfl, kind_of_parse hparse⟩
  | _ => cases hformula

namespace Series

section Reading

variable {α : Type} {s : Series α} {v : Value} {result : TriggerResult}

lemma resolve_cases (h : s.resolve v = .ok result) : result = .noData ∨
    ∃ last triggered, s.getLast? = some last ∧
      result = .atBar triggered (s.length - 1) last.date := by
  unfold resolve at h
  cases hlast : s.getLast? with
  | none =>
    rw [hlast] at h
    cases h
    exact .inl rfl
  | some last =>
    simp only [hlast, bind_eq_ok_iff] at h
    obtain ⟨triggered, -, hresult⟩ := h
    cases hresult
    exact .inr ⟨last, triggered, rfl, rfl⟩

variable [ToFloat α] {formula : Datum}

lemma evaluate_cases (h : s.evaluate formula = .ok result) : result = .noData ∨
    ∃ text last triggered, formula = .text text ∧ s.getLast? = some last ∧
      result = .atBar triggered (s.length - 1) last.date := by
  simp only [evaluate, evaluateTree] at h
  split at h
  · cases h
    exact .inl rfl
  · obtain ⟨e, he, hvalue⟩ := bind_eq_ok_iff.mp h
    obtain ⟨frame, -, hvalue⟩ := bind_eq_ok_iff.mp hvalue
    obtain ⟨v, -, hresolve⟩ := bind_eq_ok_iff.mp hvalue
    obtain hnone | ⟨last, triggered, hlast, hresult⟩ :=
      resolve_cases (Fault.ofData_eq_ok_iff.mp hresolve)
    · exact .inl hnone
    · cases formula with
      | text text => exact .inr ⟨text, last, triggered, rfl, hlast, hresult⟩
      | _ => cases he

lemma exists_of_evaluate_triggered (h : s.evaluate formula = .ok result)
    (htriggered : result.triggered = true) :
    ∃ text last, formula = .text text ∧ s.getLast? = some last ∧ result.date = last.date := by
  obtain rfl | ⟨text, last, triggered, hformula, hlast, rfl⟩ := evaluate_cases h
  · cases htriggered
  · exact ⟨text, last, hformula, hlast, rfl⟩

variable {frame : Frame}

lemma Reads.evaluateTree_eq (h : s.Reads frame) (hs : s.isEmpty = false) (e : Expr) :
    s.evaluateTree e = e.eval frame >>= fun v => Fault.ofData (s.resolve v) := by
  simp only [evaluateTree, hs, Bool.false_eq_true, if_false, h.toFrame_eq]
  rfl

lemma exists_resolve (h : s.Reads frame) {e : Expr} (hv : e.eval frame = .ok v) :
    ∃ result, s.resolve v = .ok result := by
  cases hlength : s.length with
  | zero =>
    obtain rfl := List.eq_nil_of_length_eq_zero hlength
    exact ⟨.noData, rfl⟩
  | succ last =>
    have hlast : last < s.length := by omega
    have hentry : last < (v.toBoolean frame.length).length := by
      rw [Expr.length_toBoolean_of_eval hv, h.length_eq]
      exact hlast
    have htruth := Value.truthAt_of_getElem? (List.getElem?_eq_getElem hentry)
    have hresolve := resolve_take hlast htruth
    rw [← hlength, List.take_length] at hresolve
    exact ⟨_, hresolve⟩

lemma exists_of_evaluate_eq_error (h : s.Reads frame) (hformula : formula.isFormula = true)
    {fault : Fault} (hfault : s.evaluate formula = .error fault) :
    ∃ error, fault = .formula error ∧
      (Expr.ofDatum formula = .error fault ∧ error.kind = .malformed ∨
        ∃ e, Expr.ofDatum formula = .ok e ∧ e.eval frame = .error (.formula error)) := by
  unfold evaluate at hfault
  split at hfault
  · cases hfault
  · next hs =>
    obtain hread | ⟨e, he, hvalue⟩ := bind_eq_error_iff.mp hfault
    · obtain ⟨error, rfl, hkind⟩ := Expr.exists_of_ofDatum_eq_error hformula hread
      exact ⟨error, rfl, .inl ⟨hread, hkind⟩⟩
    · rw [h.evaluateTree_eq (Bool.eq_false_of_not_eq_true hs)] at hvalue
      obtain heval | ⟨v, hv, hresolve⟩ := bind_eq_error_iff.mp hvalue
      · obtain ⟨error, rfl⟩ := Expr.exists_of_eval_eq_error heval
        exact ⟨error, rfl, .inr ⟨e, he, heval⟩⟩
      · obtain ⟨result, hresult⟩ := exists_resolve h hv
        rw [hresult] at hresolve
        cases hresolve

lemma signal_agree_last (h : s.Reads frame) (formula : String) :
    Related (fun (signals : List Bool) (result : TriggerResult) => signals.length = s.length ∧
        ∀ last, signals.getLast? = some last → last = result.triggered)
      (s.signal (.text formula)) (s.evaluate (.text formula)) := by
  cases hlength : s.length with
  | zero =>
    obtain rfl := List.eq_nil_of_length_eq_zero hlength
    exact .ok ⟨rfl, by simp⟩
  | succ n =>
    have hagree := signal_agree h formula (show n < s.length by omega)
    rw [← hlength, List.take_length] at hagree
    refine hagree.imp fun signals result ⟨hsame, hentry, _⟩ => ⟨hsame.trans hlength, ?_⟩
    intro last hlast
    rw [List.getLast?_eq_getElem?, hsame, hlength, Nat.add_sub_cancel, hentry] at hlast
    exact (Option.some.inj hlast).symm

lemma signal_eq_error_iff (h : s.Reads frame) (formula : String) (fault : Fault) :
    s.signal (.text formula) = .error fault ↔ s.evaluate (.text formula) = .error fault :=
  (signal_agree_last h formula).error_iff fault

end Reading

lemma exists_reads_float (s : Series Float) : ∃ frame, s.Reads frame :=
  exists_reads fun bar _ => ⟨bar.toQuote, bar.toQuote.read_float⟩

end Series

end MarketFormula
