import MarketFormula.Proofs.Evaluation.Lookback
import MarketFormula.Proofs.Rules.Isolation

/-!
# The number of bars of a sweep

Rules whose formulas call no average decide in the same way over any two numbers of bars that exceed
the lookback. Of the results of a sweep only the places of the last bars depend on the number.
-/
namespace MarketFormula

lemma Provider.get_cases (provider : Provider) (code : Datum) :
    (∃ error, ∀ count, provider.get code count = .error error) ∨
      ∃ s : Series Float, ∀ count, provider.get code count = .ok (s.tail count) := by
  unfold Provider.get
  cases code.checkKey with
  | error error => exact .inl ⟨error, fun _ => rfl⟩
  | ok =>
    cases provider.find? code with
    | none => exact .inl ⟨_, fun _ => rfl⟩
    | some s => exact .inr ⟨s, fun _ => rfl⟩

namespace RuleCheck

/-- Checks of a rule with the same outcome, up to the place of the last bar. -/
structure SameOutcome (check check' : RuleCheck) : Prop where
  triggered : check.isTriggered = check'.isTriggered
  alert : check.alert? = check'.alert?
  error : check.outcome.error? = check'.outcome.error?

lemma sameOutcome_resolved (rule : Rule) {result result' : TriggerResult}
    (h : result.SameDecision result') :
    SameOutcome ⟨rule, .resolved result⟩ ⟨rule, .resolved result'⟩ where
  triggered := by simp [isTriggered, Outcome.isTriggered, Outcome.result?, h.triggered]
  alert := by
    simp only [alert?, Outcome.result?, Option.filter, h.triggered]
    split <;> simp [h.date]
  error := rfl

end RuleCheck

lemma Rule.check_tail {rule : Rule} {text : String} {e : Expr}
    (hformula : rule.formula = .text text) (hparse : Expr.parse text = .ok e) (hfree : e.averageFree = true) {m m' : Int}
    (hm : (e.lookback : Int) < m) (hm' : (e.lookback : Int) < m') (provider : Provider) :
    ∃ check check', rule.check provider m = .ok check ∧ rule.check provider m' = .ok check' ∧
      check.SameOutcome check' := by
  obtain ⟨error, hget⟩ | ⟨s, hget⟩ := provider.get_cases rule.code
  · refine ⟨⟨rule, .fetchFailed error⟩, ⟨rule, .fetchFailed error⟩, ?_, ?_, rfl, rfl, rfl⟩
    · simp only [Rule.check, hget]
    · simp only [Rule.check, hget]
  obtain ⟨frame, hframe⟩ := s.exists_reads_float
  have htail := Series.evaluateTree_tail hframe hfree hm
  have htail' := Series.evaluateTree_tail hframe hfree hm'
  cases hvalue : s.evaluateTree e with
  | error fault =>
    obtain ⟨error, rfl, herror⟩ := htail.exists_of_error hvalue
    have herror' := (htail'.error_iff _).mp hvalue
    refine ⟨⟨rule, .formulaFault error⟩, ⟨rule, .formulaFault error⟩, ?_, ?_, rfl, rfl, rfl⟩
    · simp only [Rule.check, hget, hformula, Series.evaluate_text hparse, herror]
    · simp only [Rule.check, hget, hformula, Series.evaluate_text hparse, herror']
  | ok result =>
    obtain ⟨first, hfirst, hsame⟩ := htail.exists_of_ok hvalue
    obtain ⟨second, hsecond, hsame'⟩ := htail'.exists_of_ok hvalue
    have hboth : first.SameDecision second :=
      ⟨hsame.triggered.symm.trans hsame'.triggered, hsame.date.symm.trans hsame'.date,
        hsame.explanation.symm.trans hsame'.explanation⟩
    refine ⟨⟨rule, .resolved first⟩, ⟨rule, .resolved second⟩, ?_, ?_,
      RuleCheck.sameOutcome_resolved rule hboth⟩
    · simp only [Rule.check, hget, hformula, Series.evaluate_text hparse, hfirst]
    · simp only [Rule.check, hget, hformula, Series.evaluate_text hparse, hsecond]

namespace RuleStore

variable {store : RuleStore} {count workers : Int} {delivered : List Alert} {fetch : Source}
  {report : SweepReport}

lemma exists_check_of_sweep (h : (store.sweep fetch count workers delivered).1 = .ok report) {i : Nat}
    {rule : Rule} (hrule : store.enabled[i]? = some rule) :
    ∃ check, report.checks[i]? = some check ∧ rule.check fetch count = .ok check := by
  obtain ⟨hrules, hchecks⟩ := of_sweep_eq_ok h
  rw [← hrules, List.getElem?_map, Option.map_eq_some_iff] at hrule
  obtain ⟨check, hcheck, rfl⟩ := hrule
  exact ⟨check, hcheck, hchecks check (List.mem_of_getElem? hcheck)⟩

lemma sameOutcome_of_sweeps {provider : Provider} {m m' workers' : Int} {delivered' : List Alert}
    {report' : SweepReport} (h : (store.sweep provider.get m workers delivered).1 = .ok report)
    (h' : (store.sweep provider.get m' workers' delivered').1 = .ok report') {i : Nat} {rule : Rule}
    (hrule : store.enabled[i]? = some rule) {text : String} {e : Expr}
    (hformula : rule.formula = .text text) (hparse : Expr.parse text = .ok e)
    (hfree : e.averageFree = true) (hm : (e.lookback : Int) < m) (hm' : (e.lookback : Int) < m') :
    ∃ check check', report.checks[i]? = some check ∧ report'.checks[i]? = some check' ∧
      check.SameOutcome check' := by
  obtain ⟨check, hcheck, hvalue⟩ := exists_check_of_sweep h hrule
  obtain ⟨check', hcheck', hvalue'⟩ := exists_check_of_sweep h' hrule
  obtain ⟨_, _, heq, heq', hsame⟩ := Rule.check_tail hformula hparse hfree hm hm' provider
  cases hvalue.symm.trans heq
  cases hvalue'.symm.trans heq'
  exact ⟨check, check', hcheck, hcheck', hsame⟩

end RuleStore

namespace Expr

/-- An expression without averages that has a decision on a series has the same one on its most
recent bars, if there are more of them than its lookback, and so has every text of which it is the
tree. From the lookback on, the bars that are left have the same entries of values. The checks of
rules with such a text come to the same with any two numbers of bars that exceed the lookback, on
their own and in sweeps. -/
theorem lookback_suffices (e : Expr) (hfree : e.averageFree = true) (m : Int)
    (hm : (e.lookback : Int) < m) :
    (∀ {α : Type} [ToFloat α] (s : Series α) (result : TriggerResult),
      s.evaluateTree e = .ok result →
        ∃ result', Series.evaluateTree (s.tail m) e = .ok result' ∧ result.SameDecision result') ∧
    (∀ {α : Type} [ToFloat α] (s : Series α) (text : String) (result : TriggerResult),
      parse text = .ok e → s.evaluate (.text text) = .ok result →
        ∃ result', Series.evaluate (s.tail m) (.text text) = .ok result' ∧
          result.SameDecision result') ∧
    (∀ {α : Type} [ToFloat α] (s : Series α) (frame : Frame) (v : Value),
      s.toFrame = .ok frame → e.eval frame = .ok v →
        ∃ frame' v', Series.toFrame (s.tail m) = .ok frame' ∧ e.eval frame' = .ok v' ∧
          ∀ j, e.lookback ≤ j → j < (s.tail m).length →
            ∃ t, v.AtBar (s.length - (s.tail m).length + j) t ∧ v'.AtBar j t) ∧
    (∀ (rule : Rule) (text : String) (provider : Provider) (m' : Int),
      rule.formula = .text text → parse text = .ok e → (e.lookback : Int) < m' →
        ∃ check check', rule.check provider.get m = .ok check ∧
          rule.check provider.get m' = .ok check' ∧ check.SameOutcome check') ∧
    (∀ (store : RuleStore) (i : Nat) (rule : Rule) (text : String) (provider : Provider)
      (m' workers workers' : Int) (delivered delivered' : List Alert) (report report' : SweepReport),
      store.enabled[i]? = some rule → rule.formula = .text text → parse text = .ok e →
        (e.lookback : Int) < m' →
        (store.sweep provider.get m workers delivered).1 = .ok report →
        (store.sweep provider.get m' workers' delivered').1 = .ok report' →
          ∃ check check', report.checks[i]? = some check ∧ report'.checks[i]? = some check' ∧
            check.SameOutcome check') := by
  have htree {α : Type} [ToFloat α] (s : Series α) (result : TriggerResult)
      (h : s.evaluateTree e = .ok result) :
      ∃ result', Series.evaluateTree (s.tail m) e = .ok result' ∧ result.SameDecision result' := by
    obtain ⟨frame, hframe⟩ := Series.exists_reads_of_evaluateTree h
    exact (Series.evaluateTree_tail hframe hfree hm).exists_of_ok h
  refine ⟨htree, fun s text result hparse h => ?_, fun s frame v hframe hv => ?_,
    fun rule text provider m' hformula hparse hm' =>
      Rule.check_tail hformula hparse hfree hm hm' provider,
    fun store i rule text provider m' workers workers' delivered delivered' report report' hrule
      hformula hparse hm' h h' =>
      RuleStore.sameOutcome_of_sweeps h h' hrule hformula hparse hfree hm hm'⟩
  · rw [Series.evaluate_text hparse] at h ⊢
    exact htree s result h
  · have hreads := Series.reads_of_toFrame hframe
    have hlength := hreads.length_eq
    have hdrop := hreads.drop (s.length - m.toNat)
    have hn : frame.length = (s.length - m.toNat) + (s.tail m).length := by
      rw [Series.length_tail]
      omega
    obtain ⟨v', hv', hshift⟩ := (eval_drop hn hfree).exists_of_ok hv
    refine ⟨_, v', hdrop.toFrame_eq, hv', fun j hl hj => ?_⟩
    have hoffset : s.length - (s.tail m).length = s.length - m.toNat := by
      rw [Series.length_tail]
      omega
    rw [hoffset]
    exact hshift j hl hj

theorem lookback_suffices_rise :
    let e : Expr := .binary .gt (.field "C" 0) (.call "REF" [.field "C" 8, .literal 1.0 11] 4) 2
    let s : Series Float :=
      [⟨⟨1, 2, 1, 2, 10⟩, "2024-01-02"⟩, ⟨⟨2, 4, 2, 4, 10⟩, "2024-01-03"⟩,
        ⟨⟨4, 5, 4, 5, 10⟩, "2024-01-04"⟩]
    e.averageFree = true ∧ e.lookback = 1 ∧
      s.evaluateTree e = .ok ⟨true, 2, "2024-01-04", "triggered at 2024-01-04"⟩ ∧
      ∃ result', Series.evaluateTree (s.tail 2) e = .ok result' ∧ result'.triggered = true ∧
        result'.date = "2024-01-04" := by
  intro e s
  have hfree : e.averageFree = true := by decide +kernel
  have hlookback : e.lookback = 1 := by decide +kernel
  have hvalue : s.evaluateTree e = .ok ⟨true, 2, "2024-01-04", "triggered at 2024-01-04"⟩ := by
    decide +kernel
  have hm : (e.lookback : Int) < 2 := by
    rw [hlookback]
    decide
  obtain ⟨result', hresult, hsame⟩ := (lookback_suffices e hfree 2 hm).1 s _ hvalue
  exact ⟨hfree, hlookback, hvalue, result', hresult, hsame.triggered.symm, hsame.date.symm⟩

end Expr

end MarketFormula
