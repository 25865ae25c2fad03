import MarketFormula.Proofs.Rules.Schedules

/-!
# Sweeps deliver all of their alerts or none

A sweep fails exactly if one of its rules cannot be checked: its formula is neither a text nor
missing, and there are bars to evaluate it on.
-/
namespace MarketFormula

lemma Sweep.exists_sequential_eq_error_iff {fetch : Source} {count : Int} {rules : List Rule} :
    (∃ e, sequential fetch count rules = .error e) ↔
      ∃ rule ∈ rules, rule.formula.isFormula = false ∧
        ∃ series, fetch rule.code count = .ok series ∧ series ≠ [] := by
  have hchecks : (∃ e, sequential fetch count rules = .error e) ↔
      ∃ rule ∈ rules, ∃ e, rule.check fetch count = .error e := exists_mapM_eq_error_iff
  simp only [hchecks, Rule.check_eq_error_iff, exists_eq_left]

namespace RuleStore

/-- With any number of workers and however they share the checks, a sweep has a result. It fails if
and only if some enabled rule has a formula that is neither a text nor missing, and a series with
bars; the alerts delivered are then those from before the sweep. Otherwise all alerts of its report
are added to them, in order. Store and source are only read. -/
theorem sweepsTo_all_or_nothing (store : RuleStore) (fetch : Source) (count workers : Int)
    (delivered : List Alert) :
    store.SweepsTo fetch count workers delivered
      (store.sweep fetch count workers delivered) ∧
    ∀ report sink, store.SweepsTo fetch count workers delivered (report, sink) →
      ((∃ e, report = .error e) ↔ ∃ rule ∈ store.rules, rule.isEnabled = true ∧
        rule.formula.isText = false ∧ rule.formula.isNull = false ∧
        ∃ series, fetch rule.code count = .ok series ∧ series ≠ []) ∧
      (∀ e, report = .error e → sink = delivered) ∧
      ∀ checks, report = .ok ⟨checks⟩ → sink = delivered ++ checks.filterMap (·.alert?) := by
  constructor
  · rw [sweep_eq_deliver]
    exact sweepsTo_deliver
  intro report sink hresult
  have hfaulty : (∃ e, Sweep.sequential fetch count store.enabled = .error e) ↔
      ∃ rule ∈ store.rules, rule.isEnabled = true ∧ rule.formula.isText = false ∧
        rule.formula.isNull = false ∧ ∃ series, fetch rule.code count = .ok series ∧ series ≠ [] := by
    rw [Sweep.exists_sequential_eq_error_iff]
    simp only [enabled, List.mem_filter, Datum.isFormula, Bool.or_eq_false_iff, and_assoc]
  have hdeliver := hresult.eq_deliver
  rw [← hfaulty]
  cases hchecks : Sweep.sequential fetch count store.enabled with
  | ok checks =>
    rw [hchecks] at hdeliver
    cases hdeliver
    refine ⟨by simp, by simp, fun checks' h => ?_⟩
    cases h
    rfl
  | error e =>
    rw [hchecks] at hdeliver
    cases hdeliver
    exact ⟨by simp, fun _ _ => rfl, by simp⟩

/-- A sweep with an alert in the sink from before, in which a pool finishes a rule that triggers, a
rule without a series whose formula is a list, and a rule whose formula is a truth value. -/
theorem sweepsTo_all_or_nothing_switched :
    let fetch : Source := fun code _ =>
      if code.display == "830001" then .error (.noSeries "'830001'")
      else .ok [⟨⟨1, 3, 1, 2, 10⟩, "2024-01-02"⟩]
    let up : Rule := ⟨.text "up", .text "600000", .null, .text "", .text "C > O", .bool true⟩
    let gone : Rule := ⟨.text "gone", .text "830001", .null, .text "", .list [], .bool true⟩
    let odd : Rule := ⟨.text "odd", .text "000001", .null, .text "", .bool true, .bool true⟩
    let store : RuleStore := ⟨[up, gone, odd]⟩
    let earlier := up.alert "2024-01-01"
    let events : List Pool.Event := [.start, .start, .finish 1, .start, .finish 2, .finish 0]
    (Pool.State.initial store.enabled.length).run? 2 events = some ⟨[], [], [1, 2, 0]⟩ ∧
    ∃ report sink, store.SweepsTo fetch 50 2 [earlier] (report, sink) ∧
      (∃ e, report = .error e) ∧ sink = [earlier] := by
  intro fetch up gone odd store earlier events
  have hrun : (Pool.State.initial store.enabled.length).run? 2 events =
    some ⟨[], [], [1, 2, 0]⟩ := rfl
  have hchecks : Pool.collect (·.check fetch 50) [1, 2, 0] 0 store.enabled =
    some (.error (.wrongType .bool)) := rfl
  have hsweeps : store.SweepsTo fetch 50 2 [earlier]
      (Sweep.deliver [earlier] (.error (.wrongType .bool))) :=
    .pooled (by decide) hrun hchecks
  obtain ⟨hfaulty, hkept, -⟩ := (sweepsTo_all_or_nothing store fetch 50 2 [earlier]).2 _ _ hsweeps
  have hseries : ∃ series, fetch odd.code 50 = .ok series ∧ series ≠ [] := ⟨_, rfl, by simp⟩
  have hfails := hfaulty.mpr ⟨odd, by simp [store], rfl, rfl, rfl, hseries⟩
  exact ⟨hrun, _, _, hsweeps, hfails, hkept _ rfl⟩

end RuleStore

end MarketFormula
