import MarketFormula.Proofs.Rules.Check
import MarketFormula.Proofs.Rules.Pool

/-!
# Sweeps do not depend on the schedule

In whatever order the workers of a pool start and finish the checks of a sweep, its report and the
alerts that it delivers are those of checking the rules one after another.
-/
namespace MarketFormula

namespace Sweep

variable {fetch : Source} {count : Int} {rules : List Rule}

lemma pooled_eq_sequential {workers : Nat} (schedule : Pool.Schedule workers rules.length) :
    pooled fetch count rules schedule = sequential fetch count rules := by
  rw [pooled, schedule.results_eq_map, sequential, List.mapM_map]
  rfl

lemma exists_of_sequential_eq_error {e : DataError} (h : sequential fetch count rules = .error e) :
    ∃ before rule after, rules = before ++ rule :: after ∧
      (∀ r ∈ before, ∃ check, r.check fetch count = .ok check) ∧
      rule.check fetch count = .error e ∧ rule.formula.isFormula = false ∧
      e = .wrongType rule.formula.shape := by
  obtain ⟨before, rule, after, hrules, hbefore, hrule⟩ := mapM_eq_error_iff.mp h
  obtain ⟨he, hformula, -⟩ := Rule.check_eq_error_iff.mp hrule
  exact ⟨before, rule, after, hrules, hbefore, hrule, hformula, he⟩

lemma deliver_eq_of_error {delivered : List Alert} {checks : Except DataError (List RuleCheck)}
    {e : DataError} (h : (deliver delivered checks).1 = .error e) :
    checks = .error e ∧ (deliver delivered checks).2 = delivered := by
  cases checks with
  | ok checks => cases h
  | error e' =>
    cases h
    exact ⟨rfl, rfl⟩

end Sweep

namespace RuleStore

variable (store : RuleStore) (fetch : Source) (count workers : Int) (delivered : List Alert)

lemma sweep_eq_deliver : store.sweep fetch count workers delivered =
    Sweep.deliver delivered (Sweep.sequential fetch count store.enabled) := by
  simp only [sweep]
  split
  · rw [Sweep.pooled_eq_sequential]
  · rfl

variable {store fetch count workers delivered}

lemma SweepsTo.eq_deliver {result : Except DataError SweepReport × List Alert}
    (h : store.SweepsTo fetch count workers delivered result) :
    result = Sweep.deliver delivered (Sweep.sequential fetch count store.enabled) := by
  cases h with
  | sequential _ => rfl
  | pooled _ _ hchecks =>
    rw [Pool.eq_mapM_of_collect hchecks]
    rfl

lemma collect_of_stuck (hworkers : 1 < workers) {events : List Pool.Event} {state : Pool.State}
    (hrun : (Pool.State.initial store.enabled.length).run? workers.toNat events = some state)
    (hstuck : ∀ event, state.step? workers.toNat event = none) :
    Pool.collect (·.check fetch count) state.finished 0 store.enabled =
      some (Sweep.sequential fetch count store.enabled) := by
  have hdone : state.busy ++ state.waiting = [] := by
    by_contra hleft
    have hpos : 0 < workers.toNat := by omega
    obtain ⟨event, next, hstep⟩ := Pool.State.exists_step hpos hleft
    rw [hstuck event] at hstep
    cases hstep
  refine Pool.collect_of_finished fun i hi => ?_
  rw [Nat.zero_add]
  exact Pool.State.mem_finished_of_run hrun hdone hi

lemma sweepsTo_deliver : store.SweepsTo fetch count workers delivered
    (Sweep.deliver delivered (Sweep.sequential fetch count store.enabled)) := by
  -- Checking the rules in turn is one of the schedules, so a sweep always has a result.
  by_cases h : 1 < workers ∧ 1 < store.enabled.length
  · have hrun := (Pool.Schedule.inTurn workers.toNat store.enabled.length (by omega)).runs
    refine .pooled h hrun (collect_of_stuck h.1 hrun fun event => ?_)
    cases event with
    | start => rfl
    | finish job => simp [Pool.State.step?]
  · exact .sequential h

/-- A sweep with any number of workers has one result only, that of a sweep with one worker, and any
run of its pool comes to an end at which it is there. If it fails, then without any delivery and
with the fault of the first rule that cannot be checked: its formula is neither a text nor missing,
and the fault is about the type that it has instead. -/
theorem sweepsTo_iff (store : RuleStore) (fetch : Source) (count workers : Int)
    (delivered : List Alert) :
    (∀ result, store.SweepsTo fetch count workers delivered result ↔
      result = store.sweep fetch count 1 delivered) ∧
    store.sweep fetch count workers delivered = store.sweep fetch count 1 delivered ∧
    (1 < workers → ∀ events state,
      (Pool.State.initial store.enabled.length).run? workers.toNat events = some state →
        events.length ≤ 2 * store.enabled.length ∧
        ((∀ event, state.step? workers.toNat event = none) →
          ∃ checks, Pool.collect (·.check fetch count) state.finished 0 store.enabled =
            some checks)) ∧
    ∀ e, (store.sweep fetch count 1 delivered).1 = .error e →
      (store.sweep fetch count 1 delivered).2 = delivered ∧
      ∃ before rule after, store.enabled = before ++ rule :: after ∧
        (∀ r ∈ before, ∃ check, r.check fetch count = .ok check) ∧
        rule.check fetch count = .error e ∧ rule.formula.isFormula = false ∧
        e = .wrongType rule.formula.shape := by
  rw [sweep_eq_deliver store fetch count 1]
  refine ⟨fun result => ⟨SweepsTo.eq_deliver, ?_⟩, sweep_eq_deliver .., ?_, ?_⟩
  · rintro rfl
    exact sweepsTo_deliver
  · intro hworkers events state hrun
    have hevents := Pool.State.outstanding_run hrun
    simp only [Pool.State.outstanding, Pool.State.initial, List.length_range, List.length_nil]
      at hevents
    exact ⟨by omega, fun hstuck => ⟨_, collect_of_stuck hworkers hrun hstuck⟩⟩
  · intro e he
    obtain ⟨hsequential, hdelivered⟩ := Sweep.deliver_eq_of_error he
    exact ⟨hdelivered, Sweep.exists_of_sequential_eq_error hsequential⟩

/-- Of two formulas that are none, two workers come to the second one first. The fault is that of
the first one all the same, and although a rule triggers nothing is delivered. -/
theorem sweepsTo_iff_number :
    let fetch : Source := fun _ _ => .ok [⟨⟨1, 3, 1, 2, 10⟩, "2024-01-02"⟩]
    let up : Rule := ⟨.text "up", .text "600000", .null, .null, .text "C > O", .bool true⟩
    let number : Rule := ⟨.text "number", .text "000001", .null, .null, .int 5, .bool true⟩
    let listed : Rule := ⟨.text "listed", .text "000002", .null, .null, .list [], .bool true⟩
    let store : RuleStore := ⟨[up, number, listed]⟩
    let events : List Pool.Event := [.start, .start, .finish 0, .start, .finish 2, .finish 1]
    (Pool.State.initial store.enabled.length).run? 2 events = some ⟨[], [], [0, 2, 1]⟩ ∧
    events.length ≤ 2 * store.enabled.length ∧
    listed.check fetch 1 = .error (.wrongType .list) ∧
    Pool.collect (·.check fetch 1) [0, 2, 1] 0 store.enabled = some (.error (.wrongType .int)) ∧
    store.sweep fetch 1 1 [] = (.error (.wrongType .int), []) := by
  intro fetch up number listed store events
  have hrun : (Pool.State.initial store.enabled.length).run? 2 events =
    some ⟨[], [], [0, 2, 1]⟩ := rfl
  have hchecks : Pool.collect (·.check fetch 1) [0, 2, 1] 0 store.enabled =
    some (.error (.wrongType .int)) := rfl
  obtain ⟨hresult, -, hprogress, -⟩ := sweepsTo_iff store fetch 1 2 []
  have hsweep := (hresult _).mp (.pooled (by decide) hrun hchecks)
  exact ⟨hrun, (hprogress (by decide) events _ hrun).1, rfl, hchecks, hsweep.symm⟩

end RuleStore

end MarketFormula
