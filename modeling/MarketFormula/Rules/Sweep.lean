import MarketFormula.Evaluation.Progress
import MarketFormula.Rules.Pool
import MarketFormula.Rules.Provider
import MarketFormula.Rules.Store

/-!
# Sweeps over all rules

A sweep checks every enabled rule on the most recent bars of its security and delivers an alert for
each one that triggers, in the order of the rules.
-/
namespace MarketFormula

inductive Outcome
  | resolved (result : TriggerResult)
  | fetchFailed (error : DataError)
  | formulaFault (error : FormulaError)
  deriving DecidableEq

namespace Outcome

def result? : Outcome → Option TriggerResult
  | resolved result => some result
  | _ => none

def error? : Outcome → Option String
  | resolved _ => none
  | fetchFailed error => some ("series fetch failed: " ++ error.message)
  | formulaFault error => some error.message

def isTriggered (o : Outcome) : Bool :=
  o.result?.any (·.triggered)

end Outcome

structure RuleCheck where
  rule : Rule
  outcome : Outcome

namespace RuleCheck

def isTriggered (check : RuleCheck) : Bool :=
  check.outcome.isTriggered

def hasFailed (check : RuleCheck) : Bool :=
  check.outcome.error?.isSome

def alert? (check : RuleCheck) : Option Alert :=
  (check.outcome.result?.filter (·.triggered)).map fun result => check.rule.alert result.date

end RuleCheck

def Rule.check (rule : Rule) (fetch : Source) (count : Int) : Except DataError RuleCheck :=
  match fetch rule.code count with
  | .error e => .ok ⟨rule, .fetchFailed e⟩
  | .ok series =>
    match series.evaluate rule.formula with
    | .ok result => .ok ⟨rule, .resolved result⟩
    | .error (.formula e) => .ok ⟨rule, .formulaFault e⟩
    | .error (.data e) => .error e

structure SweepReport where
  checks : List RuleCheck

namespace SweepReport

def triggeredCount (report : SweepReport) : Nat :=
  report.checks.countP (·.isTriggered)

def failed (report : SweepReport) : List RuleCheck :=
  report.checks.filter (·.hasFailed)

def alerts (report : SweepReport) : List Alert :=
  report.checks.filterMap (·.alert?)

end SweepReport

namespace Sweep

/-- Checks the rules one after another, up to the first that cannot be checked. -/
def sequential (fetch : Source) (count : Int) (rules : List Rule) :
    Except DataError (List RuleCheck) :=
  rules.mapM (·.check fetch count)

/-- Checks all rules in a pool; of several that cannot be checked the first one counts. -/
def pooled {workers : Nat} (fetch : Source) (count : Int) (rules : List Rule)
    (schedule : Pool.Schedule workers rules.length) : Except DataError (List RuleCheck) :=
  (schedule.results (·.check fetch count) rules).mapM id

/-- Adds the alerts of all checks to those already delivered, unless a rule could not be checked. -/
def deliver (delivered : List Alert) :
    Except DataError (List RuleCheck) → Except DataError SweepReport × List Alert
  | .ok checks => (.ok ⟨checks⟩, delivered ++ (SweepReport.mk checks).alerts)
  | .error e => (.error e, delivered)

end Sweep

namespace RuleStore

/-- Checks every enabled rule and delivers the alerts; a pool is used if there are several workers
and several rules. -/
def sweep (store : RuleStore) (fetch : Source) (count workers : Int)
    (delivered : List Alert) : Except DataError SweepReport × List Alert :=
  let rules := store.enabled
  if h : 1 < workers ∧ 1 < rules.length then
    Sweep.deliver delivered
      (Sweep.pooled fetch count rules (.inTurn workers.toNat rules.length (by omega)))
  else Sweep.deliver delivered (Sweep.sequential fetch count rules)

/-- The results that a sweep can have. The workers of a pool start and finish the checks in any
order, and the sweep goes on as soon as all checks can be handed over, or the first that failed. -/
inductive SweepsTo (store : RuleStore) (fetch : Source) (count workers : Int)
    (delivered : List Alert) : Except DataError SweepReport × List Alert → Prop
  | sequential (h : ¬ (1 < workers ∧ 1 < store.enabled.length)) :
    SweepsTo store fetch count workers delivered
      (Sweep.deliver delivered (Sweep.sequential fetch count store.enabled))
  | pooled {events : List Pool.Event} {state : Pool.State}
    {checks : Except DataError (List RuleCheck)} (h : 1 < workers ∧ 1 < store.enabled.length)
    (hrun : (Pool.State.initial store.enabled.length).run? workers.toNat events = some state)
    (hchecks : Pool.collect (·.check fetch count) state.finished 0 store.enabled = some checks) :
    SweepsTo store fetch count workers delivered (Sweep.deliver delivered checks)

end RuleStore

namespace Sweep

def source : String := "tdx_alert.src.rules"

def failureLog (check : RuleCheck) : List Log.Entry :=
  let about := "rule " ++ check.rule.id.display ++ " (" ++ check.rule.code.display ++ "): "
  match check.outcome with
  | .resolved _ => []
  | .fetchFailed e => [⟨Log.warning, source, about ++ "series fetch failed: " ++ e.message⟩]
  | .formulaFault e => [⟨Log.warning, source, about ++ "formula error: " ++ e.message⟩]

def checkLog (fetch : Source) (count : Int) (check : RuleCheck) : List Log.Entry :=
  let progress :=
    match fetch check.rule.code count with
    | .ok series => series.evaluationLog check.rule.formula
    | .error _ => []
  progress ++ failureLog check

def log (fetch : Source) (count : Int) (report : SweepReport) : List Log.Entry :=
  ⟨Log.info, source, s!"checking {report.checks.length} enabled rules ({count} bars each)"⟩ ::
    report.checks.flatMap (checkLog fetch count) ++
    [⟨Log.info, source,
      s!"sweep finished: {report.triggeredCount} triggered, {report.failed.length} failed"⟩]

end Sweep

end MarketFormula
