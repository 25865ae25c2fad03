import MarketFormula.Proofs.Rules.Schedules

/-!
# Sweeps treat every rule on its own

If all formulas are texts or missing, a sweep has one check for each enabled rule, which depends on
that rule and the provider only, and delivers one alert for each check that triggers.
-/
namespace MarketFormula

section Exchanges

/-- The first character of a code that is no blank. -/
def Leads (code : String) (first : Char) : Prop :=
  ∃ blanks rest, code.toList = blanks ++ first :: rest ∧
    (∀ c ∈ blanks, Text.isBlank c = true) ∧ Text.isBlank first = false

/-- The exchange of a security by the first digit of its code. -/
inductive ListedOn (code : String) : String → Prop
  | shanghai (h : Leads code '6') : ListedOn code "SH"
  | beijing {first : Char} (hfirst : first ∈ ['4', '8', '9']) (h : Leads code first) :
    ListedOn code "BJ"
  | shenzhen (h : ∀ first, Leads code first → first ∉ ['4', '6', '8', '9']) : ListedOn code "SZ"

lemma leads_iff {code : String} {first : Char} :
    Leads code first ↔ code.toList.find? (!Text.isBlank ·) = some first := by
  rw [List.find?_eq_some_iff_append]
  constructor
  · rintro ⟨blanks, rest, hcode, hblanks, hfirst⟩
    exact ⟨by simp [hfirst], blanks, rest, hcode, by simpa using hblanks⟩
  · rintro ⟨hfirst, blanks, rest, hcode, hblanks⟩
    exact ⟨blanks, rest, hcode, by simpa using hblanks, by simpa using hfirst⟩

lemma head?_strip (p : Char → Bool) (cs : List Char) :
    (Text.strip p cs).head? = cs.find? (!p ·) := by
  have hfind : cs.find? (!p ·) = (cs.dropWhile p).head? := by
    simp [List.find?_eq_head?_dropWhile_not]
  rw [hfind, Text.strip]
  cases hrest : cs.dropWhile p with
  | nil => rfl
  | cons first rest =>
    have hfirst : p first = false := by
      have hhead := List.head?_dropWhile_not p cs
      simpa [hrest] using hhead
    -- what ends the dropping in front ends it from behind as well
    rw [List.reverse_cons, List.dropWhile_append]
    split
    · simp [hfirst]
    · simp

lemma listedOn_inferExchange (code : String) : ListedOn code (inferExchange code) := by
  have hleads {first : Char} :
      Leads code first ↔ (Text.strip Text.isBlank code.toList).head? = some first := by
    rw [leads_iff, head?_strip]
  have hfound {first : Char} {rest : List Char}
      (h : Text.strip Text.isBlank code.toList = first :: rest) : Leads code first := by
    rw [hleads, h, List.head?_cons]
  unfold inferExchange
  split
  · next h => exact .shanghai (hfound h)
  · next h => exact .beijing (by decide) (hfound h)
  · next h => exact .beijing (by decide) (hfound h)
  · next h => exact .beijing (by decide) (hfound h)
  · next h6 h4 h8 h9 =>
    refine .shenzhen fun first hfirst hmem => ?_
    obtain ⟨rest, hrest⟩ := List.head?_eq_some_iff.mp (hleads.mp hfirst)
    simp only [List.mem_cons, List.not_mem_nil, or_false] at hmem
    rcases hmem with rfl | rfl | rfl | rfl
    · exact h4 rest hrest
    · exact h6 rest hrest
    · exact h8 rest hrest
    · exact h9 rest hrest

end Exchanges

lemma Provider.exists_code_of_get {provider : Provider} {code : Datum} {count : Int}
    {series : Series Float} (h : provider.get code count = .ok series) :
    ∃ text, code = .text text := by
  cases code with
  | text text => exact ⟨text, rfl⟩
  | _ => cases h

namespace Outcome

lemma isSome_result? (o : Outcome) : o.result?.isSome = o.error?.isNone := by
  cases o <;> rfl

lemma isTriggered_of_isSome_error? {o : Outcome} (h : o.error?.isSome = true) :
    o.isTriggered = false := by
  cases o with
  | resolved result => cases h
  | fetchFailed error => rfl
  | formulaFault error => rfl

lemma exists_of_isTriggered {o : Outcome} (h : o.isTriggered = true) :
    ∃ result, o = .resolved result ∧ result.triggered = true := by
  cases o with
  | resolved result => exact ⟨result, rfl, h⟩
  | fetchFailed error => cases h
  | formulaFault error => cases h

end Outcome

namespace RuleCheck

lemma isSome_alert? (check : RuleCheck) : check.alert?.isSome = check.isTriggered := by
  rcases check with ⟨rule, _ | _ | _⟩
  case resolved result =>
    rcases result with ⟨_ | _, _, _, _⟩ <;> rfl
  all_goals rfl

lemma exists_alert_of_isTriggered {check : RuleCheck} {fetch : Source} {count : Int}
    (hcheck : check.rule.check fetch count = .ok check) (h : check.isTriggered = true) :
    ∃ formula series last, check.rule.formula = .text formula ∧
      fetch check.rule.code count = .ok series ∧ series.getLast? = some last ∧
      check.alert? = some (check.rule.alert last.date) := by
  obtain ⟨result, houtcome, htriggered⟩ := Outcome.exists_of_isTriggered h
  obtain ⟨-, ⟨e, -, hfailed⟩ | ⟨series, hfetch, ⟨result', hresult, hresolved⟩ | ⟨e, -, hfault⟩⟩⟩ :=
    Rule.check_cases hcheck
  · rw [houtcome] at hfailed
    cases hfailed
  · rw [houtcome] at hresolved
    cases hresolved
    obtain ⟨formula, last, hformula, hlast, hdate⟩ :=
      Series.exists_of_evaluate_triggered hresult htriggered
    refine ⟨formula, series, last, hformula, hfetch, hlast, ?_⟩
    simp [alert?, houtcome, Outcome.result?, htriggered, hdate]
  · rw [houtcome] at hfault
    cases hfault

end RuleCheck

namespace SweepReport

lemma triggeredCount_eq_length (report : SweepReport) :
    report.triggeredCount = report.alerts.length := by
  rw [triggeredCount, alerts, List.length_filterMap_eq_countP]
  exact List.countP_congr fun check _ => by rw [check.isSome_alert?]

lemma forall₂_alerts {R : RuleCheck → Alert → Prop} (report : SweepReport)
    (h : ∀ check ∈ report.checks, check.isTriggered = true →
      ∃ alert, check.alert? = some alert ∧ R check alert) :
    List.Forall₂ R (report.checks.filter (·.isTriggered)) report.alerts := by
  rcases report with ⟨checks⟩
  simp only [alerts]
  induction checks with
  | nil => exact .nil
  | cons check checks ih =>
    have htail := ih fun other hother => h other (List.mem_cons_of_mem _ hother)
    cases htriggered : check.isTriggered with
    | false =>
      have hnone : check.alert? = none := by
        rw [← Option.not_isSome_iff_eq_none, check.isSome_alert?, htriggered]
        decide
      rw [List.filter_cons_of_neg (by simp [htriggered]), List.filterMap_cons_none hnone]
      exact htail
    | true =>
      obtain ⟨alert, halert, hR⟩ := h check (List.mem_cons_self ..) htriggered
      rw [List.filter_cons_of_pos htriggered, List.filterMap_cons_some halert]
      exact .cons hR htail

end SweepReport

namespace Sweep

variable {fetch : Source} {count : Int} {rules : List Rule} {checks : List RuleCheck}

lemma of_sequential_eq_ok (h : sequential fetch count rules = .ok checks) :
    checks.map (·.rule) = rules ∧
      ∀ check ∈ checks, check.rule.check fetch count = .ok check := by
  have hpairs := forall₂_of_mapM_eq_ok h
  clear h
  induction hpairs with
  | nil => exact ⟨rfl, by simp⟩
  | cons hcheck _ ih =>
    obtain ⟨hrules, hchecks⟩ := ih
    have hrule := (Rule.check_cases hcheck).1
    constructor
    · rw [List.map_cons, hrule, hrules]
    · rintro other (_ | ⟨_, hother⟩)
      · rw [hrule]
        exact hcheck
      · exact hchecks other hother

lemma exists_sequential (fetch : Source) (count : Int)
    (h : ∀ rule ∈ rules, rule.formula.isFormula = true) :
    ∃ checks, sequential fetch count rules = .ok checks := by
  cases hchecks : sequential fetch count rules with
  | ok checks => exact ⟨checks, rfl⟩
  | error e =>
    obtain ⟨before, rule, after, rfl, -, -, hnot, -⟩ := exists_of_sequential_eq_error hchecks
    have hformula := h rule (by simp)
    rw [hnot] at hformula
    cases hformula

end Sweep

namespace RuleStore

variable {store : RuleStore} {fetch : Source} {count workers : Int} {delivered : List Alert}

lemma of_sweep_eq_ok {report : SweepReport}
    (h : (store.sweep fetch count workers delivered).1 = .ok report) :
    report.checks.map (·.rule) = store.enabled ∧
      ∀ check ∈ report.checks, check.rule.check fetch count = .ok check := by
  rw [sweep_eq_deliver] at h
  cases hchecks : Sweep.sequential fetch count store.enabled with
  | error e =>
    rw [hchecks] at h
    cases h
  | ok checks =>
    rw [hchecks] at h
    cases h
    exact Sweep.of_sequential_eq_ok hchecks

lemma mem_checks_of_sweep_eq_ok {report : SweepReport} {check : RuleCheck}
    (h : (store.sweep fetch count workers delivered).1 = .ok report)
    (hcheck : check.rule.check fetch count = .ok check) (hrule : check.rule ∈ store.enabled) :
    check ∈ report.checks := by
  obtain ⟨hrules, hchecks⟩ := of_sweep_eq_ok h
  rw [← hrules] at hrule
  obtain ⟨found, hfound, hsame⟩ := List.mem_map.mp hrule
  have hagain := hchecks found hfound
  rw [hsame, hcheck] at hagain
  cases hagain
  exact hfound

/-- A sweep over formulas that are texts or missing returns. Its checks are those of the enabled
rules in order, each of which is the check of the rule alone and is part of every other sweep over
the rule that returns. Exactly one alert for each triggered check is added to those delivered
before. -/
theorem sweep_isolated (store : RuleStore) (provider : Provider) (count workers : Int)
    (delivered : List Alert) (h : ∀ rule ∈ store.enabled, rule.formula.isFormula = true) :
    ∃ report, store.sweep provider count workers delivered =
        (.ok report, delivered ++ report.alerts) ∧
      report.checks.map (·.rule) = store.rules.filter (fun rule => rule.enabled.isTruthy) ∧
      (∀ check ∈ report.checks, check.rule.check provider count = .ok check ∧
        check.outcome.result?.isSome = check.outcome.error?.isNone ∧
        (check.hasFailed = true → check.isTriggered = false) ∧
        ∀ store' : RuleStore, ∀ workers' delivered' report',
          (store'.sweep provider count workers' delivered').1 = .ok report' →
            check.rule ∈ store'.enabled → check ∈ report'.checks) ∧
      List.Forall₂ (fun check alert => ∃ code formula series last exchange,
          check.rule.code = .text code ∧ check.rule.formula = .text formula ∧
          provider.get (.text code) count = .ok series ∧ series.getLast? = some last ∧
          ListedOn code exchange ∧
          alert = {
            ruleId := check.rule.id
            code := check.rule.code
            name := check.rule.name
            exchange :=
              if check.rule.exchange.isTruthy then check.rule.exchange else .text exchange
            triggerDate := .text last.date
            message := .text ("triggered: " ++ formula) })
        (report.checks.filter (·.isTriggered)) report.alerts ∧
      report.triggeredCount = report.alerts.length := by
  obtain ⟨checks, hchecks⟩ := Sweep.exists_sequential provider count h
  obtain ⟨hrules, heach⟩ := Sweep.of_sequential_eq_ok hchecks
  refine ⟨⟨checks⟩, ?_, hrules, fun check hmem => ?_, ?_, SweepReport.triggeredCount_eq_length _⟩
  · rw [sweep_eq_deliver, hchecks]
    rfl
  · refine ⟨heach check hmem, check.outcome.isSome_result?,
      Outcome.isTriggered_of_isSome_error?, ?_⟩
    intro store' workers' delivered' report' hreport hrule
    exact mem_checks_of_sweep_eq_ok hreport (heach check hmem) hrule
  · refine SweepReport.forall₂_alerts ⟨checks⟩ fun check hmem htriggered => ?_
    obtain ⟨formula, series, last, hformula, hseries, hlast, halert⟩ :=
      RuleCheck.exists_alert_of_isTriggered (heach check hmem) htriggered
    obtain ⟨code, hcode⟩ := Provider.exists_code_of_get hseries
    refine ⟨_, halert, code, formula, series, last, inferExchange code, hcode, hformula,
      hcode ▸ hseries, hlast, listedOn_inferExchange code, ?_⟩
    simp only [Rule.alert, Rule.effectiveExchange, Rule.alertMessage, hcode, hformula,
      Datum.display]

section Mixed

def mixedRule (id code exchange formula : String) : Rule where
  id := .text id
  code := .text code
  name := .null
  exchange := .text exchange
  formula := .text formula

/-- Rules for each of the exchanges, among them one that names its exchange, one with a malformed
formula and one without a series. -/
def mixedStore : RuleStore where
  rules := [mixedRule "a" "600000" "" "C > O", mixedRule "b" "600000" "" "(C",
    mixedRule "c" " 430047" "" "C > O", mixedRule "d" "700000" "" "C > O",
    mixedRule "e" "000001" "" "H > L", mixedRule "f" "830001" "XX" "C > O"]

def mixedProvider : Provider where
  series := ["600000", " 430047", "000001", "830001"].map fun code =>
    (code, [⟨⟨1, 3, 1, 2, 10⟩, "2024-01-02"⟩])

def mixedAlert (id code exchange message : String) : Alert where
  ruleId := .text id
  code := .text code
  name := .null
  exchange := .text exchange
  triggerDate := .text "2024-01-02"
  message := .text message

def mixedAlerts : List Alert :=
  [mixedAlert "a" "600000" "SH" "triggered: C > O",
    mixedAlert "c" " 430047" "BJ" "triggered: C > O",
    mixedAlert "e" "000001" "SZ" "triggered: H > L",
    mixedAlert "f" "830001" "XX" "triggered: C > O"]

theorem sweep_isolated_mixed :
    (∀ rule ∈ mixedStore.enabled, rule.formula.isFormula = true) ∧
    ∃ report, mixedStore.sweep mixedProvider 50 4 [] = (.ok report, mixedAlerts) ∧
      report.checks.map (·.rule) = mixedStore.rules ∧ report.triggeredCount = 4 := by
  have hformulas : ∀ rule ∈ mixedStore.enabled, rule.formula.isFormula = true := by decide +kernel
  have hdelivered : (mixedStore.sweep mixedProvider 50 4 []).2 = mixedAlerts := rfl
  obtain ⟨report, hsweep, hrules, -, -, hcount⟩ :=
    sweep_isolated mixedStore mixedProvider 50 4 [] hformulas
  have halerts : report.alerts = mixedAlerts := by
    rw [hsweep] at hdelivered
    exact hdelivered
  refine ⟨hformulas, report, ?_, hrules, ?_⟩
  · rw [hsweep, halerts, List.nil_append]
  · rw [hcount, halerts]
    rfl

end Mixed

end RuleStore

end MarketFormula
