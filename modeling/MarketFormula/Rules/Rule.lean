import MarketFormula.Datum
import MarketFormula.Evaluation.Trigger
import MarketFormula.Text.Blank

/-!
# Alert rules

A rule watches one security with a formula. When it triggers, an alert names the rule, the
security, the exchange and the day. Rules and alerts hold their values untyped, as they were given.
-/
namespace MarketFormula

structure Rule where
  id : Datum
  code : Datum
  name : Datum
  exchange : Datum
  formula : Datum
  enabled : Datum := .bool true
  deriving Repr

structure Alert where
  ruleId : Datum
  code : Datum
  name : Datum
  exchange : Datum
  triggerDate : Datum
  message : Datum
  deriving Repr

def inferExchange (code : String) : String :=
  match Text.strip Text.isBlank code.toList with
  | '6' :: _ => "SH"
  | '4' :: _ | '8' :: _ | '9' :: _ => "BJ"
  | _ => "SZ"

namespace Rule

def isEnabled (rule : Rule) : Bool :=
  rule.enabled.isTruthy

def alertMessage (rule : Rule) : String :=
  "triggered: " ++ rule.formula.display

/-- The exchange of a rule, inferred from the code if the rule leaves it empty. -/
def effectiveExchange (rule : Rule) : Datum :=
  if rule.exchange.isTruthy then rule.exchange else .text (inferExchange rule.code.display)

def alert (rule : Rule) (date : String) : Alert where
  ruleId := rule.id
  code := rule.code
  name := rule.name
  exchange := rule.effectiveExchange
  triggerDate := .text date
  message := .text rule.alertMessage

/-- The value of a key that a rule must have. -/
def required (record : Datum) (key : String) : Except DataError Datum :=
  match record.field? key with
  | some value => .ok value
  | none => .error (.missingKey key)

/-- The rule that a record describes. Identifiers and codes may be any values and stand for their
texts; name and exchange may be left out, and a rule is enabled unless it says otherwise. -/
def ofDatum (record : Datum) : Except DataError Rule :=
  match record with
  | .record _ => do
    let id ← required record "id"
    let code ← required record "code"
    let formula ← required record "formula"
    return {
      id := .text id.display
      code := .text code.display
      name := (record.field? "name").getD (.text "")
      exchange := (record.field? "exchange").getD (.text "")
      formula
      enabled := .bool ((record.field? "enabled").getD (.bool true)).isTruthy }
  | value => .error (.wrongType value.shape)

end Rule

end MarketFormula
