import MarketFormula.Json.Reading
import MarketFormula.Rules.Rule

/-!
# Stores of rules

A store holds one rule for each identifier, in the order in which the identifiers first came in. A
rule that comes in under a known identifier takes the place of the earlier one.
-/
namespace MarketFormula

structure RuleStore where
  rules : List Rule := []
  deriving Repr

namespace RuleStore

/-- Sets the rule of an identifier, at its old place if there is one. -/
def putInto (rule : Rule) : List Rule → List Rule
  | [] => [rule]
  | old :: rules => if old.id.sameKey rule.id then rule :: rules else old :: putInto rule rules

def put (store : RuleStore) (rule : Rule) : RuleStore :=
  ⟨putInto rule store.rules⟩

def ofList (rules : List Rule) : RuleStore :=
  rules.foldl put {}

def add (store : RuleStore) (rule : Rule) : Except DataError RuleStore := do
  rule.id.checkKey
  return store.put rule

def addAll (store : RuleStore) (rules : List Rule) : Except DataError RuleStore :=
  rules.foldlM add store

def enabled (store : RuleStore) : List Rule :=
  store.rules.filter (·.isEnabled)

/-- The rules of a list of records. A text or a record stands for the texts that it is made of,
which are no records. -/
def ofDatum (records : Datum) : Except DataError RuleStore :=
  match records with
  | .list items => (items.mapM Rule.ofDatum).map ofList
  | .record _ | .text _ => if records.isTruthy then .error (.wrongType .text) else .ok {}
  | value => .error (.wrongType value.shape)

def ofJson (content : String) : Except DataError RuleStore :=
  Json.read content >>= ofDatum

end RuleStore

end MarketFormula
