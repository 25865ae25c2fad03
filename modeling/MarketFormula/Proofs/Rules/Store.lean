import Mathlib
import MarketFormula.Proofs.Result
import MarketFormula.Rules.Store

/-!
# What a store holds

A store holds one rule for each identifier under which rules came in, namely the last of them. Its
order is that in which the identifiers came in first.
-/
namespace MarketFormula

namespace Datum

variable {a b : Datum}

lemma sameKey_iff (ha : a.isText = true) (hb : b.isText = true) : a.sameKey b = true ↔ a = b := by
  cases a <;> cases ha
  cases b <;> cases hb
  simp [sameKey]

lemma not_sameKey (ha : a.isText = true) (hb : b.isText = true) (hne : b ≠ a) :
    ¬ a.sameKey b = true := by
  rw [sameKey_iff ha hb]
  exact hne.symm

lemma checkKey_of_isText (ha : a.isText = true) : a.checkKey = .ok () := by
  cases a <;> cases ha
  rfl

end Datum

def Rule.ids (rules : List Rule) : List Datum :=
  rules.map (·.id)

namespace Rule

variable {supplied : List Rule} {id id' : Datum} {rule : Rule}

lemma ids_append (rules more : List Rule) : ids (rules ++ more) = ids rules ++ ids more :=
  List.map_append

lemma mem_ids (h : rule ∈ supplied) : rule.id ∈ ids supplied :=
  List.mem_map_of_mem h

lemma exists_of_mem_ids (h : id ∈ ids supplied) :
    ∃ before rule after, supplied = before ++ rule :: after ∧ rule.id = id := by
  obtain ⟨rule, hrule, rfl⟩ := List.mem_map.mp h
  obtain ⟨before, after, rfl⟩ := List.append_of_mem hrule
  exact ⟨before, rule, after, rfl, rfl⟩

/-- A rule came in under the first identifier before any came in under the second. -/
def CameBefore (supplied : List Rule) (id id' : Datum) : Prop :=
  ∃ before rule after, supplied = before ++ rule :: after ∧ rule.id = id ∧ id' ∉ ids before

lemma CameBefore.append (h : CameBefore supplied id id') (more : List Rule) :
    CameBefore (supplied ++ more) id id' := by
  obtain ⟨before, rule, after, rfl, hrule, hbefore⟩ := h
  exact ⟨before, rule, after ++ more, by simp, hrule, hbefore⟩

lemma CameBefore.of_not_mem (h : id ∈ ids supplied) (h' : id' ∉ ids supplied) :
    CameBefore supplied id id' := by
  obtain ⟨before, rule, after, rfl, hrule⟩ := exists_of_mem_ids h
  refine ⟨before, rule, after, rfl, hrule, fun hbefore => h' ?_⟩
  rw [ids_append]
  exact List.mem_append_left _ hbefore

/-- No rule came in later under the identifier of this one. -/
def CameLast (supplied : List Rule) (rule : Rule) : Prop :=
  ∃ before after, supplied = before ++ rule :: after ∧ rule.id ∉ ids after

lemma CameLast.append (h : CameLast supplied rule) {more : List Rule} (hmore : rule.id ∉ ids more) :
    CameLast (supplied ++ more) rule := by
  obtain ⟨before, after, rfl, hafter⟩ := h
  refine ⟨before, after ++ more, by simp, ?_⟩
  rw [ids_append, List.mem_append, not_or]
  exact ⟨hafter, hmore⟩

end Rule

namespace RuleStore

open Rule (ids CameBefore CameLast)

variable {store : RuleStore} {supplied : List Rule} {rule : Rule}

section Setting

variable {before after : List Rule} {old : Rule}

lemma putInto_of_not_mem {rules : List Rule} (hrule : rule.id.isText = true)
    (hrules : ∀ other ∈ rules, other.id.isText = true) (h : rule.id ∉ ids rules) :
    putInto rule rules = rules ++ [rule] := by
  induction rules with
  | nil => rfl
  | cons other rules ih =>
    simp only [ids, List.map_cons, List.mem_cons, not_or] at h
    have hother := Datum.not_sameKey (hrules other (by simp)) hrule h.1
    have htail := ih (fun rule' hrule' => hrules rule' (by simp [hrule'])) h.2
    simp [putInto, hother, htail]

lemma putInto_append (hrule : rule.id.isText = true)
    (hbefore : ∀ other ∈ before, other.id.isText = true) (h : rule.id ∉ ids before)
    (hold : old.id = rule.id) : putInto rule (before ++ old :: after) = before ++ rule :: after := by
  induction before with
  | nil =>
    have hsame : old.id.sameKey rule.id = true := by
      rw [hold, Datum.sameKey_iff hrule hrule]
    simp [putInto, hsame]
  | cons other before ih =>
    simp only [ids, List.map_cons, List.mem_cons, not_or] at h
    have hother := Datum.not_sameKey (hbefore other (by simp)) hrule h.1
    have htail := ih (fun rule' hrule' => hbefore rule' (by simp [hrule'])) h.2
    simp [putInto, hother, htail]

end Setting

/-- A store that holds, of the rules that came in, the last one under each identifier, in the order
of the first ones. -/
structure Holds (store : RuleStore) (supplied : List Rule) : Prop where
  distinct : (ids store.rules).Nodup
  known : ∀ id, id ∈ ids store.rules ↔ id ∈ ids supplied
  ordered : (ids store.rules).Pairwise (CameBefore supplied)
  latest : ∀ rule ∈ store.rules, CameLast supplied rule

namespace Holds

lemma empty : Holds {} [] where
  distinct := .nil
  known _ := .rfl
  ordered := .nil
  latest _ hrule := absurd hrule List.not_mem_nil

lemma isText (h : store.Holds supplied) (hsupplied : ∀ rule ∈ supplied, rule.id.isText = true) :
    ∀ rule ∈ store.rules, rule.id.isText = true := by
  intro rule hrule
  obtain ⟨before, after, rfl, -⟩ := h.latest rule hrule
  exact hsupplied rule (by simp)

lemma put_known (h : store.Holds supplied) (hsupplied : ∀ rule ∈ supplied, rule.id.isText = true)
    (hrule : rule.id.isText = true) {before after : List Rule} {old : Rule}
    (hrules : store.rules = before ++ old :: after) (hold : old.id = rule.id) :
    store.put rule = ⟨before ++ rule :: after⟩ := by
  have hdistinct := h.distinct
  have htext := h.isText hsupplied
  rw [hrules] at htext
  simp only [hrules, ids, List.map_append, List.map_cons, hold, List.nodup_middle,
    List.nodup_cons, List.mem_append, not_or] at hdistinct
  rw [put, hrules, putInto_append hrule (fun other hother => htext other (by simp [hother]))
    hdistinct.1.1 hold]

lemma put_new (h : store.Holds supplied) (hsupplied : ∀ rule ∈ supplied, rule.id.isText = true)
    (hrule : rule.id.isText = true) (hnew : rule.id ∉ ids store.rules) :
    store.put rule = ⟨store.rules ++ [rule]⟩ := by
  rw [put, putInto_of_not_mem hrule (h.isText hsupplied) hnew]

lemma latest_of_ne (h : store.Holds supplied) {other : Rule} (hother : other ∈ store.rules)
    (hne : other.id ≠ rule.id) : CameLast (supplied ++ [rule]) other :=
  (h.latest other hother).append (by simpa [ids] using hne)

lemma cameLast_self : CameLast (supplied ++ [rule]) rule :=
  ⟨supplied, [], rfl, List.not_mem_nil⟩

lemma replace (h : store.Holds supplied) {before after : List Rule} {old : Rule}
    (hrules : store.rules = before ++ old :: after) (hold : old.id = rule.id) :
    Holds ⟨before ++ rule :: after⟩ (supplied ++ [rule]) := by
  have hids : ids (before ++ rule :: after) = ids store.rules := by simp [ids, hrules, hold]
  have hknown : rule.id ∈ ids store.rules := by simp [ids, hrules, hold]
  have hdistinct := hids ▸ h.distinct
  have hordered := h.ordered.imp fun hbefore => hbefore.append [rule]
  refine ⟨hdistinct, fun id => ?_, hids ▸ hordered, fun other hother => ?_⟩
  · rw [hids, Rule.ids_append, List.mem_append, ← h.known]
    simp only [ids, List.map_cons, List.map_nil, List.mem_singleton]
    exact ⟨.inl, fun hid => hid.elim (fun hid => hid) fun hid => hid ▸ hknown⟩
  · simp only [ids, List.map_append, List.map_cons, List.nodup_middle, List.nodup_cons,
      List.mem_append, not_or] at hdistinct
    have hne {other : Rule} (hother : other ∈ before ∨ other ∈ after) : other.id ≠ rule.id := by
      intro heq
      rcases hother with hother | hother
      · exact hdistinct.1.1 (heq ▸ Rule.mem_ids hother)
      · exact hdistinct.1.2 (heq ▸ Rule.mem_ids hother)
    rcases List.mem_append.mp hother with hother | hother
    · exact h.latest_of_ne (by simp [hrules, hother]) (hne (.inl hother))
    · rcases List.mem_cons.mp hother with rfl | hother
      · exact cameLast_self
      · exact h.latest_of_ne (by simp [hrules, hother]) (hne (.inr hother))

lemma append (h : store.Holds supplied) (hnew : rule.id ∉ ids store.rules) :
    Holds ⟨store.rules ++ [rule]⟩ (supplied ++ [rule]) := by
  have hids : ids (store.rules ++ [rule]) = ids store.rules ++ [rule.id] := Rule.ids_append _ _
  have hmore : ids (supplied ++ [rule]) = ids supplied ++ [rule.id] := Rule.ids_append _ _
  refine ⟨?_, fun id => ?_, ?_, fun other hother => ?_⟩
  · rw [hids, ← List.concat_eq_append, List.nodup_concat]
    exact ⟨hnew, h.distinct⟩
  · rw [hids, hmore, List.mem_append, List.mem_append, h.known]
  · rw [hids, List.pairwise_append]
    refine ⟨h.ordered.imp fun hbefore => hbefore.append [rule], List.pairwise_singleton _ _,
      fun id hid id' hid' => ?_⟩
    obtain rfl := List.mem_singleton.mp hid'
    rw [h.known] at hid hnew
    exact (CameBefore.of_not_mem hid hnew).append [rule]
  · rcases List.mem_append.mp hother with hother | hother
    · exact h.latest_of_ne hother fun heq => hnew (heq ▸ Rule.mem_ids hother)
    · obtain rfl := List.mem_singleton.mp hother
      exact cameLast_self

lemma put (h : store.Holds supplied) (hsupplied : ∀ rule ∈ supplied, rule.id.isText = true)
    (hrule : rule.id.isText = true) : (store.put rule).Holds (supplied ++ [rule]) := by
  by_cases hknown : rule.id ∈ ids store.rules
  · obtain ⟨before, old, after, hrules, hold⟩ := Rule.exists_of_mem_ids hknown
    rw [h.put_known hsupplied hrule hrules hold]
    exact h.replace hrules hold
  · rw [h.put_new hsupplied hrule hknown]
    exact h.append hknown

lemma foldl_put (h : store.Holds supplied) {added : List Rule}
    (htext : ∀ rule ∈ supplied ++ added, rule.id.isText = true) :
    (added.foldl RuleStore.put store).Holds (supplied ++ added) := by
  induction added generalizing store supplied with
  | nil => simpa using h
  | cons rule added ih =>
    have hput := h.put (fun other hother => htext other (by simp [hother])) (htext rule (by simp))
    simpa using ih hput (by simpa using htext)

end Holds

lemma add_eq_ok (store : RuleStore) (h : rule.id.isText = true) :
    store.add rule = .ok (store.put rule) := by
  simp [add, Datum.checkKey_of_isText h, bind, Except.bind, pure, Except.pure]

lemma addAll_eq_ok (store : RuleStore) {added : List Rule}
    (h : ∀ rule ∈ added, rule.id.isText = true) :
    store.addAll added = .ok (added.foldl put store) := by
  induction added generalizing store with
  | nil => rfl
  | cons rule added ih =>
    have htail := ih (store.put rule) fun other hother => h other (by simp [hother])
    rw [addAll, List.foldlM_cons, add_eq_ok store (h rule (by simp))]
    exact htail

lemma holds_ofList {rules : List Rule} (h : ∀ rule ∈ rules, rule.id.isText = true) :
    (ofList rules).Holds rules := by
  have htext : ∀ rule ∈ [] ++ rules, rule.id.isText = true := h
  exact Holds.empty.foldl_put htext

/-- Adding rules to a store succeeds. The store then holds what has been supplied from its beginning
on, and one more rule takes the place of the rule with its identifier or else comes last. -/
def Keeps (store : RuleStore) (supplied added : List Rule) : Prop :=
  ∃ final, store.addAll added = .ok final ∧ final.Holds (supplied ++ added) ∧
    ∀ rule : Rule, rule.id.isText = true →
      (∀ before old after, final.rules = before ++ old :: after → old.id = rule.id →
        final.add rule = .ok ⟨before ++ rule :: after⟩) ∧
      (rule.id ∉ ids final.rules → final.add rule = .ok ⟨final.rules ++ [rule]⟩)

lemma keeps_ofList {initial added : List Rule}
    (h : ∀ rule ∈ initial ++ added, rule.id.isText = true) :
    (ofList initial).Keeps initial added := by
  have hinitial : ∀ rule ∈ initial, rule.id.isText = true :=
    fun rule hrule => h rule (by simp [hrule])
  have hadded : ∀ rule ∈ added, rule.id.isText = true := fun rule hrule => h rule (by simp [hrule])
  have hholds := (holds_ofList hinitial).foldl_put h
  refine ⟨_, addAll_eq_ok _ hadded, hholds, fun rule hrule => ⟨?_, fun hnew => ?_⟩⟩
  · intro before old after hrules hold
    rw [add_eq_ok _ hrule, hholds.put_known h hrule hrules hold]
  · rw [add_eq_ok _ hrule, hholds.put_new h hrule hnew]

section Files

/-- The records that a file lists. A text or a record without content lists none. -/
inductive Lists : Datum → List Datum → Prop
  | list (items : List Datum) : Lists (.list items) items
  | text : Lists (.text "") []
  | record : Lists (.record []) []

/-- A record that describes a rule, whose identifier is the text of that of the record. -/
def Describes (record : Datum) (rule : Rule) : Prop :=
  Rule.ofDatum record = .ok rule ∧
    ∃ id, record.field? "id" = some id ∧ rule.id = .text id.display

lemma describes_iff {record : Datum} : Describes record rule ↔ Rule.ofDatum record = .ok rule := by
  refine ⟨And.left, fun h => ⟨h, ?_⟩⟩
  cases record with
  | record fields =>
    simp only [Rule.ofDatum, bind_eq_ok_iff] at h
    obtain ⟨id, hid, code, -, formula, -, h⟩ := h
    cases h
    unfold Rule.required at hid
    split at hid
    · next value hvalue =>
      cases hid
      exact ⟨id, hvalue, rfl⟩
    · cases hid
  | _ => cases h

lemma ofDatum_eq_ok_iff {records : Datum} :
    ofDatum records = .ok store ↔
      ∃ items rules, Lists records items ∧ List.Forall₂ Describes items rules ∧
        store = ofList rules := by
  constructor
  · intro h
    cases records with
    | list items =>
      cases hrules : items.mapM Rule.ofDatum with
      | error e => simp [ofDatum, hrules, Except.map] at h
      | ok rules =>
        simp only [ofDatum, hrules, Except.map, Except.ok.injEq] at h
        refine ⟨items, rules, .list items, ?_, h.symm⟩
        exact (forall₂_of_mapM_eq_ok hrules).imp fun _ _ => describes_iff.mpr
    | record fields =>
      cases fields with
      | nil =>
        cases h
        exact ⟨[], [], .record, .nil, rfl⟩
      | cons field fields => cases h
    | text s =>
      cases hempty : s.isEmpty with
      | false => simp [ofDatum, Datum.isTruthy, hempty] at h
      | true =>
        obtain rfl := String.isEmpty_iff.mp hempty
        cases h
        exact ⟨[], [], .text, .nil, rfl⟩
    | _ => cases h
  · rintro ⟨items, rules, hlists, hrules, rfl⟩
    cases hlists with
    | list items =>
      have hmap := mapM_eq_ok (hrules.imp fun _ _ => describes_iff.mp)
      simp only [ofDatum, hmap, Except.map]
    | text => cases hrules; rfl
    | record => cases hrules; rfl

lemma isText_of_describes {items : List Datum} {rules : List Rule}
    (h : List.Forall₂ Describes items rules) : ∀ rule ∈ rules, rule.id.isText = true := by
  induction h with
  | nil => simp
  | cons hhead _ ih =>
    obtain ⟨-, id, -, hid⟩ := hhead
    simpa [hid, Datum.isText] using ih

end Files

/-- Whatever rules come in under texts as identifiers, at first as a list or as the records of a
file and then one by one, the store holds the last one under each identifier in the order of the
first ones. Rules set one by one into an empty store give that of their list, and a file that can be
read gives the store of the rules that its records describe. -/
theorem addAll_keeps (added : List Rule) (hadded : ∀ rule ∈ added, rule.id.isText = true) :
    (∀ initial : List Rule, (∀ rule ∈ initial, rule.id.isText = true) →
      addAll {} initial = .ok (ofList initial) ∧ (ofList initial).Keeps initial added) ∧
    ∀ content loaded, ofJson content = .ok loaded ↔
      ∃ records items rules, Json.read content = .ok records ∧ Lists records items ∧
        List.Forall₂ Describes items rules ∧ loaded = ofList rules ∧ loaded.Keeps rules added := by
  have hkeeps {initial : List Rule} (h : ∀ rule ∈ initial, rule.id.isText = true) :
      (ofList initial).Keeps initial added := by
    refine keeps_ofList fun rule hrule => ?_
    rcases List.mem_append.mp hrule with hrule | hrule
    · exact h rule hrule
    · exact hadded rule hrule
  refine ⟨fun initial h => ⟨addAll_eq_ok {} h, hkeeps h⟩, fun content loaded => ?_⟩
  simp only [ofJson, bind_eq_ok_iff, ofDatum_eq_ok_iff]
  constructor
  · rintro ⟨records, hread, items, rules, hlists, hrules, rfl⟩
    exact ⟨records, items, rules, hread, hlists, hrules, rfl, hkeeps (isText_of_describes hrules)⟩
  · rintro ⟨records, items, rules, hread, hlists, hrules, hloaded, -⟩
    exact ⟨records, hread, items, rules, hlists, hrules, hloaded⟩

theorem addAll_keeps_replaced :
    let rule (id formula : String) : Rule :=
      ⟨.text id, .text "600000", .text "", .text "", .text formula, .bool true⟩
    let initial := [rule "a" "C", rule "b" "O", rule "a" "H"]
    let added := [rule "c" "L", rule "b" "V"]
    let loaded : RuleStore := ⟨[rule "1" "O"]⟩
    (∀ rule ∈ added, rule.id.isText = true) ∧ (∀ rule ∈ initial, rule.id.isText = true) ∧
      (∃ final, (ofList initial).addAll added = .ok final ∧ final.Holds (initial ++ added) ∧
        final.rules = [rule "a" "H", rule "b" "V", rule "c" "L"]) ∧
      ofJson ("[\x7b\"id\": 1, \"code\": \"600000\", \"formula\": \"C\"\x7d," ++
        "\x7b\"id\": \"1\", \"code\": \"600000\", \"formula\": \"O\"\x7d]") = .ok loaded ∧
      ∃ rules, loaded.Keeps rules added := by
  intro rule initial added loaded
  have hadded : ∀ rule ∈ added, rule.id.isText = true := by decide
  have hinitial : ∀ rule ∈ initial, rule.id.isText = true := by decide
  obtain ⟨hlists, hfiles⟩ := addAll_keeps added hadded
  obtain ⟨-, final, hfinal, hholds, -⟩ := hlists initial hinitial
  have hrules : (ofList initial).addAll added =
      .ok ⟨[rule "a" "H", rule "b" "V", rule "c" "L"]⟩ := rfl
  have hloaded : ofJson ("[\x7b\"id\": 1, \"code\": \"600000\", \"formula\": \"C\"\x7d," ++
      "\x7b\"id\": \"1\", \"code\": \"600000\", \"formula\": \"O\"\x7d]") = .ok loaded := by
    cbv
  obtain ⟨-, -, rules, -, -, -, -, hkeeps⟩ := (hfiles _ _).mp hloaded
  refine ⟨hadded, hinitial, ⟨final, hfinal, hholds, ?_⟩, hloaded, rules, hkeeps⟩
  cases hfinal.symm.trans hrules
  rfl

end RuleStore

end MarketFormula
