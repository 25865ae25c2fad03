import MarketFormula.Market.Record
import MarketFormula.Proofs.Result

/-!
# Reading records

A bar is read from a record part by part, the date first and then the numbers from left to right.
-/
namespace MarketFormula

lemma lookup_eq_some_of_mem {α : Type} {entries : List (String × α)} {key : String} {value : α}
    (h : (key, value) ∈ entries) (hunique : ∀ value', (key, value') ∈ entries → value' = value) :
    entries.lookup key = some value := by
  cases hlookup : entries.lookup key with
  | none => simpa using List.lookup_eq_none_iff.mp hlookup _ h
  | some value' =>
    obtain ⟨before, after, rfl, -⟩ := List.lookup_eq_some_iff.mp hlookup
    rw [hunique value' (by simp)]

/-- A part of a bar: its date or one of its numbers. -/
inductive BarPart
  | date
  | number (field : Field)
  deriving DecidableEq, Repr

namespace BarPart

def all : List BarPart :=
  date :: Field.all.map number

lemma mem_all (part : BarPart) : part ∈ all := by
  cases part with
  | date => simp [all]
  | number field => simp [all, Field.mem_all]

def name : BarPart → String
  | date => "date"
  | number field => field.name

def keys : BarPart → List String
  | date => dateKeys
  | number field => field.keys

lemma name_mem_keys (part : BarPart) : part.name ∈ part.keys := by
  cases part with
  | date => simp [name, keys, dateKeys]
  | number field => cases field <;> simp [name, keys, Field.name, Field.keys]

lemma eq_of_mem_keys {part part' : BarPart} {key : String} (h : key ∈ part.keys)
    (h' : key ∈ part'.keys) : part = part' := by
  have hparts : ∀ part ∈ all, ∀ part' ∈ all, ∀ key ∈ part.keys, key ∈ part'.keys → part = part' := by
    decide
  exact hparts part part.mem_all part' part'.mem_all key h h'

/-- A value as it stands in a bar: dates in their written form, numbers as doubles. -/
def read (readDate : DateReader) : BarPart → Datum → Except DataError Datum
  | date, value => (readDate value).map .text
  | number _, value => value.toFloat.map .float

end BarPart

namespace Bar

def part (bar : Bar Float) : BarPart → Datum
  | .date => .text bar.date
  | .number field => .float (bar.get field)

lemma ext_part {bar bar' : Bar Float} (h : ∀ part, bar.part part = bar'.part part) :
    bar = bar' := by
  have hdate := h .date
  have hopening := h (.number .opening)
  have hhigh := h (.number .high)
  have hlow := h (.number .low)
  have hclose := h (.number .close)
  have hvolume := h (.number .volume)
  obtain ⟨⟨_, _, _, _, _⟩, _⟩ := bar
  obtain ⟨⟨_, _, _, _, _⟩, _⟩ := bar'
  simp_all [part, Quote.get]

end Bar

namespace Datum

variable {readDate : DateReader} {record value : Datum} {keys : List String} {part : BarPart}
  {bar : Bar Float}

/-- A record has a value under the first of some keys that occurs in it. -/
def Offers (record : Datum) (keys : List String) (value : Datum) : Prop :=
  ∃ before key after, keys = before ++ key :: after ∧
    (∀ key' ∈ before, record.mentions key' = false) ∧ record.field? key = some value

def isSearchable : Datum → Bool
  | .record _ | .list _ | .text _ => true
  | _ => false

def get (readDate : DateReader) (record : Datum) (part : BarPart) : Except DataError Datum := do
  part.read readDate (← record.pick part.name part.keys)

/-- A record can be read as a bar: each part of the bar is what the record offers for it. -/
def Parses (readDate : DateReader) (record : Datum) (bar : Bar Float) : Prop :=
  ∀ part : BarPart, ∃ value, record.Offers part.keys value ∧
    part.read readDate value = .ok (bar.part part)

/-- Why a part cannot be read. -/
inductive Refuses (readDate : DateReader) (record : Datum) (part : BarPart) : DataError → Prop
  /-- None of the keys is there. -/
  | missing (hsearch : record.isSearchable = true)
    (hkeys : ∀ key ∈ part.keys, record.mentions key = false) :
    Refuses readDate record part (.missingField part.name part.keys)
  /-- What the record offers cannot be read. -/
  | unreadable {value : Datum} {e : DataError} (hvalue : record.Offers part.keys value)
    (hread : part.read readDate value = .error e) : Refuses readDate record part e
  /-- What is not a record has no values for keys. -/
  | unfit (hrecord : ∀ fields, record ≠ .record fields)
    (hkeys : record.isSearchable = true → ∃ key ∈ part.keys, record.mentions key = true) :
    Refuses readDate record part (.wrongType record.shape)

/-- The first part that cannot be read. -/
def Fails (readDate : DateReader) (record : Datum) (e : DataError) : Prop :=
  ∃ earlier part later, BarPart.all = earlier ++ part :: later ∧
    (∀ part' ∈ earlier, ∃ content value, record.Offers part'.keys value ∧
      part'.read readDate value = .ok content) ∧
    record.Refuses readDate part e

lemma mentions_of_field? {key : String} (h : record.field? key = some value) :
    record.mentions key = true := by
  cases record with
  | record fields =>
    rw [field?] at h
    rw [mentions, h, Option.isSome_some]
  | _ => cases h

lemma exists_offers_of_mentions {fields : List (String × Datum)}
    (h : ∃ key ∈ keys, (Datum.record fields).mentions key = true) :
    ∃ value, (Datum.record fields).Offers keys value := by
  obtain ⟨key, hfind⟩ := Option.isSome_iff_exists.mp (List.find?_isSome.mpr h)
  obtain ⟨hmention, before, after, hkeys, hbefore⟩ := List.find?_eq_some_iff_append.mp hfind
  obtain ⟨value, hvalue⟩ := Option.isSome_iff_exists.mp hmention
  exact ⟨value, before, key, after, hkeys, by simpa using hbefore, hvalue⟩

lemma pick_eq_ok_iff {name : String} :
    record.pick name keys = .ok value ↔ record.Offers keys value := by
  constructor
  · intro h
    have hfind : ∃ key, keys.find? record.mentions = some key ∧ record.field? key = some value := by
      unfold pick at h
      grind
    obtain ⟨key, hkey, hvalue⟩ := hfind
    obtain ⟨-, before, after, hkeys, hbefore⟩ := List.find?_eq_some_iff_append.mp hkey
    exact ⟨before, key, after, hkeys, by simpa using hbefore, hvalue⟩
  · rintro ⟨before, key, after, rfl, hbefore, hvalue⟩
    have hfind : (before ++ key :: after).find? record.mentions = some key :=
      List.find?_eq_some_iff_append.mpr
        ⟨mentions_of_field? hvalue, before, after, rfl, by simpa using hbefore⟩
    cases record with
    | record fields => simp only [pick, hfind, hvalue]
    | _ => cases hvalue

lemma pick_of_not_isSearchable {name : String} (h : record.isSearchable = false) :
    record.pick name keys = .error (.wrongType record.shape) := by
  cases record with
  | record fields => cases h
  | list items => cases h
  | text s => cases h
  | _ => rfl

lemma pick_of_not_mentions {name : String} (hsearch : record.isSearchable = true)
    (hkeys : ∀ key ∈ keys, record.mentions key = false) :
    record.pick name keys = .error (.missingField name keys) := by
  have hfind : keys.find? record.mentions = none := by simpa using hkeys
  cases record with
  | record fields => simp only [pick, hfind]
  | list items => simp only [pick, hfind]
  | text s => simp only [pick, hfind]
  | _ => cases hsearch

lemma pick_of_mentions {name key : String} (hrecord : ∀ fields, record ≠ .record fields)
    (hkey : key ∈ keys) (hmention : record.mentions key = true) :
    record.pick name keys = .error (.wrongType record.shape) := by
  cases hfind : keys.find? record.mentions with
  | none => exact absurd hmention (List.find?_eq_none.mp hfind key hkey)
  | some found =>
    cases record with
    | record fields => exact absurd rfl (hrecord fields)
    | list items => simp only [pick, hfind, field?]
    | text s => simp only [pick, hfind, field?]
    | _ => rfl

lemma get_eq_ok_iff {content : Datum} : record.get readDate part = .ok content ↔
    ∃ value, record.Offers part.keys value ∧ part.read readDate value = .ok content := by
  simp only [get, bind_eq_ok_iff, pick_eq_ok_iff]

lemma get_eq_error_of_refuses {e : DataError} (h : record.Refuses readDate part e) :
    record.get readDate part = .error e := by
  rw [get, bind_eq_error_iff]
  cases h with
  | missing hsearch hkeys => exact .inl (pick_of_not_mentions hsearch hkeys)
  | unreadable hvalue hread => exact .inr ⟨_, pick_eq_ok_iff.mpr hvalue, hread⟩
  | unfit hrecord hkeys =>
    by_cases hsearch : record.isSearchable = true
    · obtain ⟨key, hkey, hmention⟩ := hkeys hsearch
      exact .inl (pick_of_mentions hrecord hkey hmention)
    · exact .inl (pick_of_not_isSearchable (Bool.not_eq_true _ ▸ hsearch))

lemma exists_refuses {e : DataError} (h : record.get readDate part = .error e) :
    ∃ e', record.Refuses readDate part e' := by
  by_cases hrecord : ∃ fields, record = .record fields
  · obtain ⟨fields, rfl⟩ := hrecord
    by_cases hkeys : ∃ key ∈ part.keys, (Datum.record fields).mentions key = true
    · obtain ⟨value, hvalue⟩ := exists_offers_of_mentions hkeys
      cases hread : part.read readDate value with
      | ok content =>
        rw [get_eq_ok_iff.mpr ⟨value, hvalue, hread⟩] at h
        cases h
      | error e' => exact ⟨e', .unreadable hvalue hread⟩
    · exact ⟨_, .missing rfl (by simpa using hkeys)⟩
  · have hrecord' : ∀ fields, record ≠ .record fields := by simpa using hrecord
    by_cases hkeys : record.isSearchable = true → ∃ key ∈ part.keys, record.mentions key = true
    · exact ⟨_, .unfit hrecord' hkeys⟩
    · obtain ⟨hsearch, hnone⟩ := Classical.not_imp.mp hkeys
      exact ⟨_, .missing hsearch (by simpa using hnone)⟩

lemma get_eq_error_iff {e : DataError} :
    record.get readDate part = .error e ↔ record.Refuses readDate part e := by
  refine ⟨fun h => ?_, get_eq_error_of_refuses⟩
  obtain ⟨e', hrefuses⟩ := exists_refuses h
  have he := get_eq_error_of_refuses hrefuses
  rw [h] at he
  cases he
  exact hrefuses

lemma map_toBar (readDate : DateReader) (record : Datum) :
    (fun bar : Bar Float => BarPart.all.map bar.part) <$> record.toBar readDate =
      BarPart.all.mapM (record.get readDate) := by
  have hdate : ∀ value, BarPart.date.read readDate value =
      (readDate value >>= fun date => pure (.text date)) := fun value => rfl
  have hnumber : ∀ field value, (BarPart.number field).read readDate value =
      (value.toFloat >>= fun x => pure (.float x)) := fun field value => rfl
  simp only [toBar, get, BarPart.all, Field.all, List.map_cons, List.map_nil, List.mapM_cons,
    List.mapM_nil, hdate, hnumber, Quote.make, bind_assoc, pure_bind, map_bind, map_pure]
  rfl

theorem toBar_eq_ok_iff : record.toBar readDate = .ok bar ↔ record.Parses readDate bar := by
  have hparts : record.Parses readDate bar ↔
      BarPart.all.mapM (record.get readDate) = .ok (BarPart.all.map bar.part) := by
    constructor
    · intro h
      refine mapM_eq_ok (List.forall₂_map_right_iff.mpr (List.forall₂_same.mpr fun part _ => ?_))
      exact get_eq_ok_iff.mpr (h part)
    · intro h part
      have hpart := List.forall₂_same.mp (List.forall₂_map_right_iff.mp (forall₂_of_mapM_eq_ok h))
      exact get_eq_ok_iff.mp (hpart part part.mem_all)
  rw [hparts, ← map_toBar]
  cases record.toBar readDate with
  | error e => simp
  | ok bar' =>
    have hext : BarPart.all.map bar'.part = BarPart.all.map bar.part ↔ bar' = bar := by
      refine ⟨fun h => Bar.ext_part fun part => ?_, fun h => h ▸ rfl⟩
      exact List.map_inj_left.mp h part part.mem_all
    simpa using hext.symm

theorem toBar_eq_error_iff {e : DataError} :
    record.toBar readDate = .error e ↔ record.Fails readDate e := by
  have hparts : record.toBar readDate = .error e ↔
      BarPart.all.mapM (record.get readDate) = .error e := by
    rw [← map_toBar]
    cases record.toBar readDate <;> simp
  simp only [hparts, mapM_eq_error_iff, Fails, get_eq_error_iff, get_eq_ok_iff]

/-- A record has a value under one of the names of a part and under no other. -/
def Names (record : Datum) (part : BarPart) (value : Datum) : Prop :=
  ∃ key ∈ part.keys, record.field? key = some value ∧
    ∀ key' ∈ part.keys, key' ≠ key → record.mentions key' = false

/-- Two records that have the same values, each of them under one name. -/
def Respelled (record record' : Datum) : Prop :=
  ∀ part : BarPart, ∃ value, record.Names part value ∧ record'.Names part value

lemma Names.offers (h : record.Names part value) : record.Offers part.keys value := by
  obtain ⟨key, hkey, hvalue, hothers⟩ := h
  obtain ⟨before, after, hkeys, hbefore⟩ := List.eq_append_cons_of_mem hkey
  refine ⟨before, key, after, hkeys, fun key' hkey' => ?_, hvalue⟩
  refine hothers key' (hkeys ▸ List.mem_append_left _ hkey') fun heq => ?_
  exact hbefore (heq ▸ hkey')

lemma Offers.unique {value' : Datum} (h : record.Offers keys value) (h' : record.Offers keys value') :
    value = value' := by
  have hpick : record.pick "" keys = .ok value := pick_eq_ok_iff.mpr h
  rw [pick_eq_ok_iff.mpr h'] at hpick
  cases hpick
  rfl

lemma Parses.of_respelled {record' : Datum} (h : record.Parses readDate bar)
    (hrespelled : record.Respelled record') : record'.Parses readDate bar := by
  intro part
  obtain ⟨value, hvalue, hread⟩ := h part
  obtain ⟨value', hnames, hnames'⟩ := hrespelled part
  obtain rfl := hvalue.unique hnames.offers
  exact ⟨value, hnames'.offers, hread⟩

def spelled (key : BarPart → String) (value : BarPart → Datum) : Datum :=
  .record (BarPart.all.map fun part => (key part, value part))

lemma names_spelled {key : BarPart → String} (hkey : ∀ part, key part ∈ part.keys)
    (value : BarPart → Datum) (part : BarPart) : (spelled key value).Names part (value part) := by
  have hparts : ∀ part', key part' ∈ part.keys → part' = part := fun part' h =>
    BarPart.eq_of_mem_keys (hkey part') h
  refine ⟨key part, hkey part, ?_, fun key' hkey' hne => ?_⟩
  · refine lookup_eq_some_of_mem (List.mem_map_of_mem part.mem_all) fun value' hvalue' => ?_
    obtain ⟨part', -, heq⟩ := List.mem_map.mp hvalue'
    obtain ⟨hsame, rfl⟩ := Prod.mk.injEq .. ▸ heq
    rw [hparts part' (hsame ▸ hkey part)]
  · have hlookup : (BarPart.all.map fun part => (key part, value part)).lookup key' = none := by
      refine List.lookup_eq_none_iff.mpr fun entry hentry => ?_
      obtain ⟨part', -, rfl⟩ := List.mem_map.mp hentry
      refine bne_iff_ne.mpr fun (hsame : key' = key part') => hne ?_
      rw [hsame, hparts part' (hsame ▸ hkey')]
    rw [spelled, mentions, hlookup, Option.isSome_none]

lemma respelled_spelled {key key' : BarPart → String} (hkey : ∀ part, key part ∈ part.keys)
    (hkey' : ∀ part, key' part ∈ part.keys) (value : BarPart → Datum) :
    (spelled key value).Respelled (spelled key' value) := fun part =>
  ⟨value part, names_spelled hkey value part, names_spelled hkey' value part⟩

lemma parses_spelled {key : BarPart → String} (hkey : ∀ part, key part ∈ part.keys)
    {value : BarPart → Datum} :
    (spelled key value).Parses readDate bar ↔
      ∀ part : BarPart, part.read readDate (value part) = .ok (bar.part part) := by
  refine forall_congr' fun part => ?_
  have hoffers := (names_spelled hkey value part).offers
  constructor
  · rintro ⟨value', hvalue', hread⟩
    rwa [hvalue'.unique hoffers] at hread
  · intro hread
    exact ⟨_, hoffers, hread⟩

end Datum

end MarketFormula
