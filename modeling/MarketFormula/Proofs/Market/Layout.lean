import Mathlib.Logic.Relation
import MarketFormula.Proofs.Market.Sorting
import MarketFormula.Proofs.Market.Storage
import MarketFormula.Proofs.Text.CaseChange

/-!
# The layout of tables

The series of a table depends on nothing but the columns of a quote and its date.
-/
namespace MarketFormula

def Datum.SameDate (readDate : DateReader) (value value' : Datum) : Prop :=
  readDate value = readDate value'

namespace Table

def entries (t : Table) : List (String × List Datum) :=
  t.columns.zipIdx.map fun (name, i) => (name, t.columnAt i)

/-- One change of the layout of a table: another order of its rows or columns, other letter case of
its names, one more column that is no part of a bar, or other labels. The labels may be others after
each of them. -/
inductive Rearranged (t t' : Table) : Prop
  | rows (hcolumns : t'.columns = t.columns) (hrows : t.rows.Perm t'.rows)
  | columns (hcolumns : t.entries.Perm t'.entries) (hrows : t'.rows.length = t.rows.length)
  | letterCase (hcolumns : t'.columns.map Text.lower = t.columns.map Text.lower)
    (hrows : t'.rows = t.rows)
  | added {before after : List (String × List Datum)} {name : String} {cells : List Datum}
    (hother : ∀ part : BarPart, Text.lower name ≠ part.name) (hcolumns : t.entries = before ++ after)
    (hcolumns' : t'.entries = before ++ (name, cells) :: after)
    (hrows : t'.rows.length = t.rows.length)
  | labels (hcolumns : t'.columns = t.columns) (hrows : t'.rows = t.rows)

/-- The name of labels that are dates: none, if no column would be confused with them, or that of a
date column. -/
def NamesDates (t : Table) (name : Option String) : Prop :=
  match name with
  | none => "index" ∉ t.columns.map Text.lower
  | some written => Text.lower written = "date"

/-- A table without its date column, which has the same dates as the labels of its rows. -/
structure Undated (readDate : DateReader) (t t' : Table) : Prop where
  entries : t'.entries = t.entries.filter fun (name, _) => Text.lower name ≠ "date"
  rows : t'.rows.length = t.rows.length
  labels : ∃ labels dates, t'.labels = [labels] ∧ t'.NamesDates labels.name ∧
    ("date", dates) ∈ t.named ∧ List.Forall₂ (Datum.SameDate readDate) (settle labels.cells) dates

/-- Among columns there is exactly one for each part of a bar. -/
def Gives (columns : List (String × List Datum)) (column : BarPart → List Datum) : Prop :=
  ∀ part cells, (part.name, cells) ∈ columns ↔ cells = column part

def recordsOf (count : Nat) (column : BarPart → List Datum) : List Datum :=
  (List.range count).map fun i => .spelled (·.name) fun part => (column part)[i]?.getD .null

/-- A table has one column for each part of a bar, and its records are these in some order. -/
def Carries (t : Table) (records : List Datum) : Prop :=
  ∃ column, Gives t.named column ∧ (recordsOf t.rows.length column).Perm records

variable {readDate : DateReader} {t t' : Table} {columns : List (String × List Datum)}
  {column : BarPart → List Datum} {records : List Datum}

lemma named_eq_map_entries (t : Table) :
    t.named = t.entries.map fun (name, cells) => (Text.lower name, cells) := by
  rw [named, entries, List.map_map]
  rfl

lemma mem_named {name : String} {cells : List Datum} : (name, cells) ∈ t.named ↔
    ∃ i, (t.columns.map Text.lower)[i]? = some name ∧ cells = t.columnAt i := by
  simp only [named, List.mem_map, Prod.exists, List.mem_zipIdx_iff_getElem?, List.getElem?_map,
    Option.map_eq_some_iff, Prod.mk.injEq]
  constructor
  · rintro ⟨written, i, hwritten, hname, rfl⟩
    exact ⟨i, ⟨written, hwritten, hname⟩, rfl⟩
  · rintro ⟨i, ⟨written, hwritten, hname⟩, rfl⟩
    exact ⟨written, i, hwritten, hname, rfl⟩

lemma Gives.column?_eq (h : Gives columns column) (part : BarPart) :
    column? columns part.name = some (column part) := by
  refine lookup_eq_some_of_mem (List.mem_reverse.mpr ((h part _).mpr rfl)) fun cells hcells => ?_
  exact (h part cells).mp (List.mem_reverse.mp hcells)

lemma Gives.lookup_eq (h : Gives columns column) (part : BarPart) :
    columns.lookup part.name = some (column part) :=
  lookup_eq_some_of_mem ((h part _).mpr rfl) fun cells hcells => (h part cells).mp hcells

lemma dated_of_gives (h : Gives t.named column) : t.dated = .ok t.named := by
  have hdate : t.named.lookup "date" = some (column .date) := h.lookup_eq .date
  rw [dated, hdate]
  rfl

lemma records_of_gives (hdated : t.dated = .ok columns) (h : Gives columns column) :
    t.records = .ok (recordsOf t.rows.length column) := by
  have hmissing :
      ((Field.all.map Field.name).filter fun name => (columns.lookup name).isNone) = [] := by
    refine List.filter_eq_nil_iff.mpr fun name hname => ?_
    obtain ⟨field, -, rfl⟩ := List.mem_map.mp hname
    simp [show field.name = (BarPart.number field).name from rfl, h.lookup_eq]
  have hdate : columns.lookup "date" = some (column .date) := h.lookup_eq .date
  simp only [records, hdated, bind, Except.bind, hmissing, hdate, List.isEmpty_nil, Bool.not_true,
    Bool.false_eq_true, if_false, Option.isNone_some]
  refine congrArg Except.ok (List.map_congr_left fun i _ => congrArg Datum.record ?_)
  change (BarPart.all.map BarPart.name).map _ = _
  rw [List.map_map]
  refine List.map_congr_left fun part _ => ?_
  rw [Function.comp_apply, h.column?_eq, Option.bind_some]

lemma Gives.exists_place (h : Gives t.named column) : ∃ place : BarPart → Nat, ∀ part,
    (t.columns.map Text.lower)[place part]? = some part.name ∧
      column part = t.columnAt (place part) := by
  have hplace := fun part => mem_named.mp ((h part (column part)).mpr rfl)
  choose place hplace using hplace
  exact ⟨place, hplace⟩

lemma recordsOf_columnAt (t : Table) (place : BarPart → Nat) :
    recordsOf t.rows.length (fun part => t.columnAt (place part)) =
      t.rows.map fun row => .spelled (·.name) fun part => row[place part]?.getD .null := by
  refine List.ext_getElem (by simp [recordsOf]) fun i hi hi' => ?_
  have hrow : i < t.rows.length := by simpa using hi'
  simp [recordsOf, columnAt, hrow]

lemma Gives.carries_of_rows (h : Gives t.named column)
    (hcolumns : t'.columns.map Text.lower = t.columns.map Text.lower)
    (hrows : t.rows.Perm t'.rows) : t'.Carries (recordsOf t.rows.length column) := by
  obtain ⟨place, hplace⟩ := h.exists_place
  refine ⟨fun part => t'.columnAt (place part), fun part cells => ?_, ?_⟩
  · rw [mem_named, hcolumns]
    constructor
    · rintro ⟨i, hname, rfl⟩
      -- A second column of the name has the same cells before the change, so it has them afterwards.
      have hsame : t.columnAt i = t.columnAt (place part) :=
        ((h part _).mp (mem_named.mpr ⟨i, hname, rfl⟩)).trans (hplace part).2
      exact List.map_congr_left fun row hrow =>
        List.map_inj_left.mp hsame row (hrows.mem_iff.mpr hrow)
    · rintro rfl
      exact ⟨place part, (hplace part).1, rfl⟩
  · have hcolumn : column = fun part => t.columnAt (place part) := funext fun part => (hplace part).2
    rw [hcolumn, recordsOf_columnAt, recordsOf_columnAt]
    exact hrows.symm.map _

lemma Carries.of_perm {records' : List Datum} (h : t.Carries records)
    (hperm : records.Perm records') : t.Carries records' := by
  obtain ⟨column, hcolumn, hrecords⟩ := h
  exact ⟨column, hcolumn, hrecords.trans hperm⟩

lemma Carries.of_rearranged (h : t.Carries records) (hstep : Rearranged t t') :
    t'.Carries records := by
  obtain ⟨column, h, hperm⟩ := h
  cases hstep with
  | rows hcolumns hrows => exact (h.carries_of_rows (congrArg _ hcolumns) hrows).of_perm hperm
  | labels hcolumns hrows =>
    exact (h.carries_of_rows (congrArg _ hcolumns) (hrows ▸ List.Perm.refl _)).of_perm hperm
  | letterCase hcolumns hrows =>
    exact (h.carries_of_rows hcolumns (hrows ▸ List.Perm.refl _)).of_perm hperm
  | columns hcolumns hrows =>
    refine ⟨column, fun part cells => ?_, hrows ▸ hperm⟩
    rw [← h part cells, named_eq_map_entries, named_eq_map_entries]
    exact (hcolumns.map _).mem_iff.symm
  | added hother hcolumns hcolumns' hrows =>
    refine ⟨column, fun part cells => ?_, hrows ▸ hperm⟩
    rw [← h part cells, named_eq_map_entries, named_eq_map_entries, hcolumns, hcolumns']
    simp [(hother part).symm]

lemma Carries.of_reflTransGen (h : t.Carries records)
    (hrun : Relation.ReflTransGen Rearranged t t') : t'.Carries records := by
  induction hrun with
  | refl => exact h
  | tail _ hstep ih => exact ih.of_rearranged hstep

lemma isSome_lookup_named {name : String} :
    (t.named.lookup name).isSome = true ↔ name ∈ t.columns.map Text.lower := by
  have hnames : t.named.map Prod.fst = t.columns.map Text.lower := by
    conv_rhs => rw [← List.zipIdx_map_fst 0 t.columns]
    simp only [named, List.map_map]
    rfl
  rw [← hnames, List.lookup_isSome_iff, List.mem_map]
  exact exists_congr fun _ => and_congr_right fun _ => beq_iff_eq.trans eq_comm

lemma lookup_named_eq_none {name : String} :
    t.named.lookup name = none ↔ name ∉ t.columns.map Text.lower := by
  rw [← isSome_lookup_named, Bool.not_eq_true, Option.isSome_eq_false_iff, Option.isNone_iff_eq_none]

lemma name_mem_columns (hdate : "date" ∈ t.columns.map Text.lower)
    (hrecords : t.records = .ok records) (part : BarPart) :
    part.name ∈ t.columns.map Text.lower := by
  have hdated : t.dated = .ok t.named := by
    rw [dated, if_pos (isSome_lookup_named.mpr hdate)]
    rfl
  simp only [Table.records, hdated, bind, Except.bind] at hrecords
  split_ifs at hrecords with hmissing
  have hempty : ((Field.all.map Field.name).filter fun name => (t.named.lookup name).isNone) = [] := by
    simpa using hmissing
  cases part with
  | date => exact hdate
  | number field =>
    have hfield := List.filter_eq_nil_iff.mp hempty field.name (List.mem_map_of_mem field.mem_all)
    refine isSome_lookup_named.mp (Option.isSome_iff_ne_none.mpr fun hnone => hfield ?_)
    exact Option.isNone_iff_eq_none.mpr hnone

lemma exists_gives (hnames : (t.columns.map Text.lower).Nodup)
    (hdate : "date" ∈ t.columns.map Text.lower) (hrecords : t.records = .ok records) :
    ∃ column, Gives t.named column := by
  have hplace := fun part => List.mem_iff_getElem?.mp (name_mem_columns hdate hrecords part)
  choose place hplace using hplace
  refine ⟨fun part => t.columnAt (place part), fun part cells => ?_⟩
  rw [mem_named]
  constructor
  · rintro ⟨i, hi, rfl⟩
    obtain ⟨hlt, -⟩ := List.getElem?_eq_some_iff.mp hi
    rw [(List.getElem?_inj hlt hnames).mp (hi.trans (hplace part).symm)]
  · rintro rfl
    exact ⟨place part, hplace part, rfl⟩

section Undated

variable {labels : Labels}

lemma lookup_dateSource (hlabels : t.labels = [labels]) (hname : t.NamesDates labels.name)
    (hdate : t.named.lookup "date" = none) :
    t.labelName t.named labels 0 = t.dateSource ∧ t.named.lookup t.dateSource = none := by
  obtain ⟨name, cells⟩ := labels
  cases name with
  | none =>
    have hindex := lookup_named_eq_none.mpr hname
    have hsource : t.dateSource = "index" := by simp [dateSource, hlabels]
    refine ⟨?_, hsource ▸ hindex⟩
    rw [hsource, labelName, hlabels, hindex]
    rfl
  | some written =>
    have hwritten : Text.lower written = "date" := hname
    have hempty : written.isEmpty = false := by
      refine Bool.eq_false_iff.mpr fun hempty => ?_
      rw [String.isEmpty_iff.mp hempty] at hwritten
      exact absurd hwritten (by decide)
    have hsource : t.dateSource = written := by simp [dateSource, hlabels, hempty]
    refine ⟨hsource ▸ rfl, ?_⟩
    rw [hsource, lookup_named_eq_none]
    intro hmem
    obtain ⟨column, -, rfl⟩ := List.mem_map.mp hmem
    -- A name in lower case whose lower case is `date` is `date` itself.
    rw [Text.lower_eq_of_lower_lower hwritten (by simp)] at hmem
    exact lookup_named_eq_none.mp hdate hmem

lemma dated_of_labels (hlabels : t.labels = [labels]) (hname : t.NamesDates labels.name)
    (hdate : t.named.lookup "date" = none) :
    t.dated = .ok (("date", settle labels.cells) :: t.named) := by
  obtain ⟨hsame, hsource⟩ := lookup_dateSource hlabels hname hdate
  have hcolumns : t.withLabels t.named = .ok ((t.dateSource, settle labels.cells) :: t.named) := by
    simp only [withLabels, hlabels, List.zipIdx_singleton, List.reverse_singleton, List.foldlM_cons,
      List.foldlM_nil, hsame, hsource]
    rfl
  have hothers : ∀ entry ∈ t.named,
      (if entry.1 = t.dateSource then "date" else entry.1, entry.2) = entry := by
    intro entry hentry
    have hne := List.lookup_eq_none_iff.mp hsource entry hentry
    rw [if_neg fun heq => bne_iff_ne.mp hne heq.symm]
  simp only [dated, hdate, hcolumns, bind, Except.bind, Option.isSome_none, Bool.false_eq_true,
    if_false, List.map_cons, if_true]
  rw [List.map_congr_left (g := id) hothers, List.map_id]
  rfl

lemma named_of_undated (h : Undated readDate t t') :
    t'.named = t.named.filter fun (name, _) => name ≠ "date" := by
  rw [named_eq_map_entries, named_eq_map_entries, h.entries, List.filter_map]
  rfl

lemma Gives.of_undated (h : Gives t.named column) {cells : List Datum}
    (hundated : Undated readDate t t') :
    Gives (("date", cells) :: t'.named) (Function.update column .date cells) := by
  intro part cells'
  rw [named_of_undated hundated, List.mem_cons, List.mem_filter, h]
  cases part with
  | date => simp [BarPart.name]
  | number field =>
    have hname : (BarPart.number field).name ≠ "date" := by cases field <;> decide
    simp [hname]

lemma sameDate_settle_of_ofCells {names : List String} {rows : List (List Datum)}
    (h : ofCells names rows labels = .ok t) {name : String} {cells : List Datum}
    (hcells : (name, cells) ∈ t.named) :
    List.Forall₂ (Datum.SameDate readDate) (settle cells) cells := by
  obtain ⟨i, -, rfl⟩ := mem_named.mp hcells
  rw [settle_columnAt h]
  exact List.forall₂_same.mpr fun _ _ => rfl

lemma sameDate_getD {cells cells' : List Datum}
    (h : List.Forall₂ (Datum.SameDate readDate) cells cells') (i : Nat) :
    (cells[i]?.getD .null).SameDate readDate (cells'[i]?.getD .null) := by
  induction h generalizing i with
  | nil => rfl
  | cons hhead _ ih =>
    cases i with
    | zero => exact hhead
    | succ i => simpa using ih i

lemma toSeries_of_undated {s : Series Float} (h : Gives t.named column)
    (hundated : Undated readDate t t') (hs : t.toSeries readDate = .ok s) :
    t'.toSeries readDate = .ok s := by
  obtain ⟨labels, dates, hlabels, hname, hdates, hsame⟩ := hundated.labels
  have hdate : t'.named.lookup "date" = none := by
    rw [named_of_undated hundated]
    refine List.lookup_eq_none_iff.mpr fun entry hentry => bne_iff_ne.mpr fun heq => ?_
    exact of_decide_eq_true (List.mem_filter.mp hentry).2 heq.symm
  have hrecords := records_of_gives (dated_of_labels hlabels hname hdate) (h.of_undated hundated)
  rw [toSeries, records_of_gives (dated_of_gives h) h] at hs
  rw [toSeries, hrecords]
  refine Series.ofRecords_of_forall₂ hs ?_
  rw [recordsOf, recordsOf, hundated.rows, List.forall₂_map_left_iff, List.forall₂_map_right_iff,
    List.forall₂_same]
  intro i _ bar hbar
  rw [Datum.parses_spelled BarPart.name_mem_keys] at hbar ⊢
  intro part
  cases part with
  | number field => simpa using hbar (.number field)
  | date =>
    have hread := hbar .date
    rw [← (h .date dates).mp hdates] at hread
    rw [Function.update_self, BarPart.read, sameDate_getD hsame i]
    exact hread

end Undated

/-- Whatever reads the dates, the layout of a table does not matter. If it has a date column and no
two columns have one name, and if no date occurs twice in its series, every other layout has this
series, and so has every table with the dates as labels. -/
theorem toSeries_of_rearranged {s : Series Float} (hnames : (t.columns.map Text.lower).Nodup)
    (hdate : "date" ∈ t.columns.map Text.lower) (hs : t.toSeries readDate = .ok s)
    (hdates : s.dates.Nodup) (hrun : Relation.ReflTransGen Rearranged t t') :
    t'.toSeries readDate = .ok s ∧
      ∀ t'', Undated readDate t' t'' → t''.toSeries readDate = .ok s := by
  obtain ⟨records, hrecords, hs'⟩ := bind_eq_ok_iff.mp hs
  obtain ⟨column, h⟩ := exists_gives hnames hdate hrecords
  cases hrecords.symm.trans (records_of_gives (dated_of_gives h) h)
  have hcarries : t.Carries (recordsOf t.rows.length column) := ⟨column, h, List.Perm.refl _⟩
  obtain ⟨column', h', hperm⟩ := hcarries.of_reflTransGen hrun
  have ht' : t'.toSeries readDate = .ok s := by
    rw [toSeries, records_of_gives (dated_of_gives h') h']
    exact Series.ofRecords_of_perm hs' hdates hperm.symm
  exact ⟨ht', fun t'' hundated => toSeries_of_undated h' hundated ht'⟩

def twoDays : Table where
  columns := ["Date", "open", "high", "low", "close", "volume"]
  rows := [
    [.text "2024-01-03", .int 11, .int 13, .int 10, .int 12, .int 200],
    [.text "2024-01-02", .int 10, .int 12, .int 9, .int 11, .int 100]]
  labels := [⟨none, [.int 0, .int 1]⟩]

/-- The two days as another program might write them. -/
def twoDaysExported : Table where
  columns := ["OPEN", "DATE", "High", "Low", "Close", "Volume", "Amount"]
  rows := [
    [.int 10, .text "2024-01-02", .int 12, .int 9, .int 11, .int 100, .null],
    [.int 11, .text "2024-01-03", .int 13, .int 10, .int 12, .int 200, .null]]
  labels := [⟨some "row", [.text "a", .text "b"]⟩]

def twoDaysLabelled : Table where
  columns := ["OPEN", "High", "Low", "Close", "Volume", "Amount"]
  rows := [
    [.int 10, .int 12, .int 9, .int 11, .int 100, .null],
    [.int 11, .int 13, .int 10, .int 12, .int 200, .null]]
  labels := [⟨some "Date", [.text "2024-01-02", .text "2024-01-03"]⟩]

lemma rearranged_twoDays : Relation.ReflTransGen Rearranged twoDays twoDaysExported := by
  let sorted : Table := { twoDays with rows := twoDays.rows.reverse }
  let renamed : Table :=
    { sorted with columns := ["DATE", "OPEN", "High", "Low", "Close", "Volume"] }
  let reordered : Table :=
    { twoDaysExported with
      columns := twoDaysExported.columns.dropLast
      rows := twoDaysExported.rows.map (·.dropLast) }
  have hrows : Rearranged twoDays sorted := .rows rfl (List.reverse_perm _).symm
  have hcase : Rearranged sorted renamed := .letterCase (by decide +kernel) rfl
  have hcolumns : Rearranged renamed reordered := .columns (List.Perm.swap ..) rfl
  have hother : ∀ part : BarPart, Text.lower "Amount" ≠ part.name := by
    intro part
    have hlower : Text.lower "Amount" = "amount" := by decide +kernel
    cases part with
    | date => simp [hlower, BarPart.name]
    | number field => cases field <;> simp [hlower, BarPart.name, Field.name]
  have hadded : Rearranged reordered twoDaysExported :=
    .added hother (List.append_nil _).symm rfl rfl
  exact (((Relation.ReflTransGen.single hrows).tail hcase).tail hcolumns).tail hadded

theorem toSeries_of_rearranged_twoDays :
    let s : Series Float :=
      [⟨⟨10, 12, 9, 11, 100⟩, "2024-01-02"⟩, ⟨⟨11, 13, 10, 12, 200⟩, "2024-01-03"⟩]
    twoDays.toSeries CalendarDate.read = .ok s ∧
      twoDaysExported.toSeries CalendarDate.read = .ok s ∧
      twoDaysLabelled.toSeries CalendarDate.read = .ok s := by
  intro s
  have hbars : (do (← twoDays.records).mapM (Datum.toBar CalendarDate.read)) =
      .ok [⟨⟨11, 13, 10, 12, 200⟩, "2024-01-03"⟩, ⟨⟨10, 12, 9, 11, 100⟩, "2024-01-02"⟩] := by
    decide +kernel
  have hs : twoDays.toSeries CalendarDate.read = .ok s := by
    obtain ⟨records, hrecords, hbars⟩ := bind_eq_ok_iff.mp hbars
    rw [toSeries, hrecords]
    change Series.ofRecords _ records = _
    rw [Series.ofRecords, hbars]
    exact congrArg Except.ok (Series.sortByDate_pair (by decide +kernel))
  have hcells : ofCells twoDaysExported.columns twoDaysExported.rows
      ⟨some "row", [.text "a", .text "b"]⟩ = .ok twoDaysExported := rfl
  have hdates : ("date", [.text "2024-01-02", .text "2024-01-03"]) ∈ twoDaysExported.named :=
    List.mem_cons_of_mem _ (List.mem_cons_self ..)
  have hundated : Undated CalendarDate.read twoDaysExported twoDaysLabelled :=
    { entries := rfl
      rows := rfl
      labels := ⟨_, _, rfl, show Text.lower "Date" = "date" by decide +kernel, hdates,
        sameDate_settle_of_ofCells hcells hdates⟩ }
  obtain ⟨hexported, hlabelled⟩ :=
    toSeries_of_rearranged (by decide +kernel) (by decide +kernel) hs (by decide +kernel)
      rearranged_twoDays
  exact ⟨hs, hexported, hlabelled _ hundated⟩

end Table

end MarketFormula
