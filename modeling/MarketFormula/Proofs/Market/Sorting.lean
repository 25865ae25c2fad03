import Mathlib.Data.List.Perm.Basic
import MarketFormula.Proofs.Market.Order

/-!
# The sorted bars of records

The bars of a series are those of its records, in the order of their dates, and bars of one date
are in the order of the records. No other series has these properties.
-/
namespace MarketFormula.Series

/-- A series has the given bars in the order of their dates, and those of one date in the given
order. -/
structure Arranges {α : Type} (s bars : Series α) : Prop where
  perm : s.Perm bars
  sorted : s.dates.Pairwise (· ≤ ·)
  stable : ∀ date, s.filter (·.date = date) = bars.filter (·.date = date)

section Arrangement

variable {α : Type} {s s' bars bars' : Series α}

lemma filter_sortByDate (bars : Series α) (date : String) :
    (sortByDate bars).filter (·.date = date) = bars.filter (·.date = date) := by
  have hsame : (bars.filter (·.date = date)).Pairwise fun a b => decide (a.date ≤ b.date) = true := by
    refine List.pairwise_of_forall_mem_list fun a ha b hb => decide_eq_true ?_
    rw [of_decide_eq_true (List.mem_filter.mp ha).2, of_decide_eq_true (List.mem_filter.mp hb).2]
  have hsublist : (bars.filter (·.date = date)).Sublist (sortByDate bars) :=
    List.sublist_mergeSort le_date_trans le_date_total hsame List.filter_sublist
  have hfiltered := hsublist.filter (·.date = date)
  rw [List.filter_filter] at hfiltered
  simp only [Bool.and_self] at hfiltered
  have hperm := (List.mergeSort_perm bars fun a b => a.date ≤ b.date).filter (·.date = date)
  exact (hfiltered.eq_of_length hperm.length_eq.symm).symm

lemma arranges_sortByDate (bars : Series α) : (sortByDate bars).Arranges bars where
  perm := List.mergeSort_perm ..
  sorted := pairwise_sortByDate bars
  stable := filter_sortByDate bars

lemma mem_of_filter_eq (h : ∀ date, s.filter (·.date = date) = s'.filter (·.date = date))
    {bar : Bar α} (hbar : bar ∈ s) : bar ∈ s' := by
  have hmem : bar ∈ s.filter (·.date = bar.date) := List.mem_filter.mpr ⟨hbar, decide_eq_true rfl⟩
  rw [h] at hmem
  exact List.mem_of_mem_filter hmem

lemma head_date_le {bar bar' : Bar α} {rest : Series α}
    (hs : dates (bar' :: rest) |>.Pairwise (· ≤ ·)) (hbar : bar ∈ bar' :: rest) :
    bar'.date ≤ bar.date := by
  rw [dates, List.pairwise_map] at hs
  obtain rfl | hrest := List.mem_cons.mp hbar
  · exact le_refl _
  · exact List.rel_of_pairwise_cons hs hrest

lemma eq_of_filter_eq (hs : s.dates.Pairwise (· ≤ ·)) (hs' : s'.dates.Pairwise (· ≤ ·))
    (h : ∀ date, s.filter (·.date = date) = s'.filter (·.date = date)) : s = s' := by
  induction s generalizing s' with
  | nil =>
    refine (List.eq_nil_iff_forall_not_mem.mpr fun bar hbar => ?_).symm
    exact List.not_mem_nil (mem_of_filter_eq (fun date => (h date).symm) hbar)
  | cons bar rest ih =>
    cases s' with
    | nil => exact absurd (mem_of_filter_eq h (List.mem_cons_self ..)) List.not_mem_nil
    | cons bar' rest' =>
      -- Each head is in the other series, so neither is before the other.
      have hle :=
        head_date_le hs (mem_of_filter_eq (fun date => (h date).symm) (List.mem_cons_self ..))
      have hge := head_date_le hs' (mem_of_filter_eq h (List.mem_cons_self ..))
      have hdate : bar'.date = bar.date := le_antisymm hge hle
      have hhead := h bar.date
      simp only [List.filter_cons, hdate, decide_true, if_true] at hhead
      obtain ⟨rfl, -⟩ := List.cons_eq_cons.mp hhead
      have hrest := ih (List.pairwise_cons.mp hs).2 (List.pairwise_cons.mp hs').2 fun date => by
        by_cases hbar : bar.date = date
        · simpa [List.filter_cons, hbar] using h date
        · simpa [List.filter_cons, hbar] using h date
      rw [hrest]

theorem Arranges.unique (h : s.Arranges bars) (h' : s'.Arranges bars) : s = s' :=
  eq_of_filter_eq h.sorted h'.sorted fun date => (h.stable date).trans (h'.stable date).symm

lemma eq_of_perm_of_same_date {date : String} (hperm : s'.Perm s) (hdates : s.dates.Nodup)
    (hdate : ∀ bar ∈ s, bar.date = date) : s = s' := by
  match s with
  | [] => exact (List.perm_nil.mp hperm).symm
  | [bar] => exact (List.perm_singleton.mp hperm).symm
  | bar :: bar' :: rest =>
    have hne := List.rel_of_pairwise_cons (List.pairwise_map.mp hdates) (List.mem_cons_self ..)
    exact absurd ((hdate bar (by simp)).trans (hdate bar' (by simp)).symm) hne

lemma Arranges.of_perm (h : s.Arranges bars) (hperm : bars.Perm bars') (hdates : s.dates.Nodup) :
    s.Arranges bars' where
  perm := h.perm.trans hperm
  sorted := h.sorted
  stable date := by
    have hfiltered := (hperm.filter (·.date = date)).symm
    rw [← h.stable date] at hfiltered
    have hnodup : (dates (s.filter (·.date = date))).Nodup :=
      hdates.sublist (List.filter_sublist.map _)
    exact eq_of_perm_of_same_date hfiltered hnodup fun bar hbar =>
      of_decide_eq_true (List.mem_filter.mp hbar).2

end Arrangement

variable {readDate : DateReader} {records records' : List Datum} {s : Series Float}

lemma ofRecords_eq_ok_iff : ofRecords readDate records = .ok s ↔
    ∃ bars, List.Forall₂ (Datum.Parses readDate) records bars ∧ s.Arranges bars := by
  simp only [ofRecords, bind_eq_ok_iff]
  constructor
  · rintro ⟨bars, hbars, hs⟩
    cases hs
    refine ⟨bars, (forall₂_of_mapM_eq_ok hbars).imp fun _ _ h => ?_, arranges_sortByDate bars⟩
    exact Datum.toBar_eq_ok_iff.mp h
  · rintro ⟨bars, hbars, hs⟩
    refine ⟨bars, mapM_eq_ok (hbars.imp fun _ _ h => Datum.toBar_eq_ok_iff.mpr h), ?_⟩
    rw [hs.unique (arranges_sortByDate bars)]
    rfl

lemma ofRecords_eq_error_iff {e : DataError} : ofRecords readDate records = .error e ↔
    ∃ before record after, records = before ++ record :: after ∧
      (∀ record' ∈ before, ∃ bar, record'.Parses readDate bar) ∧ record.Fails readDate e := by
  have hbars : ofRecords readDate records = .error e ↔
      records.mapM (Datum.toBar readDate) = .error e := by
    rw [ofRecords, bind_eq_error_iff]
    refine ⟨fun h => ?_, .inl⟩
    obtain h | ⟨bars, -, h⟩ := h
    · exact h
    · cases h
  simp only [hbars, mapM_eq_error_iff, Datum.toBar_eq_ok_iff, Datum.toBar_eq_error_iff]

lemma ofRecords_of_forall₂ (h : ofRecords readDate records = .ok s)
    (hrecords : List.Forall₂
      (fun record record' => ∀ bar, record.Parses readDate bar → record'.Parses readDate bar)
      records records') : ofRecords readDate records' = .ok s := by
  obtain ⟨bars, hbars, hs⟩ := ofRecords_eq_ok_iff.mp h
  refine ofRecords_eq_ok_iff.mpr ⟨bars, ?_, hs⟩
  clear h hs
  induction hrecords generalizing bars with
  | nil => exact hbars
  | cons hhead _ ih =>
    cases hbars with
    | cons hbar hrest => exact .cons (hhead _ hbar) (ih _ hrest)

lemma ofRecords_of_perm (h : ofRecords readDate records = .ok s) (hdates : s.dates.Nodup)
    (hperm : records.Perm records') : ofRecords readDate records' = .ok s := by
  obtain ⟨bars, hbars, hs⟩ := ofRecords_eq_ok_iff.mp h
  obtain ⟨bars', hbars', hperm'⟩ := List.perm_comp_forall₂ hperm.symm hbars
  exact ofRecords_eq_ok_iff.mpr ⟨bars', hbars', hs.of_perm hperm'.symm hdates⟩

/-- Whatever reads the dates, either each record has its bar and the series arranges the bars, or
the fault is that of the first record without a bar. If each date occurs once and each value has one
name, other names and another order of the records change nothing. -/
theorem ofRecords_sorts (readDate : DateReader) (records : List Datum) :
    ((∃ bars s, List.Forall₂ (Datum.Parses readDate) records bars ∧
        ofRecords readDate records = .ok s ∧ s.Arranges bars) ∨
      ∃ before record after e, records = before ++ record :: after ∧
        (∀ record' ∈ before, ∃ bar, record'.Parses readDate bar) ∧ record.Fails readDate e ∧
        ofRecords readDate records = .error e) ∧
    ∀ s permuted records', ofRecords readDate records = .ok s → s.dates.Nodup →
      records.Perm permuted → List.Forall₂ Datum.Respelled permuted records' →
      ofRecords readDate records' = .ok s := by
  constructor
  · cases h : ofRecords readDate records with
    | ok s =>
      obtain ⟨bars, hbars, hs⟩ := ofRecords_eq_ok_iff.mp h
      exact .inl ⟨bars, s, hbars, rfl, hs⟩
    | error e =>
      obtain ⟨before, record, after, hrecords, hbefore, hrecord⟩ := ofRecords_eq_error_iff.mp h
      exact .inr ⟨before, record, after, e, hrecords, hbefore, hrecord, rfl⟩
  · intro s permuted records' hs hdates hperm hrespelled
    refine ofRecords_of_forall₂ (ofRecords_of_perm hs hdates hperm) (hrespelled.imp ?_)
    exact fun record record' h bar hbar => hbar.of_respelled h

/-- Two days under their Chinese names, the later one first, and under short and long names. One of
the dates has its month as a word. -/
theorem ofRecords_sorts_two :
    let readDate : DateReader := fun
      | .text "03-Jan-2024" => .ok "2024-01-03"
      | value => CalendarDate.read value
    let early : BarPart → Datum := fun
      | .date => .text "2024-01-02"
      | .number .volume => .int 100
      | .number _ => .text "10.5"
    let late : BarPart → Datum := fun
      | .date => .text "03-Jan-2024"
      | .number .volume => .int 200
      | .number _ => .text "11"
    ofRecords readDate [.spelled (·.keys[1]!) early, .spelled (·.name) late] =
      .ok [⟨⟨10.5, 10.5, 10.5, 10.5, 100⟩, "2024-01-02"⟩, ⟨⟨11, 11, 11, 11, 200⟩, "2024-01-03"⟩] := by
  intro readDate early late
  have hbars : [Datum.spelled (·.keys[2]!) late, .spelled (·.keys[2]!) early].mapM
      (Datum.toBar readDate) =
      .ok [⟨⟨11, 11, 11, 11, 200⟩, "2024-01-03"⟩, ⟨⟨10.5, 10.5, 10.5, 10.5, 100⟩, "2024-01-02"⟩] := by
    decide +kernel
  have hs : ofRecords readDate [.spelled (·.keys[2]!) late, .spelled (·.keys[2]!) early] =
      .ok [⟨⟨10.5, 10.5, 10.5, 10.5, 100⟩, "2024-01-02"⟩, ⟨⟨11, 11, 11, 11, 200⟩, "2024-01-03"⟩] := by
    rw [ofRecords, hbars]
    exact congrArg Except.ok (sortByDate_pair (by decide +kernel))
  have hkeys : ∀ part : BarPart,
      part.keys[2]! ∈ part.keys ∧ part.keys[1]! ∈ part.keys ∧ part.name ∈ part.keys := by
    intro part
    cases part with
    | date => decide
    | number field => cases field <;> decide
  refine (ofRecords_sorts readDate _).2 _ _ _ hs (by decide +kernel) (List.Perm.swap ..) ?_
  refine .cons ?_ (.cons ?_ .nil)
  · exact Datum.respelled_spelled (fun part => (hkeys part).1) (fun part => (hkeys part).2.1) _
  · exact Datum.respelled_spelled (fun part => (hkeys part).1) (fun part => (hkeys part).2.2) _

end MarketFormula.Series
