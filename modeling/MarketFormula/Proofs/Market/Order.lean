import MarketFormula.Market.Table
import MarketFormula.Proofs.CalendarDate.Order
import MarketFormula.Proofs.Market.Record

/-!
# The order of bars

Bars are sorted by the texts of their dates. If these are the texts of days whose years have four
digits, the days are in order.
-/
namespace MarketFormula

open CalendarDate

/-- Every date that is read is the text of a day, its year without leading zeros. -/
def DateReader.WritesDays (readDate : DateReader) : Prop :=
  ∀ value date, readDate value = .ok date → ∃ day : CalendarDate, day.InRange ∧ date = day.render

lemma CalendarDate.writesDays_read : DateReader.WritesDays CalendarDate.read := by
  intro value date h
  unfold CalendarDate.read at h
  cases hday : ofDatum value with
  | error e =>
    rw [hday] at h
    cases h
  | ok day =>
    rw [hday] at h
    cases h
    exact ⟨day, inRange_of_ofDatum hday, rfl⟩

lemma Datum.exists_day_of_toBar {readDate : DateReader} {record : Datum} {bar : Bar Float}
    (hdays : readDate.WritesDays) (h : record.toBar readDate = .ok bar) :
    ∃ day : CalendarDate, day.InRange ∧ bar.date = day.render := by
  obtain ⟨value, -, hread⟩ := toBar_eq_ok_iff.mp h .date
  cases hdate : readDate value with
  | error e =>
    rw [BarPart.read, hdate] at hread
    cases hread
  | ok date =>
    rw [BarPart.read, hdate] at hread
    simp only [Except.map, Bar.part, Except.ok.injEq, text.injEq] at hread
    exact hread ▸ hdays value date hdate

namespace Series

/-- The bars are in the order of the texts of their dates, which are those of these days. -/
structure Follows {α : Type} (s : Series α) (days : List CalendarDate) : Prop where
  dates : s.dates = days.map render
  inRange : ∀ day ∈ days, day.InRange
  sorted : s.dates.Pairwise (· ≤ ·)

variable {α : Type} {s : Series α} {days : List CalendarDate}

lemma Follows.tail (h : s.Follows days) (count : Int) :
    (s.tail count).Follows (days.drop (s.length - count.toNat)) where
  dates := by
    rw [Series.tail, Series.dates, List.map_drop, List.map_drop, ← h.dates, Series.dates]
  inRange day hday := h.inRange day (List.mem_of_mem_drop hday)
  sorted := by
    rw [Series.tail, Series.dates, List.map_drop]
    exact h.sorted.sublist (List.drop_sublist _ _)

theorem Follows.pairwise (h : s.Follows days) (hyears : ∀ day ∈ days, day.HasFourDigits) :
    days.Pairwise AtMost := by
  have hsorted := h.sorted
  rw [h.dates, List.pairwise_map] at hsorted
  refine hsorted.imp_of_mem fun hday hday' hle => ?_
  exact atMost_of_render_le (hyears _ hday) (hyears _ hday') (h.inRange _ hday)
    (h.inRange _ hday') hle

lemma le_date_trans (a b c : Bar α) (hab : decide (a.date ≤ b.date) = true)
    (hbc : decide (b.date ≤ c.date) = true) : decide (a.date ≤ c.date) = true :=
  decide_eq_true ((of_decide_eq_true hab).trans (of_decide_eq_true hbc))

lemma le_date_total (a b : Bar α) :
    (decide (a.date ≤ b.date) || decide (b.date ≤ a.date)) = true := by
  simpa only [Bool.or_eq_true, decide_eq_true_eq] using le_total a.date b.date

lemma pairwise_sortByDate (s : Series α) : (sortByDate s).dates.Pairwise (· ≤ ·) := by
  rw [dates, List.pairwise_map]
  exact List.Pairwise.imp (fun hle => of_decide_eq_true hle)
    (List.pairwise_mergeSort le_date_trans le_date_total s)

lemma sortByDate_pair {α : Type} {bar bar' : Bar α} (h : ¬ bar.date ≤ bar'.date) :
    sortByDate [bar, bar'] = [bar', bar] := by
  simp [sortByDate, List.mergeSort, List.MergeSort.Internal.splitInTwo, h]

lemma exists_follows_of_ofRecords {readDate : DateReader} {records : List Datum} {s : Series Float}
    (hdays : readDate.WritesDays) (h : ofRecords readDate records = .ok s) :
    ∃ days, s.Follows days := by
  simp only [ofRecords, bind_eq_ok_iff] at h
  obtain ⟨bars, hbars, hsorted⟩ := h
  cases hsorted
  have hday : ∀ bar : Bar Float, ∃ day : CalendarDate, bar ∈ sortByDate bars →
      day.InRange ∧ bar.date = day.render := by
    intro bar
    by_cases hbar : bar ∈ bars
    · obtain ⟨record, -, hrecord⟩ := exists_of_mem_mapM hbars hbar
      obtain ⟨day, hday⟩ := Datum.exists_day_of_toBar hdays hrecord
      exact ⟨day, fun _ => hday⟩
    · exact ⟨⟨0, 0, 0⟩, fun hmem => absurd (List.mem_mergeSort.mp hmem) hbar⟩
  choose day hday using hday
  refine ⟨(sortByDate bars).map day, ?_, ?_, pairwise_sortByDate bars⟩
  · rw [dates, List.map_map]
    exact List.map_congr_left fun bar hbar => (hday bar hbar).2
  · intro _ hmem
    obtain ⟨bar, hbar, rfl⟩ := List.mem_map.mp hmem
    exact (hday bar hbar).1

end Series

theorem Table.exists_follows {readDate : DateReader} {t : Table} {s : Series Float}
    (hdays : readDate.WritesDays) (h : t.toSeries readDate = .ok s) : ∃ days, s.Follows days := by
  simp only [toSeries, bind_eq_ok_iff] at h
  obtain ⟨records, -, hrecords⟩ := h
  exact Series.exists_follows_of_ofRecords hdays hrecords

end MarketFormula
