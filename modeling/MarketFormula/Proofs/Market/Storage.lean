import Mathlib.Data.List.Basic
import Mathlib.Tactic.SplitIfs
import MarketFormula.Market.Table

/-!
# Stored cells

A table of cells stores each column as a whole. What is stored stays as it is when it is stored once
more, so the cells of a column may become the labels of rows and a column again.
-/
namespace MarketFormula

namespace Datum

/-- A cell that is not changed when it is stored. -/
def IsStored (cell : Datum) : Prop :=
  cell.isNull = false ∧ cell.widen = cell

lemma isStored_widen (cell : Datum) : cell.widen.IsStored := by
  cases cell with
  | int n =>
    cases h : floatOfInt n with
    | ok x => simp [IsStored, widen, h, isNull]
    | error e => simp [IsStored, widen, h, isNull]
  | _ => exact ⟨rfl, rfl⟩

lemma isStored_of_isText {cell : Datum} (h : cell.isNull = false → cell.isText = true) :
    (if cell.isNull then .float Decimal.nan else cell : Datum).IsStored := by
  cases cell with
  | null => exact ⟨rfl, rfl⟩
  | text s => exact ⟨rfl, rfl⟩
  | _ => exact absurd (h rfl) (by simp [isText])

end Datum

namespace Table

lemma settle_cases (cells : List Datum) : settle cells = cells ∨ settle cells = cells.map Datum.widen ∨
    ((cells.filter (!Datum.isNull ·)).all Datum.isText = true ∧ settle cells =
      cells.map fun cell => if Datum.isNull cell then .float Decimal.nan else cell) := by
  simp only [settle]
  split_ifs with hkept hnumbers hwhole htexts
  · exact .inl rfl
  · exact .inl rfl
  · exact .inr (.inl rfl)
  · exact .inr (.inr ⟨htexts, rfl⟩)
  · exact .inl rfl

lemma length_settle (cells : List Datum) : (settle cells).length = cells.length := by
  obtain h | h | ⟨-, h⟩ := settle_cases cells <;> simp [h]

lemma settle_eq_self {cells : List Datum} (h : ∀ cell ∈ cells, cell.IsStored) :
    settle cells = cells := by
  obtain hself | hwidened | ⟨-, hfilled⟩ := settle_cases cells
  · exact hself
  · rw [hwidened]
    exact (List.map_congr_left fun cell hcell => (h cell hcell).2).trans (List.map_id' cells)
  · rw [hfilled]
    refine (List.map_congr_left fun cell hcell => ?_).trans (List.map_id' cells)
    rw [(h cell hcell).1]
    rfl

theorem settle_settle (cells : List Datum) : settle (settle cells) = settle cells := by
  obtain hself | hwidened | ⟨htexts, hfilled⟩ := settle_cases cells
  · rw [hself, hself]
  · refine settle_eq_self fun cell hcell => ?_
    rw [hwidened] at hcell
    obtain ⟨cell', -, rfl⟩ := List.mem_map.mp hcell
    exact cell'.isStored_widen
  · refine settle_eq_self fun cell hcell => ?_
    rw [hfilled] at hcell
    obtain ⟨cell', hcell', rfl⟩ := List.mem_map.mp hcell
    refine Datum.isStored_of_isText fun hnull => ?_
    exact List.all_eq_true.mp htexts cell' (List.mem_filter.mpr ⟨hcell', by simp [hnull]⟩)

variable {columns : List String} {rows : List (List Datum)} {labels : Labels} {t : Table}

lemma columnAt_ofCells (h : ofCells columns rows labels = .ok t) (i : Nat) :
    t.columnAt i = if i < columns.length then settle (rows.map fun row => row[i]?.getD .null)
      else List.replicate rows.length .null := by
  simp only [ofCells] at h
  split_ifs at h
  cases h
  refine List.ext_getElem ?_ fun j hj hj' => ?_
  · split_ifs <;> simp [columnAt, length_settle]
  · have hrow : j < rows.length := by simpa [columnAt] using hj
    by_cases hi : i < columns.length
    · simp [columnAt, hi, hrow, length_settle]
    · simp [columnAt, hi]

theorem settle_columnAt (h : ofCells columns rows labels = .ok t) (i : Nat) :
    settle (t.columnAt i) = t.columnAt i := by
  have hcolumn := columnAt_ofCells h i
  by_cases hi : i < columns.length
  · rw [hcolumn, if_pos hi, settle_settle]
  · rw [hcolumn, if_neg hi]
    simp [settle, Datum.isNull]

end Table

end MarketFormula
