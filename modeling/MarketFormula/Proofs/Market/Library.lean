import MarketFormula.Csv.PlainFiles
import MarketFormula.Proofs.FileTree
import MarketFormula.Proofs.Market.Order

/-!
# What is relied on of a library

A column of plain cells is written line by line.
-/
namespace MarketFormula

/-- A cell that needs no quotation marks. -/
def IsPlainCell (cell : String) : Prop :=
  ∀ c ∈ cell.toList, c.isAlphanum = true ∨ c = '-'

structure LabelledColumn.IsPlain (column : LabelledColumn) : Prop where
  labelName : IsPlainCell column.labelName
  name : IsPlainCell column.name
  labels : ∀ entry ∈ column.entries, IsPlainCell entry.1

/-- A column of plain cells can be written to a path, and its lines are then what the file shows. -/
def Library.CanWrite {F : Type} (library : Library F) (shown : F → String → Option String)
    (files : F) (path : String) : Prop :=
  ∀ column : LabelledColumn, column.IsPlain →
    ∃ files', library.writeColumn files path column = .ok files' ∧
      shown files' path = some column.text

lemma isPlainCell_append {s t : String} (hs : IsPlainCell s) (ht : IsPlainCell t) :
    IsPlainCell (s ++ t) := by
  intro c hc
  rw [String.toList_append, List.mem_append] at hc
  exact hc.elim (hs c) (ht c)

lemma isPlainCell_of_digits {s : String} (h : ∀ c ∈ s.toList, c.isDigit = true) :
    IsPlainCell s := by
  intro c hc
  left
  rw [Char.isAlphanum, h c hc, Bool.or_true]

lemma CalendarDate.isPlainCell_render (d : CalendarDate) : IsPlainCell d.render := by
  have hdigits : ∀ n, ∀ c ∈ Nat.toDigits 10 n, c.isDigit = true := fun n c hc =>
    Nat.isDigit_of_mem_toDigits (by decide) (by decide) hc
  have hyear : IsPlainCell (toString d.year) := by
    refine isPlainCell_of_digits fun c hc => hdigits d.year c ?_
    simpa [toString, Nat.repr] using hc
  have hpadded : ∀ n, IsPlainCell (padded 2 n) := by
    intro n
    refine isPlainCell_of_digits fun c hc => ?_
    rw [padded, String.toList_ofList, List.mem_append] at hc
    obtain hzero | hdigit := hc
    · rw [List.eq_of_mem_replicate hzero]
      decide
    · exact hdigits n c hdigit
  have hhyphen : IsPlainCell "-" := by simp [IsPlainCell]
  exact isPlainCell_append (isPlainCell_append (isPlainCell_append
    (isPlainCell_append hyear hhyphen) (hpadded d.month)) hhyphen) (hpadded d.day)

lemma Series.Follows.isPlainCell {s : Series Float} {days : List CalendarDate} (h : s.Follows days) :
    ∀ date ∈ s.dates, IsPlainCell date := by
  rw [h.dates]
  intro date hdate
  obtain ⟨day, -, rfl⟩ := List.mem_map.mp hdate
  exact day.isPlainCell_render

namespace Csv

def shownIn (files : FileTree) (path : String) : Option String :=
  (files.read path).toOption

lemma canWrite_plainFiles {files : FileTree} {path : String} (h : files.IsWritable path) :
    plainFiles.CanWrite shownIn files path := by
  intro column _
  obtain ⟨files', hwrite⟩ := h.exists_write column.text
  exact ⟨files', hwrite, by rw [shownIn, FileTree.read_of_write hwrite]; rfl⟩

end Csv

end MarketFormula
