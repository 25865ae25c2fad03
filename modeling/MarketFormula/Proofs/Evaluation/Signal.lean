import MarketFormula.Evaluation.Trigger
import MarketFormula.Proofs.Evaluation.Agreement
import MarketFormula.Proofs.Result

/-!
# The signal of a series is what was decided on each day

At every bar the signal of a formula is its trigger on the bars up to that one, and the formula
fails for the whole series exactly if it fails for these bars.
-/
namespace MarketFormula

lemma Value.truthAt_of_getElem? {v : Value} {n i : Nat} {b : Bool}
    (h : (v.toBoolean n)[i]? = some b) : v.truthAt i = .ok b := by
  have hentry : ∀ {α : Type} (entries : List α), entryAt? entries i = entries[i]? := by
    intro α entries
    simp [entryAt?]
  cases v with
  | scalar s =>
    obtain ⟨-, rfl⟩ : i < n ∧ s.toBool = b := by
      simpa [toBoolean, List.getElem?_replicate] using h
    rfl
  | numeric xs =>
    simp only [toBoolean, truths_eq_map, List.getElem?_map] at h
    simp only [truthAt, hentry, h]
  | boolean bs =>
    simp only [toBoolean] at h
    simp only [truthAt, hentry, h]

lemma Frame.column_take (frame : Frame) (field : Field) (k : Nat) :
    Frame.column (frame.take k) field = (frame.column field).take k :=
  List.map_take

lemma Quote.of_make {α ε : Type} {f : Field → Except ε α} {quote : Quote α}
    (h : make f = .ok quote) (field : Field) : f field = .ok (quote.get field) := by
  simp only [make, bind_eq_ok_iff] at h
  obtain ⟨_, hopening, _, hhigh, _, hlow, _, hclose, _, hvolume, hquote⟩ := h
  cases hquote
  cases field
  · exact hopening
  · exact hhigh
  · exact hlow
  · exact hclose
  · exact hvolume

namespace Series

lemma resolve_take {α : Type} {s : Series α} {i : Nat} (hi : i < s.length) {v : Value} {b : Bool}
    (h : v.truthAt i = .ok b) :
    resolve (s.take (i + 1)) v = .ok (.atBar b i s[i].date) := by
  have hlength : (s.take (i + 1)).length = i + 1 := List.length_take_of_le hi
  have hlast : (s.take (i + 1)).getLast? = some s[i] := by
    rw [List.getLast?_eq_getElem?, hlength, List.getElem?_take_of_lt (by omega),
      Nat.add_sub_cancel, List.getElem?_eq_getElem hi]
  have hindex : ((i + 1 : Nat) : Int) - 1 = i := by omega
  simp only [resolve, hlast, hlength, hindex, h]
  rfl

variable {α : Type} [ToFloat α]

/-- A frame holds the quotes of a series as numbers. -/
def Reads (s : Series α) (frame : Frame) : Prop :=
  List.Forall₂ (fun bar quote => bar.toQuote.read = .ok quote) s frame

lemma exists_reads {s : Series α} (h : ∀ bar ∈ s, ∃ quote, bar.toQuote.read = .ok quote) :
    ∃ frame, s.Reads frame := by
  induction s with
  | nil => exact ⟨[], .nil⟩
  | cons bar rest ih =>
    obtain ⟨quote, hquote⟩ := h bar (List.mem_cons_self ..)
    obtain ⟨frame, hframe⟩ := ih fun bar' hbar' => h bar' (List.mem_cons_of_mem _ hbar')
    exact ⟨quote :: frame, .cons hquote hframe⟩

namespace Reads

variable {s : Series α} {frame : Frame}

lemma length_eq (h : s.Reads frame) : frame.length = s.length :=
  (List.Forall₂.length_eq h).symm

lemma take (h : s.Reads frame) (k : Nat) : Reads (s.take k) (frame.take k) :=
  List.forall₂_take k h

lemma toFrame_eq (h : s.Reads frame) : s.toFrame = .ok frame := by
  have hcolumns : (Field.all.forM fun field =>
      s.forM fun bar => discard (ToFloat.toFloat (bar.get field))) =
      (.ok () : Except DataError Unit) := by
    refine forM_eq_ok fun field _ => forM_eq_ok fun bar hbar => ?_
    obtain ⟨i, hi, rfl⟩ := List.getElem_of_mem hbar
    have hread := (List.forall₂_iff_get.mp h).2 i hi (h.length_eq ▸ hi)
    have hnumber := Quote.of_make hread field
    simp only [List.get_eq_getElem] at hnumber
    rw [hnumber]
    rfl
  rw [toFrame, hcolumns]
  exact mapM_eq_ok h

end Reads

lemma signal_agree {s : Series α} {frame : Frame} (h : s.Reads frame) (formula : String)
    {i : Nat} (hi : i < s.length) :
    Related (fun (signals : List Bool) (result : TriggerResult) =>
        signals.length = s.length ∧ signals[i]? = some result.triggered ∧
          result.index = i ∧ result.date = s[i].date)
      (s.signal (.text formula)) (evaluate (s.take (i + 1)) (.text formula)) := by
  have hlength := h.length_eq
  have hlengthTake : (frame.take (i + 1)).length = i + 1 := List.length_take_of_le (by omega)
  have hs : s.isEmpty = false := by
    rw [List.isEmpty_eq_false_iff]
    rintro rfl
    simp at hi
  have ht : (s.take (i + 1)).isEmpty = false := by
    rw [List.isEmpty_eq_false_iff, Ne, List.take_eq_nil_iff]
    simpa using hs
  simp only [signal, evaluate, evaluateTree, hs, ht, Bool.false_eq_true, if_false, h.toFrame_eq,
    (h.take (i + 1)).toFrame_eq, Expr.ofDatum]
  refine (Related.ofFormula (Expr.parse formula)).bind ?_
  rintro e _ rfl
  have hagree := Expr.eval_agree (show i + 1 ≤ frame.length by omega)
    (show i + 1 ≤ (frame.take (i + 1)).length by omega) e fun field _ => {
      length := List.length_map _
      length' := List.length_map _
      take := by rw [Frame.column_take, List.take_take, Nat.min_self] }
  refine hagree.bind fun v v' hv => ?_
  have hcolumns := hv.toBoolean (show i + 1 ≤ frame.length by omega)
    (show i + 1 ≤ (frame.take (i + 1)).length by omega)
  obtain ⟨b, hb, hb'⟩ := hcolumns.exists_getElem? (by omega) (Nat.lt_succ_self i)
  rw [resolve_take hi (Value.truthAt_of_getElem? hb')]
  exact .ok ⟨hcolumns.length.trans hlength, hb, rfl, rfl⟩

/-- Back-testing a formula over a series whose numbers can be read gives at every bar what
evaluating it on the bars up to there gives: the same fault of the formula, or its trigger with the
place and the date of that bar. -/
theorem signal_eq_evaluate (s : Series α)
    (hs : ∀ bar ∈ s, ∃ quote, bar.toQuote.read = .ok quote) (formula : String) (i : Nat)
    (hi : i < s.length) :
    (∀ e, s.signal (.text formula) = .error (.formula e) ↔
      evaluate (s.take (i + 1)) (.text formula) = .error (.formula e)) ∧
    ((∀ e, s.signal (.text formula) ≠ .error (.formula e)) →
      ∃ signals result, s.signal (.text formula) = .ok signals ∧
        evaluate (s.take (i + 1)) (.text formula) = .ok result ∧
        signals.length = s.length ∧ signals[i]? = some result.triggered ∧
        result.index = i ∧ result.date = s[i].date) := by
  obtain ⟨frame, hframe⟩ := exists_reads hs
  have hagree := signal_agree hframe formula hi
  refine ⟨fun e => hagree.error_iff (.formula e), fun hok => ?_⟩
  cases hsignal : s.signal (.text formula) with
  | error fault =>
    obtain ⟨e, rfl, -⟩ := hagree.exists_of_error hsignal
    exact absurd hsignal (hok e)
  | ok signals =>
    obtain ⟨result, hresult, hrel⟩ := hagree.exists_of_ok hsignal
    exact ⟨signals, result, rfl, hresult, hrel⟩

theorem signal_eq_evaluate_above_average :
    let s : Series Float :=
      [⟨⟨1, 2, 1, 2, 10⟩, "2024-01-02"⟩, ⟨⟨2, 4, 2, 4, 10⟩, "2024-01-03"⟩,
        ⟨⟨4, 4, 1, 1, 10⟩, "2024-01-04"⟩]
    (∀ bar ∈ s, ∃ quote, bar.toQuote.read = .ok quote) ∧
    s.signal (.text "C > MA(C, 2)") = .ok [false, true, false] ∧
    ∃ result, evaluate (s.take 2) (.text "C > MA(C, 2)") = .ok result ∧
      result.triggered = true ∧ result.index = 1 ∧ result.date = "2024-01-03" := by
  intro s
  have hread : ∀ bar ∈ s, ∃ quote, bar.toQuote.read = .ok quote :=
    fun bar _ => ⟨bar.toQuote, bar.toQuote.read_float⟩
  have hsignal : s.signal (.text "C > MA(C, 2)") = .ok [false, true, false] := by decide +kernel
  have hday := (signal_eq_evaluate s hread "C > MA(C, 2)" 1 (by decide)).2 fun e => by
    simp [hsignal]
  obtain ⟨signals, result, hsignals, hresult, -, htriggered, hindex, hdate⟩ := hday
  cases hsignal.symm.trans hsignals
  exact ⟨hread, hsignal, result, hresult, (Option.some.inj htriggered).symm, hindex, hdate⟩

end Series

end MarketFormula
