import MarketFormula.Proofs.Evaluation.LongWindow
import MarketFormula.Proofs.Indicator.WindowMean

/-!
# What rounding cannot change about a mean

The total of a running mean may be far off after large entries, but the counters of its state are
exact. They alone decide where a mean is missing.
-/
namespace MarketFormula.Indicator

open Decimal

namespace RunningMean

lemma Tracks.mean?_cases {α : Type} [MeanArithmetic α] {entries : List (Option α)}
    {s : RunningMean α} {n : Nat} {m : α} (h : Tracks entries s) (hn : 1 ≤ n)
    (hm : s.mean? n = some m) : m ∈ entries.reduceOption ∨ m = MeanArithmetic.zero ∨
      (¬ (s.signed = 0 ∧ MeanArithmetic.isBelow m MeanArithmetic.zero = true) ∧
        ¬ (s.signed = s.count ∧ MeanArithmetic.isBelow MeanArithmetic.zero m = true)) := by
  unfold mean? at hm
  split at hm
  · cases hm
  · next hfull =>
    split at hm
    · refine .inl ?_
      have hcount := h.count
      cases hentries : entries.reduceOption with
      | nil =>
        rw [hentries, List.length_nil] at hcount
        omega
      | cons x older =>
        rw [h.latest x older hentries] at hm
        cases hm
        exact List.mem_cons_self
    · dsimp only at hm
      split at hm
      · exact .inr (.inl (Option.some.inj hm).symm)
      · next hnegative =>
        split at hm
        · exact .inr (.inl (Option.some.inj hm).symm)
        · next hpositive =>
          cases hm
          exact .inr (.inr ⟨hnegative, hpositive⟩)

section Window

variable {n i : Nat} {xs : List Float}

lemma tracks_window (hn : 1 ≤ n) (hi : i < xs.length) :
    Tracks ((window n i xs).map finite?).reverse
      (after n ((xs.map finite?).take (i + 1)).reverse) := by
  have hi' : i < (xs.map finite?).length := by rwa [List.length_map]
  rw [← window_map, ← take_reverse_eq_window n hi']
  exact tracks_after hn _

variable {s : RunningMean Float} {m : Float} (h : Tracks ((window n i xs).map finite?).reverse s)
  (hn : 1 ≤ n) (hm : s.mean? n = some m)

include h hn hm

lemma mean_cases : m ∈ (window n i xs).filter Float.isFinite ∨ m = 0.0 ∨
    (¬ (s.signed = 0 ∧ m < 0.0) ∧ ¬ (s.signed = s.count ∧ 0.0 < m)) := by
  have hcases := h.mean?_cases hn hm
  rw [reduceOption_reverse_map_finite?, List.mem_reverse] at hcases
  obtain hentry | hzero | ⟨hnegative, hpositive⟩ := hcases
  · exact .inl hentry
  · exact .inr (.inl hzero)
  · exact .inr (.inr ⟨fun hlt => hnegative ⟨hlt.1, decide_eq_true hlt.2⟩,
      fun hlt => hpositive ⟨hlt.1, decide_eq_true hlt.2⟩⟩)

lemma not_lt_zero (hsigned : ∀ y ∈ window n i xs, isSigned y = false) : ¬ m < 0.0 := by
  intro hlt
  obtain hentry | rfl | ⟨hnegative, -⟩ := mean_cases h hn hm
  · obtain ⟨hmem, hfinite⟩ := List.mem_filter.mp hentry
    exact absurd (isSigned_of_lt_zero hfinite hlt) (by rw [hsigned m hmem]; decide)
  · exact absurd hlt (by decide +kernel)
  · refine hnegative ⟨h.signed_eq_zero_iff.mpr fun x hx => ?_, hlt⟩
    rw [reduceOption_reverse_map_finite?, List.mem_reverse] at hx
    exact hsigned x (List.mem_of_mem_filter hx)

lemma not_zero_lt (hsigned : ∀ y ∈ window n i xs, isSigned y = true) : ¬ 0.0 < m := by
  intro hlt
  obtain hentry | rfl | ⟨-, hpositive⟩ := mean_cases h hn hm
  · obtain ⟨hmem, hfinite⟩ := List.mem_filter.mp hentry
    exact absurd (isSigned_of_zero_lt hfinite hlt) (by rw [hsigned m hmem]; decide)
  · exact absurd hlt (by decide +kernel)
  · refine hpositive ⟨h.signed_eq_count_iff.mpr fun x hx => ?_, hlt⟩
    rw [reduceOption_reverse_map_finite?, List.mem_reverse] at hx
    exact hsigned x (List.mem_of_mem_filter hx)

end Window

end RunningMean

/-- What is certain about the mean `m` of the last `n` entries up to the one at `i`. -/
structure MeanBounds (n : Nat) (xs : List Float) (i : Nat) (m : Float) : Prop where
  missing : i + 1 < n ∨ (∃ y ∈ window n i xs, y.isFinite = false) → m = nan
  equal : n ≤ i + 1 → (∀ y ∈ window n i xs, y.isFinite = true) →
    (window n i xs).Pairwise (fun y z => (y == z) = true) → xs[i]? = some m
  not_below : (∀ y ∈ window n i xs, isSigned y = false) → ¬ m < 0.0
  not_above : (∀ y ∈ window n i xs, isSigned y = true) → ¬ 0.0 < m

lemma meanBounds_movingAverage {n : Nat} (hn : 1 ≤ n) {xs : List Float} {i : Nat}
    (hi : i < xs.length) : ∃ m, (movingAverage n xs)[i]? = some m ∧ MeanBounds n xs i m := by
  have htracks := RunningMean.tracks_window hn hi
  have hlength := length_window n hi
  rw [getElem?_movingAverage n hi]
  generalize RunningMean.after n ((xs.map finite?).take (i + 1)).reverse = s at htracks
  refine ⟨_, rfl, ?_, ?_, ?_, ?_⟩
  · rintro (hshort | hinfinite)
    · have hfew := List.length_filter_le Float.isFinite (window n i xs)
      rw [htracks.mean?_of_short]
      · rfl
      · rw [reduceOption_reverse_map_finite?, List.length_reverse]
        omega
    · rw [htracks.mean?_of_not_isFinite (by omega) hinfinite]
      rfl
  · intro hfull hfinite hequal
    have hlast := getLast?_window hn hi
    rw [List.getElem?_eq_getElem hi] at hlast ⊢
    rw [htracks.mean?_of_equal hlast (by omega) hfinite hequal]
    rfl
  · intro hsigned
    cases hmean : s.mean? n with
    | none => decide +kernel
    | some m => exact RunningMean.not_lt_zero htracks hn hmean hsigned
  · intro hsigned
    cases hmean : s.mean? n with
    | none => decide +kernel
    | some m => exact RunningMean.not_zero_lt htracks hn hmean hsigned

end MarketFormula.Indicator

namespace MarketFormula.Windowed

open Indicator

/-- The moving average keeps to these bounds at every bar, whatever the entries before a window are,
also as a call in a formula. -/
theorem ma_meanBounds {n : Nat} (hn : 1 ≤ n) (xs : List Float) : ∃ ys,
    (n < 0x8000000000000000 → ma.compute n xs = .ok ys) ∧
    (∀ position y, y.window (windowed ma).name position = .ok n →
      (windowed ma).eval xs.length position (.numeric xs) y = .ok (.numeric ys)) ∧
    ∀ i < xs.length, ∃ m, ys[i]? = some m ∧ MeanBounds n xs i m := by
  refine ⟨movingAverage n xs, ?_, ?_, fun i hi => meanBounds_movingAverage hn hi⟩
  · intro hrange
    have hbelow : ¬ (n : Int) < 1 := by omega
    have hlarge : ¬ (0x8000000000000000 : Int) ≤ n := by omega
    simp only [compute, if_neg hbelow, hlarge, decide_false, Bool.and_false, Bool.false_eq_true,
      if_false, Int.toNat_natCast]
    rfl
  · intro position y hwindow
    obtain ⟨column, hcolumn, hvalue⟩ := exists_column xs.length (.numeric xs) hwindow
    have hlength : ((Value.numeric xs).toNumeric xs.length).length = xs.length := rfl
    rw [ma.values_clipped n hlength] at hcolumn
    cases hcolumn
    exact hvalue

theorem ma_meanBounds_flat :
    ∃ ys, ma.compute 3 [1e16, 0.1, 0.1, 0.1] = .ok ys ∧ ys[3]? = some 0.1 := by
  obtain ⟨ys, hcompute, -, hbounds⟩ := ma_meanBounds (n := 3) (by decide) [1e16, 0.1, 0.1, 0.1]
  obtain ⟨m, hm, hmean⟩ := hbounds 3 (by decide)
  have hwindow : window 3 3 [1e16, 0.1, 0.1, 0.1] = [0.1, 0.1, (0.1 : Float)] := rfl
  have hfinite : ∀ y ∈ window 3 3 [1e16, 0.1, 0.1, 0.1], y.isFinite = true := by
    rw [hwindow]
    decide +kernel
  have hequal : (window 3 3 [1e16, 0.1, 0.1, 0.1]).Pairwise fun y z => (y == z) = true := by
    rw [hwindow]
    decide +kernel
  exact ⟨ys, hcompute (by decide), hm.trans (hmean.equal (by decide) hfinite hequal).symm⟩

theorem not_every_window_averaged :
    ¬ ∀ (n : Nat) (xs : List Float), 1 ≤ n → ∃ ys, ma.compute n xs = .ok ys ∧
      ∀ i < xs.length, ∃ m, ys[i]? = some m ∧ MeanBounds n xs i m := by
  intro hall
  obtain ⟨ys, hcompute, -⟩ := hall 100000000000000000000 [1, 2, 3] (by decide)
  have hrefused : ma.compute 100000000000000000000 [1, 2, 3] = .error .windowTooLarge := rfl
  cases hrefused.symm.trans hcompute

end MarketFormula.Windowed
