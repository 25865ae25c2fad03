import MarketFormula.Proofs.Indicator.RunningMean

/-!
# The running mean over exact numbers

With exact arithmetic nothing is owed for rounding and the total of a running mean is the sum of
its window, so the pass computes the mean of every full window.
-/
namespace MarketFormula.Indicator.RunningMean

open MeanArithmetic

/-- The mean of the window if it holds `n` entries, read off the total alone. -/
def quotient? {α : Type} [MeanArithmetic α] (n : Nat) (s : RunningMean α) : Option α :=
  if s.count < n then none else some (divNat s.total s.count)

/-- The total is the sum of some entries and nothing is owed. -/
structure Sums (entries : List (Option ℚ)) (s : RunningMean ℚ) : Prop where
  total : s.total = entries.reduceOption.sum
  owedByAdding : s.owedByAdding = 0
  owedByRemoving : s.owedByRemoving = 0

namespace Sums

variable {entries : List (Option ℚ)} {s : RunningMean ℚ}

lemma empty : Sums [] (fresh none) := ⟨rfl, rfl, rfl⟩

lemma add (h : Sums entries s) (x? : Option ℚ) : Sums (x? :: entries) (s.add x?) := by
  cases x? with
  | none => exact ⟨h.total, h.owedByAdding, h.owedByRemoving⟩
  | some x =>
    have htotal : (s.add (some x)).total = s.total + (x - s.owedByAdding) := rfl
    have howed : (s.add (some x)).owedByAdding =
      s.total + (x - s.owedByAdding) - s.total - (x - s.owedByAdding) := rfl
    refine ⟨?_, ?_, h.owedByRemoving⟩
    · rw [htotal, h.total, h.owedByAdding, List.reduceOption_cons_of_some, List.sum_cons]
      ring
    · rw [howed]
      ring

lemma remove {oldest? : Option ℚ} (h : Sums (entries ++ [oldest?]) s) :
    Sums entries (s.remove oldest?) := by
  have hsum := h.total
  rw [List.reduceOption_append, List.sum_append] at hsum
  cases oldest? with
  | none => exact ⟨hsum.trans (add_zero _), h.owedByAdding, h.owedByRemoving⟩
  | some x =>
    have htotal : (s.remove (some x)).total = s.total + (-x - s.owedByRemoving) := rfl
    have howed : (s.remove (some x)).owedByRemoving =
      s.total + (-x - s.owedByRemoving) - s.total - (-x - s.owedByRemoving) := rfl
    refine ⟨?_, h.owedByAdding, ?_⟩
    · rw [htotal, hsum, h.owedByRemoving, List.reduceOption_singleton, Option.toList_some,
        List.sum_singleton]
      ring
    · rw [howed]
      ring

end Sums

theorem sums_after {n : Nat} (hn : 1 ≤ n) (seen : List (Option ℚ)) :
    Sums (seen.take n) (after n seen) :=
  after_induction hn seen .empty (fun _ _ x? _ _ h => h.add x?) fun _ _ _ _ _ h => h.remove

lemma mean_of_isChain {x : ℚ} {older : List ℚ}
    (h : (x :: older).IsChain fun x y => isSame x y = true) :
    (x :: older).sum / ((x :: older).length : ℚ) = x := by
  have hsame : ∀ y ∈ older, y = x := by
    have hpairs : (x :: older).Pairwise (· = ·) :=
      List.isChain_iff_pairwise.mp (h.imp fun _ _ hxy => eq_of_beq hxy)
    exact fun y hy => ((List.pairwise_cons.mp hpairs).1 y hy).symm
  have hreplicate : x :: older = List.replicate (x :: older).length x :=
    List.eq_replicate_iff.mpr ⟨rfl, List.forall_mem_cons.mpr ⟨rfl, hsame⟩⟩
  have hlength : ((x :: older).length : ℚ) ≠ 0 := by
    rw [List.length_cons]
    exact Nat.cast_ne_zero.mpr (Nat.succ_ne_zero _)
  rw [hreplicate, List.sum_replicate, List.length_replicate, nsmul_eq_mul,
    mul_div_cancel_left₀ _ hlength]

section Mean

variable {entries : List (Option ℚ)} {s : RunningMean ℚ} (ht : Tracks entries s)
  (hs : Sums entries s)

include ht hs

lemma divNat_total_count : divNat s.total s.count =
    entries.reduceOption.sum / (entries.reduceOption.length : ℚ) := by
  rw [hs.total, ht.count]
  rfl

lemma latest_eq_of_run (hpos : 0 < s.count) (hrun : s.count ≤ s.run) :
    s.latest = some (divNat s.total s.count) := by
  have hchain := ht.count_le_run_iff.mp hrun
  rw [divNat_total_count ht hs]
  cases hentries : entries.reduceOption with
  | nil =>
    rw [ht.count, hentries] at hpos
    exact absurd hpos (Nat.lt_irrefl 0)
  | cons x older =>
    rw [hentries] at hchain
    rw [ht.latest x older hentries, mean_of_isChain hchain]

lemma not_isBelow_zero (hsigned : s.signed = 0) :
    ¬ isBelow (divNat s.total s.count) (zero : ℚ) = true := by
  have hentries : ∀ x ∈ entries.reduceOption, (0 : ℚ) ≤ x := fun x hx =>
    not_lt.mp (of_decide_eq_false (ht.signed_eq_zero_iff.mp hsigned x hx))
  rw [divNat_total_count ht hs]
  intro hbelow
  exact absurd (of_decide_eq_true hbelow)
    (not_lt.mpr (div_nonneg (List.sum_nonneg hentries) (Nat.cast_nonneg _)))

lemma not_zero_isBelow (hsigned : s.signed = s.count) :
    ¬ isBelow (zero : ℚ) (divNat s.total s.count) = true := by
  have hentries : ∀ x ∈ entries.reduceOption, x ≤ (0 : ℚ) := fun x hx =>
    (of_decide_eq_true (ht.signed_eq_count_iff.mp hsigned x hx)).le
  have hsum : entries.reduceOption.sum ≤ 0 := by
    have hbound := List.sum_le_card_nsmul _ 0 hentries
    rwa [nsmul_zero] at hbound
  rw [divNat_total_count ht hs]
  intro hbelow
  exact absurd (of_decide_eq_true hbelow)
    (not_lt.mpr (div_nonpos_of_nonpos_of_nonneg hsum (Nat.cast_nonneg _)))

lemma mean?_eq_quotient? {n : Nat} (hn : 1 ≤ n) : s.mean? n = s.quotient? n := by
  unfold mean? quotient?
  split
  · rfl
  · next hfull =>
    split
    · next hrun => exact latest_eq_of_run ht hs (by omega) hrun
    · dsimp only
      rw [if_neg fun hnegative => not_isBelow_zero ht hs hnegative.1 hnegative.2,
        if_neg fun hpositive => not_zero_isBelow ht hs hpositive.1 hpositive.2]

end Mean

/-- Over exact numbers every mean is that of its window, missing where an entry of the window is
missing or there are too few. It is the quotient of the total and the count before it is
corrected. -/
theorem average_eq_mean {n : Nat} (hn : 1 ≤ n) {xs : List (Option ℚ)} {i : Nat}
    (hi : i < xs.length) :
    (average n xs)[i]? = some (if i + 1 < n ∨ none ∈ window n i xs then none
      else some ((window n i xs).reduceOption.sum / n)) ∧
    (average n xs)[i]? = some ((after n (xs.take (i + 1)).reverse).mean? n) ∧
    (after n (xs.take (i + 1)).reverse).mean? n =
      (after n (xs.take (i + 1)).reverse).quotient? n := by
  have hwindow := take_reverse_eq_window n hi
  have ht := tracks_after hn (xs.take (i + 1)).reverse
  have hs := sums_after hn (xs.take (i + 1)).reverse
  rw [hwindow] at ht hs
  have hquotient := mean?_eq_quotient? ht hs hn
  rw [getElem?_average n hi]
  refine ⟨congrArg some ?_, rfl, hquotient⟩
  have hshort := length_reduceOption_window_lt_iff (n := n) hi
  have hcount : (after n (xs.take (i + 1)).reverse).count =
      (window n i xs).reduceOption.length := by
    rw [ht.count, reduceOption_reverse, List.length_reverse]
  split
  · next hmissing => rw [mean?, if_pos (hcount.trans_lt (hshort.mpr hmissing))]
  · next hfull =>
    have hge := not_lt.mp (mt hshort.mp hfull)
    have hle := List.reduceOption_length_le (window n i xs)
    have hn' : (window n i xs).reduceOption.length = n := by
      have hlength := length_window n hi
      omega
    rw [hquotient, quotient?, if_neg (by omega), divNat_total_count ht hs, reduceOption_reverse,
      List.sum_reverse, List.length_reverse, hn']

theorem average_eq_mean_gap :
    (average 2 [some (1 : ℚ), none, some 3, some 4])[3]? = some (some (7 / 2)) := by
  have hlength : 3 < [some (1 : ℚ), none, some 3, some 4].length := by decide
  have hmean := (average_eq_mean (n := 2) (by decide) hlength).1
  have hfull : ¬ (3 + 1 < 2 ∨ none ∈ window 2 3 [some (1 : ℚ), none, some 3, some 4]) := by decide
  have hentries : (window 2 3 [some (1 : ℚ), none, some 3, some 4]).reduceOption = [3, 4] := rfl
  rw [if_neg hfull, hentries] at hmean
  rw [hmean]
  norm_num

end MarketFormula.Indicator.RunningMean
