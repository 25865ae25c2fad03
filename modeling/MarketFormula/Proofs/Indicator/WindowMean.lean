import MarketFormula.Proofs.Decimal.Exact
import MarketFormula.Proofs.Indicator.RunningMean

/-!
# Which windows determine their mean

The total of a running mean carries over what rounding left behind by entries that are out of the
window by now, so equal windows need not have equal means.
-/
namespace MarketFormula.Indicator

open Decimal

/-- A double as an entry of a mean, which leaves out missing values and infinities. -/
def finite? (x : Float) : Option Float :=
  if x.isFinite then some x else none

lemma reduceOption_map_finite? (xs : List Float) :
    (xs.map finite?).reduceOption = xs.filter Float.isFinite := by
  induction xs with
  | nil => rfl
  | cons x rest ih =>
    rw [List.map_cons, finite?]
    cases hx : x.isFinite with
    | true => rw [if_pos rfl, List.reduceOption_cons_of_some, ih, List.filter_cons_of_pos hx]
    | false =>
      rw [if_neg (by decide), List.reduceOption_cons_of_none, ih,
        List.filter_cons_of_neg (by rw [hx]; decide)]

lemma reduceOption_reverse_map_finite? (w : List Float) :
    (w.map finite?).reverse.reduceOption = (w.filter Float.isFinite).reverse := by
  rw [reduceOption_reverse, reduceOption_map_finite?]

lemma window_map {β γ : Type} (f : β → γ) (n i : Nat) (xs : List β) :
    window n i (xs.map f) = (window n i xs).map f := by
  rw [window, window, ← List.map_take, ← List.map_drop]

lemma getElem?_movingAverage (n : Nat) {xs : List Float} {i : Nat} (hi : i < xs.length) :
    (movingAverage n xs)[i]? = some (((RunningMean.after n
      ((xs.map finite?).take (i + 1)).reverse).mean? n).getD nan) := by
  have hlength : i < (xs.map finite?).length := by rwa [List.length_map]
  change ((average n (xs.map finite?)).map (·.getD nan))[i]? = _
  rw [List.getElem?_map, RunningMean.getElem?_average n hlength]
  rfl

lemma getLast?_movingAverage (n : Nat) {xs : List Float} (hxs : 0 < xs.length) :
    (movingAverage n xs).getLast? =
      some (((RunningMean.after n (xs.map finite?).reverse).mean? n).getD nan) := by
  have hall : (xs.map finite?).take (xs.length - 1 + 1) = xs.map finite? :=
    List.take_of_length_le (by rw [List.length_map]; omega)
  rw [List.getLast?_eq_getElem?, length_movingAverage, getElem?_movingAverage n (by omega), hall]

lemma take_reverse_map {β γ : Type} (f : β → γ) (n : Nat) (xs : List β) :
    (xs.map f).reverse.take n = ((xs.rtake n).map f).reverse := by
  rw [List.take_reverse, List.length_map, ← List.map_drop]
  rfl

namespace RunningMean

lemma tracks_rtake {n : Nat} (hn : 1 ≤ n) (xs : List Float) :
    Tracks ((xs.rtake n).map finite?).reverse (after n (xs.map finite?).reverse) := by
  rw [← take_reverse_map]
  exact tracks_after hn _

namespace Tracks

variable {w : List Float} {s : RunningMean Float} {n : Nat} (h : Tracks (w.map finite?).reverse s)

include h

lemma mean?_of_not_isFinite (hn : w.length ≤ n) (hinfinite : ∃ x ∈ w, x.isFinite = false) :
    s.mean? n = none := by
  obtain ⟨x, hx, hinfinite⟩ := hinfinite
  have hshorter : (w.filter Float.isFinite).length < w.length :=
    List.length_filter_lt_length_iff_exists.mpr ⟨x, hx, by rw [hinfinite]; decide⟩
  refine h.mean?_of_short ?_
  rw [reduceOption_reverse_map_finite?, List.length_reverse]
  omega

lemma mean?_of_equal {x : Float} (hlast : w.getLast? = some x) (hn : n ≤ w.length)
    (hfinite : ∀ y ∈ w, y.isFinite = true) (hequal : w.Pairwise fun y z => (y == z) = true) :
    s.mean? n = some x := by
  obtain ⟨older, rfl⟩ := List.getLast?_eq_some_iff.mp hlast
  have hentries : ((older ++ [x]).map finite?).reverse.reduceOption = x :: older.reverse := by
    rw [reduceOption_reverse_map_finite?, List.filter_eq_self.mpr hfinite, List.reverse_append]
    rfl
  have hchain : (x :: older.reverse).IsChain fun y z => MeanArithmetic.isSame y z = true := by
    have hreversed := (List.pairwise_reverse.mpr hequal).isChain
    rw [List.reverse_append] at hreversed
    exact hreversed.imp fun y z hzy => BEq.symm hzy
  refine h.mean?_of_run hentries ?_ (hentries ▸ hchain)
  rw [hentries, List.length_cons, List.length_reverse]
  rwa [List.length_append] at hn

end Tracks

structure SumsExactly (entries : List (Option Float)) (s : RunningMean Float) : Prop where
  isFinite : ∀ x, some x ∈ entries → x.isFinite = true
  total : Represents (entries.reduceOption.map toRat).sum s.total
  owedByAdding : s.owedByAdding = 0.0
  owedByRemoving : s.owedByRemoving = 0.0

namespace SumsExactly

variable {entries : List (Option Float)} {s : RunningMean Float}

lemma empty : SumsExactly [] (fresh none) := ⟨by simp, represents_zero, rfl, rfl⟩

lemma add (h : SumsExactly entries s) {x? : Option Float}
    (hx : ∀ x, x? = some x → x.isFinite = true)
    (hsum : Representable ((x? :: entries).reduceOption.map toRat).sum) :
    SumsExactly (x? :: entries) (s.add x?) := by
  cases x? with
  | none =>
    refine ⟨fun x hmem => ?_, h.total, h.owedByAdding, h.owedByRemoving⟩
    exact h.isFinite x ((List.mem_cons.mp hmem).resolve_left (Option.some_ne_none x))
  | some x =>
    have hfinite := hx x rfl
    rw [List.reduceOption_cons_of_some, List.map_cons, List.sum_cons, add_comm] at hsum
    have htotal : (s.add (some x)).total = s.total + (x - s.owedByAdding) := rfl
    have howed : (s.add (some x)).owedByAdding =
      s.total + (x - s.owedByAdding) - s.total - (x - s.owedByAdding) := rfl
    rw [h.owedByAdding, sub_zero_eq] at htotal howed
    refine ⟨?_, ?_, ?_, h.owedByRemoving⟩
    · intro y hy
      rcases List.mem_cons.mp hy with hy | hy
      · exact hx y hy.symm
      · exact h.isFinite y hy
    · rw [htotal, List.reduceOption_cons_of_some, List.map_cons, List.sum_cons, add_comm]
      exact h.total.add hfinite hsum
    · rw [howed]
      exact h.total.owed hfinite hsum

lemma remove {oldest? : Option Float} (h : SumsExactly (entries ++ [oldest?]) s)
    (hsum : Representable (entries.reduceOption.map toRat).sum) :
    SumsExactly entries (s.remove oldest?) := by
  have hentries : ∀ x, some x ∈ entries → x.isFinite = true := fun x hx =>
    h.isFinite x (List.mem_append_left _ hx)
  have hbefore := h.total
  rw [List.reduceOption_append, List.map_append, List.sum_append] at hbefore
  cases oldest? with
  | none =>
    have hsame : (entries.reduceOption.map toRat).sum +
        (([none] : List (Option Float)).reduceOption.map toRat).sum =
          (entries.reduceOption.map toRat).sum := add_zero _
    rw [hsame] at hbefore
    exact ⟨hentries, hbefore, h.owedByAdding, h.owedByRemoving⟩
  | some x =>
    have hfinite : (-x).isFinite = true :=
      (isFinite_neg x).trans (h.isFinite x (List.mem_append_right _ (List.mem_singleton_self _)))
    have hback : (entries.reduceOption.map toRat).sum =
        (entries.reduceOption.map toRat).sum +
          (([some x] : List (Option Float)).reduceOption.map toRat).sum + toRat (-x) := by
      rw [toRat_neg, List.reduceOption_singleton, Option.toList_some, List.map_singleton,
        List.sum_singleton]
      ring
    rw [hback] at hsum
    have htotal : (s.remove (some x)).total = s.total + (-x - s.owedByRemoving) := rfl
    have howed : (s.remove (some x)).owedByRemoving =
      s.total + (-x - s.owedByRemoving) - s.total - (-x - s.owedByRemoving) := rfl
    rw [h.owedByRemoving, sub_zero_eq] at htotal howed
    refine ⟨hentries, ?_, h.owedByAdding, ?_⟩
    · rw [htotal, hback]
      exact hbefore.add hfinite hsum
    · rw [howed]
      exact hbefore.owed hfinite hsum

end SumsExactly

/-- The total is the sum of the window after every step, if no sum of neighbours is rounded. -/
theorem sumsExactly_after {n : Nat} (hn : 1 ≤ n) {seen : List (Option Float)}
    (hfinite : ∀ x, some x ∈ seen → x.isFinite = true)
    (hsum : ∀ block, block <:+: seen → block.length ≤ n →
      Representable (block.reduceOption.map toRat).sum) :
    SumsExactly (seen.take n) (after n seen) := by
  refine after_induction hn seen .empty ?_ ?_
  · intro entries s x? hblock hlength h
    exact h.add (fun x hx => hfinite x (hx ▸ hblock.mem List.mem_cons_self)) (hsum _ hblock hlength)
  · intro entries s oldest? hblock hlength h
    exact h.remove (hsum _ hblock hlength.le)

end RunningMean

/-- No sum of at most `n` neighbouring entries has to be rounded. -/
def AddsExactly (n : Nat) (xs : List Float) : Prop :=
  ∀ block, block <:+: xs → block.length ≤ n →
    Representable ((block.filter Float.isFinite).map toRat).sum

namespace AddsExactly

lemma exists_sum_eq {n bound : Nat} {u : Int} {block : List Float}
    (h : ∀ x ∈ block, x.isFinite = true → ∃ k : ℤ, toRat x = k * 2 ^ u ∧ n * k.natAbs ≤ bound) :
    ∃ k : ℤ, ((block.filter Float.isFinite).map toRat).sum = k * 2 ^ u ∧
      n * k.natAbs ≤ block.length * bound := by
  induction block with
  | nil => exact ⟨0, by simp, by simp⟩
  | cons x rest ih =>
    obtain ⟨k, hk, hbound⟩ := ih fun y hy => h y (List.mem_cons_of_mem x hy)
    cases hx : x.isFinite with
    | true =>
      obtain ⟨j, hj, hsmall⟩ := h x List.mem_cons_self hx
      refine ⟨j + k, ?_, ?_⟩
      · rw [List.filter_cons_of_pos hx, List.map_cons, List.sum_cons, hj, hk, Int.cast_add]
        ring
      · calc n * (j + k).natAbs ≤ n * (j.natAbs + k.natAbs) :=
              Nat.mul_le_mul_left n (Int.natAbs_add_le j k)
          _ = n * k.natAbs + n * j.natAbs := by ring
          _ ≤ rest.length * bound + bound := Nat.add_le_add hbound hsmall
          _ = (x :: rest).length * bound := by rw [List.length_cons, Nat.succ_mul]
    | false =>
      refine ⟨k, ?_, ?_⟩
      · rw [List.filter_cons_of_neg (by rw [hx]; decide), hk]
      · exact hbound.trans (Nat.mul_le_mul_right _ (Nat.le_succ _))

lemma of_multiples {n : Nat} (hn : 1 ≤ n) {xs : List Float} {u : Int} (hlow : -1074 ≤ u)
    (hhigh : u ≤ 971)
    (h : ∀ x ∈ xs, x.isFinite = true → ∃ k : ℤ, toRat x = k * 2 ^ u ∧ n * k.natAbs < 2 ^ 53) :
    AddsExactly n xs := by
  intro block hblock hlength
  have hbits : ∀ x ∈ block, x.isFinite = true →
      ∃ k : ℤ, toRat x = k * 2 ^ u ∧ n * k.natAbs ≤ 2 ^ 53 - 1 := fun x hx hfinite =>
    (h x (hblock.mem hx) hfinite).imp fun k hk => ⟨hk.1, Nat.le_pred_of_lt hk.2⟩
  obtain ⟨k, hk, hbound⟩ := exists_sum_eq hbits
  rw [hk]
  refine representable_of_natAbs_lt ?_ hlow hhigh
  have hscaled : n * k.natAbs ≤ n * (2 ^ 53 - 1) := hbound.trans (Nat.mul_le_mul_right _ hlength)
  have hle := Nat.le_of_mul_le_mul_left hscaled hn
  omega

lemma represents_total {n : Nat} (hn : 1 ≤ n) {xs : List Float} (h : AddsExactly n xs) :
    Represents (((xs.rtake n).filter Float.isFinite).map toRat).sum
      (RunningMean.after n (xs.map finite?).reverse).total := by
  have hsum : ∀ block, block <:+: (xs.map finite?).reverse → block.length ≤ n →
      Representable (block.reduceOption.map toRat).sum := by
    intro block hblock hlength
    have hforward : block.reverse <:+: xs.map finite? := by
      rw [← List.reverse_infix, List.reverse_reverse]
      exact hblock
    obtain ⟨part, hpart, hmap⟩ := List.infix_map_iff.mp hforward
    have hpartLength : part.length ≤ n := by
      rw [← List.length_map finite?, ← hmap, List.length_reverse]
      exact hlength
    have hvalue := h part hpart hpartLength
    rwa [← reduceOption_map_finite?, ← hmap, reduceOption_reverse, List.map_reverse,
      List.sum_reverse] at hvalue
  have hfinite : ∀ x, some x ∈ (xs.map finite?).reverse → x.isFinite = true := by
    intro x hx
    obtain ⟨y, -, hy⟩ := List.mem_map.mp (List.mem_reverse.mp hx)
    unfold finite? at hy
    split at hy
    · next hyfinite =>
      cases hy
      exact hyfinite
    · cases hy
  have htotal := (RunningMean.sumsExactly_after hn hfinite hsum).total
  rwa [take_reverse_map, reduceOption_reverse_map_finite?, List.map_reverse,
    List.sum_reverse] at htotal

end AddsExactly

/-- The window decides by itself when an entry is missing or infinite, when all entries are equal,
and when neither column needs rounding. -/
theorem getLast?_movingAverage_congr {n : Nat} (hn : 1 ≤ n) {xs ys : List Float}
    (hxs : n ≤ xs.length) (hys : n ≤ ys.length) (hsame : xs.rtake n = ys.rtake n)
    (hwindow : (∃ x ∈ xs.rtake n, x.isFinite = false) ∨
      (xs.rtake n).Pairwise (fun x y => (x == y) = true) ∨
      (AddsExactly n xs ∧ AddsExactly n ys)) :
    ∃ m, (movingAverage n xs).getLast? = some m ∧ (movingAverage n ys).getLast? = some m := by
  rw [getLast?_movingAverage n (by omega), getLast?_movingAverage n (by omega)]
  have htracks := RunningMean.tracks_rtake hn xs
  have htracks' := RunningMean.tracks_rtake hn ys
  rw [← hsame] at htracks'
  suffices hmean : (RunningMean.after n (xs.map finite?).reverse).mean? n =
      (RunningMean.after n (ys.map finite?).reverse).mean? n from
    ⟨_, rfl, by rw [hmean]⟩
  have hlength : (xs.rtake n).length = n := by
    rw [List.rtake, List.length_drop]
    omega
  by_cases hinfinite : ∃ x ∈ xs.rtake n, x.isFinite = false
  · rw [htracks.mean?_of_not_isFinite hlength.le hinfinite,
      htracks'.mean?_of_not_isFinite hlength.le hinfinite]
  obtain hinfinite' | hequal | ⟨hexact, hexact'⟩ := hwindow
  · exact absurd hinfinite' hinfinite
  · have hfinite : ∀ x ∈ xs.rtake n, x.isFinite = true := fun x hx =>
      Bool.of_not_eq_false fun hnot => hinfinite ⟨x, hx, hnot⟩
    obtain ⟨x, hlast⟩ : ∃ x, (xs.rtake n).getLast? = some x :=
      Option.isSome_iff_exists.mp (List.getLast?_isSome.mpr (List.ne_nil_of_length_pos (by omega)))
    rw [htracks.mean?_of_equal hlast hlength.ge hfinite hequal,
      htracks'.mean?_of_equal hlast hlength.ge hfinite hequal]
  · have htotal := hexact.represents_total hn
    have htotal' := hexact'.represents_total hn
    rw [← hsame] at htotal'
    exact htracks.mean?_congr htracks' (htotal.unique htotal') hn

theorem getLast?_movingAverage_congr_small :
    ∃ m, (movingAverage 2 [4.0, 1.0, 2.5]).getLast? = some m ∧
      (movingAverage 2 [1.0, 2.5]).getLast? = some m := by
  have hexact : ∀ xs : List Float, (∀ x ∈ xs, x = 4.0 ∨ x = 1.0 ∨ x = 2.5) →
      AddsExactly 2 xs := by
    intro xs hxs
    refine AddsExactly.of_multiples (u := -1) (by decide) (by decide) (by decide) fun x hx _ => ?_
    rcases hxs x hx with rfl | rfl | rfl
    · exact ⟨8, by decide +kernel, by decide⟩
    · exact ⟨2, by decide +kernel, by decide⟩
    · exact ⟨5, by decide +kernel, by decide⟩
  exact getLast?_movingAverage_congr (by decide) (by decide) (by decide)
    (by simp [List.rtake]) (.inr (.inr ⟨hexact _ (by simp), hexact _ (by simp)⟩))

/-- A large number that has left the window is still felt. -/
theorem not_every_window_decides : ¬ ∀ (n : Nat) (xs ys : List Float), 1 ≤ n → n ≤ xs.length →
    n ≤ ys.length → xs.rtake n = ys.rtake n →
      (movingAverage n xs).getLast? = (movingAverage n ys).getLast? := by
  intro hall
  exact absurd (hall 3 [1.0, 1e16, 2.0, 1.0, 3.0] [2.0, 1.0, 3.0] (by decide) (by decide)
    (by decide) (by simp [List.rtake])) (by decide +kernel)

end MarketFormula.Indicator
