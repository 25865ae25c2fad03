import Mathlib
import MarketFormula.Proofs.Indicator.Stability

/-!
# What a running mean knows of its window

The state of a running mean is a function of the entries seen so far. Its total is as good as its
arithmetic, but its counters are exact at every step.
-/
namespace MarketFormula.Indicator

/-- The last `n` entries up to the one at `i`. -/
def window {β : Type} (n i : Nat) (xs : List β) : List β :=
  (xs.take (i + 1)).drop (i + 1 - n)

lemma take_reverse_eq_window {β : Type} {i : Nat} {xs : List β} (n : Nat) (hi : i < xs.length) :
    (xs.take (i + 1)).reverse.take n = (window n i xs).reverse := by
  have hlength : (xs.take (i + 1)).length = i + 1 := by
    rw [List.length_take]
    omega
  rw [List.take_reverse, hlength, window]

lemma length_window {β : Type} {i : Nat} {xs : List β} (n : Nat) (hi : i < xs.length) :
    (window n i xs).length = min n (i + 1) := by
  simp only [window, List.length_drop, List.length_take]
  omega

lemma getLast?_window {β : Type} {n i : Nat} {xs : List β} (hn : 1 ≤ n) (hi : i < xs.length) :
    (window n i xs).getLast? = xs[i]? := by
  have hlength : (xs.take (i + 1)).length = i + 1 := List.length_take_of_le hi
  rw [window, List.getLast?_drop, hlength, if_neg (by omega), List.getLast?_eq_getElem?, hlength,
    Nat.add_sub_cancel, List.getElem?_take_of_lt (Nat.lt_succ_self i)]

lemma reduceOption_reverse {β : Type} (xs : List (Option β)) :
    xs.reverse.reduceOption = xs.reduceOption.reverse :=
  List.filterMap_reverse

lemma length_reduceOption_window_lt_iff {β : Type} {n i : Nat} {xs : List (Option β)}
    (hi : i < xs.length) :
    (window n i xs).reduceOption.length < n ↔ i + 1 < n ∨ none ∈ window n i xs := by
  have hlength := length_window n hi
  have hle := List.reduceOption_length_le (window n i xs)
  rw [← List.reduceOption_length_lt_iff]
  omega

section Run

variable {α : Type} [MeanArithmetic α]

open MeanArithmetic

/-- The length of the run of equal entries at the front of a list. -/
def runLength : List α → Nat
  | [] => 0
  | [_] => 1
  | x :: y :: rest => if isSame x y then runLength (y :: rest) + 1 else 1

lemma runLength_take (k : Nat) (xs : List α) : runLength (xs.take k) = min (runLength xs) k := by
  fun_induction runLength xs generalizing k with
  | case1 => simp [runLength]
  | case2 x => cases k <;> simp [runLength]
  | case3 x y rest hsame ih =>
    obtain _ | _ | k := k
    · rfl
    · simp [runLength]
    · have hrest := ih (k + 1)
      rw [List.take_succ_cons] at hrest
      rw [List.take_succ_cons, List.take_succ_cons, runLength, if_pos hsame, hrest]
      omega
  | case4 x y rest hdiffers =>
    obtain _ | _ | k := k
    · rfl
    · simp [runLength]
    · rw [List.take_succ_cons, List.take_succ_cons, runLength, if_neg hdiffers]
      omega

lemma isChain_of_runLength {xs : List α} (h : xs.length ≤ runLength xs) :
    xs.IsChain fun x y => isSame x y = true := by
  fun_induction runLength xs with
  | case1 => exact .nil
  | case2 x => exact .singleton x
  | case3 x y rest hsame ih => exact .cons_cons hsame (ih (Nat.le_of_succ_le_succ h))
  | case4 x y rest _ => simp at h

lemma runLength_of_isChain {xs : List α} (h : xs.IsChain fun x y => isSame x y = true) :
    runLength xs = xs.length := by
  fun_induction runLength xs with
  | case1 => rfl
  | case2 => rfl
  | case3 x y rest _ ih => rw [ih h.tail, List.length_cons (a := x)]
  | case4 x y rest hdiffers => exact absurd h.rel hdiffers

end Run

namespace RunningMean

variable {α : Type} [MeanArithmetic α]

open MeanArithmetic

/-- The state after entries that are given with the latest first. -/
def after (n : Nat) : List (Option α) → RunningMean α
  | [] => fresh none
  | x? :: older => if n ≤ 1 then fresh x? else ((after n older).remove older[n - 1]?.join).add x?

lemma fresh_eq_add (x? : Option α) : fresh x? = (fresh none).add x? := by
  cases x? <;> simp [fresh, add]

lemma after_singleton (n : Nat) (x? : Option α) : after n [x?] = fresh x? := by
  simp only [after]
  split
  · rfl
  · exact (fresh_eq_add x?).symm

lemma after_cons {n : Nat} (hn : 1 < n) (x? : Option α) (older : List (Option α)) :
    after n (x? :: older) = ((after n older).remove older[n - 1]?.join).add x? := by
  rw [after, if_neg (Nat.not_le.mpr hn)]

section Pass

variable {n : Nat}

lemma averageFrom_cons {seen : List (Option α)} {previous? : Option (RunningMean α)}
    (hprevious : (previous? = none ∧ seen = []) ∨ previous? = some (after n seen))
    {leaving : Option α} (hleaves : 1 < n → leaving = seen[n - 1]?.join) (entering : Option α)
    (rest : List (Option α × Option α)) :
    averageFrom n previous? ((leaving, entering) :: rest) =
      (after n (entering :: seen)).mean? n ::
        averageFrom n (some (after n (entering :: seen))) rest := by
  obtain ⟨rfl, rfl⟩ | rfl := hprevious
  · simp only [averageFrom, after_singleton]
  · simp only [averageFrom]
    rcases Nat.lt_or_ge 1 n with hn | hn
    · rw [if_neg (Nat.not_le.mpr hn), hleaves hn, after_cons hn]
    · rw [if_pos hn, after, if_pos hn]

lemma getElem?_averageFrom {seen : List (Option α)} {previous? : Option (RunningMean α)}
    (hprevious : (previous? = none ∧ seen = []) ∨ previous? = some (after n seen))
    {pairs : List (Option α × Option α)}
    (hleaving : 1 < n → ∀ i pair, pairs[i]? = some pair →
      pair.1 = (((pairs.take i).map Prod.snd).reverse ++ seen)[n - 1]?.join)
    {i : Nat} (hi : i < pairs.length) :
    (averageFrom n previous? pairs)[i]? =
      some ((after n (((pairs.take (i + 1)).map Prod.snd).reverse ++ seen)).mean? n) := by
  induction pairs generalizing seen previous? i with
  | nil => exact absurd hi (Nat.not_lt_zero i)
  | cons pair rest ih =>
    obtain ⟨leaving, entering⟩ := pair
    rw [averageFrom_cons hprevious fun hn => hleaving hn 0 _ rfl]
    cases i with
    | zero => simp
    | succ i =>
      have hrest : 1 < n → ∀ j pair, rest[j]? = some pair →
          pair.1 = (((rest.take j).map Prod.snd).reverse ++ (entering :: seen))[n - 1]?.join := by
        intro hn j pair hpair
        have hnext := hleaving hn (j + 1) pair hpair
        rw [List.take_succ_cons, List.map_cons, List.reverse_cons, List.append_assoc] at hnext
        exact hnext
      rw [List.getElem?_cons_succ, ih (.inr rfl) hrest (Nat.lt_of_succ_lt_succ hi),
        List.take_succ_cons, List.map_cons, List.reverse_cons, List.append_assoc]
      rfl

omit [MeanArithmetic α] in
lemma getElem?_leaving (hn : 1 < n) {xs : List (Option α)} {i : Nat} (hi : i < xs.length) :
    (List.replicate (min n xs.length) none ++ xs)[i]? =
      some ((xs.take i).reverse[n - 1]?.join) := by
  have hlength : (xs.take i).length = i := List.length_take_of_le hi.le
  rcases Nat.lt_or_ge i n with hshort | hlong
  · have hnone : (xs.take i).reverse[n - 1]? = none := by
      rw [List.getElem?_eq_none]
      rw [List.length_reverse, hlength]
      omega
    rw [hnone, List.getElem?_append_left (by rw [List.length_replicate]; omega),
      List.getElem?_replicate_of_lt (by omega)]
    rfl
  · have hsome : (xs.take i).reverse[n - 1]? = xs[i - n]? := by
      rw [List.getElem?_reverse (by omega), hlength, List.getElem?_take_of_lt (by omega)]
      congr 1
      omega
    rw [hsome, Nat.min_eq_left (by omega),
      List.getElem?_append_right (by rw [List.length_replicate]; omega), List.length_replicate,
      List.getElem?_eq_getElem (by omega)]
    rfl

theorem getElem?_average (n : Nat) {xs : List (Option α)} {i : Nat} (hi : i < xs.length) :
    (average n xs)[i]? = some ((after n (xs.take (i + 1)).reverse).mean? n) := by
  have hsnd : ((List.replicate (min n xs.length) none ++ xs).zip xs).map Prod.snd = xs :=
    List.map_snd_zip (by simp)
  have hlength : ((List.replicate (min n xs.length) none ++ xs).zip xs).length = xs.length := by
    rw [← List.length_map Prod.snd, hsnd]
  rw [average, getElem?_averageFrom (.inl ⟨rfl, rfl⟩) _ (hi.trans_eq hlength.symm), List.map_take,
    hsnd, List.append_nil]
  intro hn j pair hpair
  have hj : j < xs.length := by
    rw [← hlength]
    exact (List.getElem?_eq_some_iff.mp hpair).1
  rw [List.getElem?_zip_eq_some] at hpair
  have hentry := hpair.1.symm.trans (getElem?_leaving hn hj)
  rw [List.map_take, hsnd, List.append_nil]
  exact Option.some.inj hentry

end Pass

/-- What holds of no entries, and is kept when an entry is added in front of the others and when
the oldest one is taken off, holds of every window and its state. The entries on the way are blocks
of at most `n` of those seen. -/
theorem after_induction {n : Nat} (hn : 1 ≤ n) (seen : List (Option α))
    {P : List (Option α) → RunningMean α → Prop} (hempty : P [] (fresh none))
    (hadd : ∀ entries s x?, x? :: entries <:+: seen → (x? :: entries).length ≤ n →
      P entries s → P (x? :: entries) (s.add x?))
    (hremove : ∀ entries s oldest?, entries <:+: seen → entries.length < n →
      P (entries ++ [oldest?]) s → P entries (s.remove oldest?)) :
    P (seen.take n) (after n seen) := by
  -- over the suffixes of what was seen, whose blocks are blocks of all of it
  suffices hall : ∀ older, older <:+ seen → P (older.take n) (after n older) from
    hall seen List.suffix_rfl
  intro older hsuffix
  induction older with
  | nil =>
    rw [List.take_nil]
    exact hempty
  | cons x? older ih =>
    obtain ⟨k, rfl⟩ : ∃ k, n = k + 1 := ⟨n - 1, by omega⟩
    have holder : older <:+ seen := (List.suffix_cons x? older).trans hsuffix
    have hblock : x? :: older.take k <:+: seen :=
      ((List.take_prefix (k + 1) (x? :: older)).isInfix).trans hsuffix.isInfix
    have hlength : (x? :: older.take k).length ≤ k + 1 := by
      rw [List.length_cons]
      exact Nat.succ_le_succ (List.length_take_le k older)
    rw [List.take_succ_cons]
    rcases Nat.eq_zero_or_pos k with rfl | hk
    · rw [after, if_pos le_rfl, fresh_eq_add]
      exact hadd _ _ _ hblock hlength hempty
    · have hlong : 1 < k + 1 := Nat.succ_lt_succ hk
      rw [after_cons hlong, Nat.add_sub_cancel]
      refine hadd _ _ _ hblock hlength ?_
      have hwindow := ih holder
      rw [List.take_add_one] at hwindow
      cases holdest : older[k]? with
      | none =>
        rw [holdest, Option.toList_none, List.append_nil] at hwindow
        exact hwindow
      | some oldest? =>
        rw [holdest, Option.toList_some] at hwindow
        exact hremove _ _ _ ((List.suffix_cons x? _).isInfix.trans hblock)
          (Nat.lt_succ_of_le (List.length_take_le k older)) hwindow

/-- The counters of a state are those of a window, which is given with the latest entry first. -/
structure Tracks (window : List (Option α)) (s : RunningMean α) : Prop where
  count : s.count = window.reduceOption.length
  signed : s.signed = window.reduceOption.countP isSigned
  run : min s.run s.count = runLength window.reduceOption
  latest : ∀ x older, window.reduceOption = x :: older → s.latest = some x

namespace Tracks

variable {entries : List (Option α)} {s : RunningMean α}

lemma empty : Tracks ([] : List (Option α)) (fresh none) where
  count := rfl
  signed := rfl
  run := rfl
  latest := by simp

lemma add (h : Tracks entries s) (x? : Option α) : Tracks (x? :: entries) (s.add x?) := by
  cases x? with
  | none => exact ⟨h.count, h.signed, h.run, h.latest⟩
  | some x =>
    refine ⟨?_, ?_, ?_, ?_⟩
    · simp only [RunningMean.add, List.reduceOption_cons_of_some, List.length_cons, h.count]
    · simp only [RunningMean.add, List.reduceOption_cons_of_some, List.countP_cons, h.signed]
      split <;> rfl
    · have hrun := h.run
      rw [h.count] at hrun
      simp only [RunningMean.add, List.reduceOption_cons_of_some, h.count]
      cases hentries : entries.reduceOption with
      | nil =>
        rw [List.length_nil, runLength]
        split <;> omega
      | cons y older =>
        rw [hentries] at hrun
        rw [h.latest y older hentries, runLength, Option.any_some]
        split
        · omega
        · rw [List.length_cons]
          omega
    · intro y older hcons
      rw [List.reduceOption_cons_of_some] at hcons
      cases hcons
      rfl

lemma remove {oldest? : Option α} (h : Tracks (entries ++ [oldest?]) s) :
    Tracks entries (s.remove oldest?) := by
  cases oldest? with
  | none =>
    have hsame : (entries ++ [none]).reduceOption = entries.reduceOption := by
      rw [List.reduceOption_append]
      exact List.append_nil _
    exact ⟨hsame ▸ h.count, hsame ▸ h.signed, hsame ▸ h.run, hsame ▸ h.latest⟩
  | some x =>
    have hconcat : (entries ++ [some x]).reduceOption = entries.reduceOption ++ [x] := by
      rw [List.reduceOption_append]
      rfl
    have hcount : s.count = entries.reduceOption.length + 1 := by
      rw [h.count, hconcat, List.length_append, List.length_singleton]
    refine ⟨?_, ?_, ?_, ?_⟩
    · simp only [RunningMean.remove, hcount, Nat.add_sub_cancel]
    · have hsigned := h.signed
      rw [hconcat, List.countP_append, List.countP_singleton] at hsigned
      simp only [RunningMean.remove]
      split at hsigned
      · next hx => rw [if_pos hx, hsigned, Nat.add_sub_cancel]
      · next hx => rw [if_neg hx, hsigned, Nat.add_zero]
    · -- the run in the smaller window is the part of the old one that still lies in it
      have htake := runLength_take entries.reduceOption.length (entries ++ [some x]).reduceOption
      rw [← h.run, hconcat, List.take_left] at htake
      simp only [RunningMean.remove, hcount, Nat.add_sub_cancel] at htake ⊢
      omega
    · intro y older hentries
      refine h.latest y (older ++ [x]) ?_
      rw [hconcat, hentries, List.cons_append]

end Tracks

/-- The counters of the state are exact after every step. -/
theorem tracks_after {n : Nat} (hn : 1 ≤ n) (seen : List (Option α)) :
    Tracks (seen.take n) (after n seen) :=
  after_induction hn seen .empty (fun _ _ x? _ _ h => h.add x?) fun _ _ _ _ _ h => h.remove

namespace Tracks

variable {entries : List (Option α)} {s : RunningMean α} {n : Nat} (h : Tracks entries s)

include h

lemma count_le_run_iff :
    s.count ≤ s.run ↔ entries.reduceOption.IsChain fun x y => isSame x y = true := by
  have hrun := h.run
  have hcount := h.count
  constructor
  · intro hle
    exact isChain_of_runLength (by omega)
  · intro hchain
    rw [runLength_of_isChain hchain] at hrun
    omega

lemma signed_eq_zero_iff : s.signed = 0 ↔ ∀ x ∈ entries.reduceOption, isSigned x = false := by
  rw [h.signed, List.countP_eq_zero]
  simp only [Bool.not_eq_true]

lemma signed_eq_count_iff : s.signed = s.count ↔ ∀ x ∈ entries.reduceOption, isSigned x = true := by
  rw [h.signed, h.count, List.countP_eq_length]

lemma mean?_of_short (hshort : entries.reduceOption.length < n) : s.mean? n = none := by
  rw [mean?, if_pos (h.count.trans_lt hshort)]

lemma mean?_of_run {x : α} {older : List α} (hentries : entries.reduceOption = x :: older)
    (hfull : n ≤ entries.reduceOption.length)
    (hchain : entries.reduceOption.IsChain fun x y => isSame x y = true) :
    s.mean? n = some x := by
  have hcount := h.count
  rw [mean?, if_neg (by omega), if_pos (h.count_le_run_iff.mpr hchain), h.latest x older hentries]

lemma mean?_congr {t : RunningMean α} (ht : Tracks entries t) (htotal : s.total = t.total)
    (hn : 1 ≤ n) : s.mean? n = t.mean? n := by
  have hcount : s.count = t.count := h.count.trans ht.count.symm
  have hsigned : s.signed = t.signed := h.signed.trans ht.signed.symm
  have hrun : s.count ≤ s.run ↔ t.count ≤ t.run :=
    h.count_le_run_iff.trans ht.count_le_run_iff.symm
  rw [hcount] at hrun
  rw [mean?, mean?, htotal, hsigned, hcount]
  by_cases hshort : t.count < n
  · rw [if_pos hshort, if_pos hshort]
  · cases hentries : entries.reduceOption with
    | nil =>
      have hzero := ht.count
      rw [hentries, List.length_nil] at hzero
      omega
    | cons x older =>
      rw [h.latest x older hentries, ht.latest x older hentries]
      simp only [hrun]

end Tracks

end RunningMean

end MarketFormula.Indicator
