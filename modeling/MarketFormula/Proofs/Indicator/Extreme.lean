import MarketFormula.Proofs.Decimal.Order
import MarketFormula.Proofs.Indicator.WindowMean

/-!
# Extremes of windows

The extreme of a window is the entry of the best rank, the latest one of several. Choosing the
better of two entries is associative and idempotent, so windows that overlap can be put together.
-/
namespace MarketFormula.Indicator

section Choice

variable {α β : Type} [LinearOrder β]

/-- The entry of the higher rank, and the later one of two that are equal in rank. -/
def best (rank : α → β) (later? older? : Option α) : Option α :=
  match later?, older? with
  | none, older? => older?
  | some later, none => some later
  | some later, some older => if rank later < rank older then some older else some later

def select (rank : α → β) : List (Option α) → Option α
  | [] => none
  | x? :: older => best rank x? (select rank older)

variable (rank : α → β)

lemma best_none_right (x? : Option α) : best rank x? none = x? := by
  cases x? <;> rfl

lemma best_self (x? : Option α) : best rank x? x? = x? := by
  cases x? with
  | none => rfl
  | some x => exact if_neg (lt_irrefl _)

lemma best_assoc (x? y? z? : Option α) :
    best rank (best rank x? y?) z? = best rank x? (best rank y? z?) := by
  cases x? with
  | none => rfl
  | some x =>
    cases y? with
    | none => rfl
    | some y =>
      cases z? with
      | none => rw [best_none_right, best_none_right]
      | some z =>
        by_cases hxy : rank x < rank y
        · by_cases hyz : rank y < rank z
          · simp [best, hxy, hyz, hxy.trans hyz]
          · simp [best, hxy, hyz]
        · by_cases hyz : rank y < rank z
          · simp [best, hxy, hyz]
          · have hxz : ¬ rank x < rank z := fun hlt =>
              hyz ((not_lt.mp hxy).trans_lt hlt)
            simp [best, hxy, hyz, hxz]

lemma select_append (newer older : List (Option α)) :
    select rank (newer ++ older) = best rank (select rank newer) (select rank older) := by
  induction newer with
  | nil => rfl
  | cons x? rest ih => rw [List.cons_append, select, ih, select, best_assoc]

lemma select_eq_none_iff (entries : List (Option α)) :
    select rank entries = none ↔ entries.reduceOption = [] := by
  induction entries with
  | nil => simp [select]
  | cons x? rest ih =>
    cases x? with
    | none => rw [List.reduceOption_cons_of_none, ← ih]; rfl
    | some x =>
      rw [List.reduceOption_cons_of_some, select]
      refine iff_of_false ?_ (List.cons_ne_nil _ _)
      cases select rank rest with
      | none => exact Option.some_ne_none x
      | some y =>
        unfold best
        dsimp only
        split <;> exact Option.some_ne_none _

variable {rank}

lemma exists_of_select {entries : List (Option α)} {m : α} (h : select rank entries = some m) :
    ∃ newer older, entries.reduceOption = newer ++ m :: older ∧
      (∀ y ∈ newer, rank y < rank m) ∧ ∀ y ∈ older, rank y ≤ rank m := by
  induction entries generalizing m with
  | nil => cases h
  | cons x? rest ih =>
    cases x? with
    | none =>
      rw [List.reduceOption_cons_of_none]
      exact ih h
    | some x =>
      rw [List.reduceOption_cons_of_some]
      rw [select] at h
      cases hrest : select rank rest with
      | none =>
        rw [hrest] at h
        cases h
        rw [(select_eq_none_iff rank rest).mp hrest]
        exact ⟨[], [], rfl, by simp, by simp⟩
      | some y =>
        obtain ⟨newer, older, hentries, hnewer, holder⟩ := ih hrest
        rw [hentries]
        rw [hrest] at h
        change (if rank x < rank y then some y else some x) = some m at h
        split at h
        · next hlt =>
          cases h
          exact ⟨x :: newer, older, rfl, List.forall_mem_cons.mpr ⟨hlt, hnewer⟩, holder⟩
        · next hle =>
          cases h
          have hy : rank y ≤ rank m := not_lt.mp hle
          refine ⟨[], newer ++ y :: older, rfl, by simp, fun z hz => ?_⟩
          rcases List.mem_append.mp hz with hz | hz
          · exact (hnewer z hz).le.trans hy
          · rcases List.mem_cons.mp hz with rfl | hz
            · exact hy
            · exact (holder z hz).trans hy

lemma mem_of_select {entries : List (Option α)} {m : α} (h : select rank entries = some m) :
    some m ∈ entries := by
  obtain ⟨newer, older, hentries, -, -⟩ := exists_of_select h
  rw [← List.reduceOption_mem_iff, hentries]
  exact List.mem_append_right _ List.mem_cons_self

lemma select_map_reduceOption (entries : List (Option α)) :
    select rank (entries.reduceOption.map some) = select rank entries := by
  induction entries with
  | nil => rfl
  | cons x? rest ih =>
    cases x? with
    | none => exact ih
    | some x => rw [List.reduceOption_cons_of_some, List.map_cons, select, ih, select]

lemma select_map {γ : Type} {rank' : γ → β} {f : α → γ} (hrank : ∀ x, rank' (f x) = rank x)
    (entries : List (Option α)) :
    select rank' (entries.map (Option.map f)) = (select rank entries).map f := by
  induction entries with
  | nil => rfl
  | cons x? rest ih =>
    rw [List.map_cons, select, ih, select]
    cases x? with
    | none => rfl
    | some x =>
      cases select rank rest with
      | none => rfl
      | some y =>
        simp only [Option.map_some, best, hrank]
        split <;> rfl

end Choice

section Windows

variable {α β : Type}

/-- The value of each window, the latest first, given all entries, the latest first. -/
def trailing (n : Nat) (f : List α → β) : List α → List β
  | [] => []
  | x :: older => f ((x :: older).take n) :: trailing n f older

lemma reverse_rollingFrom (n : Nat) (f : List α → β) (seen xs : List α) :
    (rollingFrom n f seen xs).reverse ++ trailing n f seen = trailing n f (xs.reverse ++ seen) := by
  induction xs generalizing seen with
  | nil => rfl
  | cons x rest ih =>
    rw [rollingFrom, List.reverse_cons, List.append_assoc, List.reverse_cons, List.append_assoc]
    exact ih (x :: seen)

lemma reverse_rolling (n : Nat) (f : List α → β) (xs : List α) :
    (rolling n f xs).reverse = trailing n f xs.reverse := by
  have hseen := reverse_rollingFrom n f [] xs
  rwa [trailing, List.append_nil, List.append_nil] at hseen

lemma getElem?_rollingFrom (n : Nat) (f : List α → β) (seen : List α) {xs : List α} {i : Nat}
    (hi : i < xs.length) :
    (rollingFrom n f seen xs)[i]? = some (f (((xs.take (i + 1)).reverse ++ seen).take n)) := by
  induction xs generalizing seen i with
  | nil => cases hi
  | cons x rest ih =>
    cases i with
    | zero => rfl
    | succ i =>
      rw [rollingFrom, List.getElem?_cons_succ, ih (x :: seen) (Nat.lt_of_succ_lt_succ hi),
        List.take_succ_cons, List.reverse_cons, List.append_assoc]
      rfl

lemma getElem?_rolling (n : Nat) (f : List α → β) {xs : List α} {i : Nat} (hi : i < xs.length) :
    (rolling n f xs)[i]? = some (f (window n i xs).reverse) := by
  rw [rolling, getElem?_rollingFrom n f [] hi, List.append_nil, take_reverse_eq_window n hi]

lemma trailing_map {γ δ : Type} {g : α → γ} {h : β → δ} {f : List α → β} {f' : List γ → δ}
    (hf : ∀ w, h (f w) = f' (w.map g)) (n : Nat) (xs : List α) :
    (trailing n f xs).map h = trailing n f' (xs.map g) := by
  induction xs with
  | nil => rfl
  | cons x older ih =>
    rw [trailing, List.map_cons, ih, hf, List.map_take]
    rfl

end Windows

section Overlap

variable {α β : Type} [LinearOrder β] (rank : α → β)

lemma select_take_trailing {a b : Nat} (ha : 1 ≤ a) (hb : 1 ≤ b) (entries : List (Option α)) :
    select rank ((trailing a (select rank) entries).take b) =
      select rank (entries.take (a + b - 1)) := by
  obtain ⟨a, rfl⟩ : ∃ k, a = k + 1 := ⟨a - 1, by omega⟩
  obtain ⟨b, rfl⟩ : ∃ k, b = k + 1 := ⟨b - 1, by omega⟩
  have hlength : a + 1 + (b + 1) - 1 = a + b + 1 := by omega
  rw [hlength]
  induction b generalizing entries with
  | zero =>
    cases entries with
    | nil => rfl
    | cons x? older =>
      rw [trailing, List.take_succ_cons, List.take_zero, select, select, best_none_right]
  | succ b ih =>
    cases entries with
    | nil => rfl
    | cons x? older =>
      have hsplit : older.take (a + b + 1) = older.take a ++ (older.drop a).take (b + 1) := by
        rw [Nat.add_assoc, List.take_add]
      rw [trailing, List.take_succ_cons, select, ih older (by omega) (by omega),
        List.take_succ_cons, List.take_succ_cons, select, select, ← Nat.add_assoc, hsplit,
        select_append, best_assoc, ← best_assoc rank (select rank (older.take a)), best_self]

end Overlap

open Decimal

/-- Among finite entries those of higher rank beat the others. -/
structure Ranks (beats : Float → Float → Bool) (rank : Float → ℚ) : Prop where
  beats_iff : ∀ x y, x.isFinite = true → y.isFinite = true → (beats x y = true ↔ rank y < rank x)
  eq_of_beq : ∀ x y, x.isFinite = true → y.isFinite = true → (x == y) = true → rank x = rank y

lemma ranks_highest : Ranks (fun x best => decide (best < x)) toRat where
  beats_iff x y hx hy := by rw [decide_eq_true_iff, lt_iff_toRat_lt hy hx]
  eq_of_beq _ _ hx hy heq := (beq_iff_toRat_eq hx hy).mp heq

lemma ranks_lowest : Ranks (fun x best => decide (x < best)) fun x => -toRat x where
  beats_iff x y hx hy := by rw [decide_eq_true_iff, lt_iff_toRat_lt hx hy, neg_lt_neg_iff]
  eq_of_beq _ _ hx hy heq := congrArg (-·) ((beq_iff_toRat_eq hx hy).mp heq)

/-- `m` is the latest of those entries that no other one exceeds, or missing if there are none. -/
structure IsExtreme (exceeds : Float → Float → Prop) (entries : List Float) (m : Float) : Prop where
  missing : m.isNaN = true ↔ entries = []
  latest : entries ≠ [] → ∃ older newer, entries = older ++ m :: newer ∧
    (∀ y ∈ entries, ¬ exceeds y m) ∧ ∀ y ∈ newer, (y == m) = false

namespace IsExtreme

variable {exceeds : Float → Float → Prop} {entries entries' : List Float} {m m' : Float}

lemma ne_nil (h : IsExtreme exceeds entries m) (hm : m.isNaN = false) : entries ≠ [] :=
  fun hnil => absurd (h.missing.mpr hnil) (by rw [hm]; decide)

lemma mem (h : IsExtreme exceeds entries m) (hne : entries ≠ []) : m ∈ entries := by
  obtain ⟨older, newer, hentries, -, -⟩ := h.latest hne
  rw [hentries]
  exact List.mem_append_right _ List.mem_cons_self

lemma not_exceeds (h : IsExtreme exceeds entries m) {y : Float} (hy : y ∈ entries) :
    ¬ exceeds y m := by
  obtain ⟨older, newer, -, hbest, -⟩ := h.latest (List.ne_nil_of_mem hy)
  exact hbest y hy

lemma of_subset (h : IsExtreme exceeds entries m) (h' : IsExtreme exceeds entries' m')
    (hsubset : entries ⊆ entries') (hm : m.isNaN = false) :
    m ∈ entries ∧ m' ∈ entries' ∧ ¬ exceeds m m' := by
  have hmem := h.mem (h.ne_nil hm)
  have hmem' := h'.mem (List.ne_nil_of_mem (hsubset hmem))
  exact ⟨hmem, hmem', h'.not_exceeds (hsubset hmem)⟩

end IsExtreme

section Ranked

variable {beats : Float → Float → Bool} {rank : Float → ℚ} (hbeats : Ranks beats rank)

lemma isFinite_of_select {w : List Float} {m : Float}
    (h : select rank (w.map finite?) = some m) : m.isFinite = true := by
  obtain ⟨y, -, hy⟩ := List.mem_map.mp (mem_of_select h)
  unfold finite? at hy
  split at hy
  · next hfinite =>
    cases hy
    exact hfinite
  · cases hy

include hbeats

lemma foldl_eq_best {x : Float} (hx : x.isFinite = true) {entries : List Float}
    (hentries : ∀ y ∈ entries, y.isFinite = true) :
    some (entries.foldl (fun best y => if beats y best then y else best) x) =
      best rank (some x) (select rank (entries.map some)) := by
  induction entries generalizing x with
  | nil => rfl
  | cons y rest ih =>
    obtain ⟨hy, hrest⟩ := List.forall_mem_cons.mp hentries
    have hchoice : some (if beats y x then y else x) = best rank (some x) (some y) := by
      rw [apply_ite some]
      exact if_congr (hbeats.beats_iff y x hy hx) rfl rfl
    have hfinite : (if beats y x then y else x).isFinite = true := by
      split
      · exact hy
      · exact hx
    rw [List.foldl_cons, ih hfinite hrest, hchoice, best_assoc]
    rfl

theorem extreme_eq_select (w : List Float) :
    extreme beats w = (select rank (w.map finite?)).getD nan := by
  rw [← select_map_reduceOption, reduceOption_map_finite?]
  have hfinite : ∀ x ∈ w.filter Float.isFinite, x.isFinite = true := fun x hx =>
    (List.mem_filter.mp hx).2
  unfold extreme
  cases hentries : w.filter Float.isFinite with
  | nil => rfl
  | cons x rest =>
    rw [hentries] at hfinite
    obtain ⟨hx, hrest⟩ := List.forall_mem_cons.mp hfinite
    rw [List.map_cons, select, ← foldl_eq_best hbeats hx hrest]
    rfl

lemma finite?_extreme (w : List Float) :
    finite? (extreme beats w) = select rank (w.map finite?) := by
  rw [extreme_eq_select hbeats]
  cases h : select rank (w.map finite?) with
  | none => decide +kernel
  | some m => exact if_pos (isFinite_of_select h)

lemma trailing_trailing {a b : Nat} (ha : 1 ≤ a) (hb : 1 ≤ b) (xs : List Float) :
    trailing b (extreme beats) (trailing a (extreme beats) xs) =
      trailing (a + b - 1) (extreme beats) xs := by
  induction xs with
  | nil => rfl
  | cons x older ih =>
    have hwindow : extreme beats ((trailing a (extreme beats) (x :: older)).take b) =
        extreme beats ((x :: older).take (a + b - 1)) := by
      rw [extreme_eq_select hbeats, extreme_eq_select hbeats, List.map_take,
        trailing_map (finite?_extreme hbeats), select_take_trailing rank ha hb, List.map_take]
    exact congrArg₂ List.cons hwindow ih

theorem rolling_rolling {a b : Nat} (ha : 1 ≤ a) (hb : 1 ≤ b) (xs : List Float) :
    rolling b (extreme beats) (rolling a (extreme beats) xs) =
      rolling (a + b - 1) (extreme beats) xs := by
  apply List.reverse_injective
  rw [reverse_rolling, reverse_rolling, reverse_rolling, trailing_trailing hbeats ha hb]

theorem isExtreme_extreme {exceeds : Float → Float → Prop}
    (hexceeds : ∀ x y, exceeds x y ↔ beats x y = true) (w : List Float) :
    IsExtreme exceeds (w.filter Float.isFinite) (extreme beats w.reverse) := by
  have hnone := select_eq_none_iff rank (w.reverse.map finite?)
  rw [List.map_reverse, reduceOption_reverse_map_finite?, List.reverse_eq_nil_iff] at hnone
  rw [extreme_eq_select hbeats]
  cases h : select rank (w.reverse.map finite?) with
  | none =>
    rw [List.map_reverse] at h
    exact ⟨iff_of_true (by decide +kernel) (hnone.mp h), fun hne => absurd (hnone.mp h) hne⟩
  | some m =>
    have hm := isFinite_of_select h
    obtain ⟨newer, older, hentries, hnewer, holder⟩ := exists_of_select h
    rw [List.map_reverse, reduceOption_reverse_map_finite?, List.reverse_eq_iff,
      List.reverse_append, List.reverse_cons, List.append_assoc] at hentries
    have hfinite : ∀ y ∈ w.filter Float.isFinite, y.isFinite = true := fun y hy =>
      (List.mem_filter.mp hy).2
    have hrank : ∀ y ∈ w.filter Float.isFinite, rank y ≤ rank m := by
      intro y hy
      rw [hentries, List.singleton_append, List.mem_append, List.mem_cons, List.mem_reverse,
        List.mem_reverse] at hy
      obtain hy | rfl | hy := hy
      · exact holder y hy
      · exact le_rfl
      · exact (hnewer y hy).le
    refine ⟨iff_of_false ?_ ?_, fun _ => ⟨older.reverse, newer.reverse, hentries, ?_, ?_⟩⟩
    · exact Bool.not_eq_true _ ▸ isNaN_of_isFinite hm
    · rw [hentries]
      simp
    · intro y hy hex
      have hlt := (hbeats.beats_iff y m (hfinite y hy) hm).mp ((hexceeds y m).mp hex)
      exact (hrank y hy).not_gt hlt
    · intro y hy
      rw [List.mem_reverse] at hy
      have hyfinite : y.isFinite = true := by
        apply hfinite
        rw [hentries]
        simp [hy]
      exact Bool.eq_false_iff.mpr fun heq =>
        (hnewer y hy).ne (hbeats.eq_of_beq y m hyfinite hm heq)

end Ranked

section Bars

variable {n i : Nat} {xs : List Float}

def counted (n i : Nat) (xs : List Float) : List Float :=
  (window n i xs).filter Float.isFinite

lemma isFinite_of_mem_counted {y : Float} (hy : y ∈ counted n i xs) : y.isFinite = true :=
  (List.mem_filter.mp hy).2

lemma counted_subset {m : Nat} (hnm : n ≤ m) (i : Nat) (xs : List Float) :
    counted n i xs ⊆ counted m i xs := by
  intro y hy
  obtain ⟨hy, hfinite⟩ := List.mem_filter.mp hy
  have hdrop : i + 1 - m ≤ i + 1 - n := by omega
  exact List.mem_filter.mpr ⟨List.drop_subset_drop_left _ hdrop hy, hfinite⟩

variable (hi : i < xs.length)

include hi

lemma exists_highest (n : Nat) : ∃ high, (highest n xs)[i]? = some high ∧
    IsExtreme (fun y m => m < y) (counted n i xs) high :=
  ⟨_, getElem?_rolling n _ hi,
    isExtreme_extreme ranks_highest (fun _ _ => decide_eq_true_iff.symm) (window n i xs)⟩

lemma exists_lowest (n : Nat) : ∃ low, (lowest n xs)[i]? = some low ∧
    IsExtreme (fun y m => y < m) (counted n i xs) low :=
  ⟨_, getElem?_rolling n _ hi,
    isExtreme_extreme ranks_lowest (fun _ _ => decide_eq_true_iff.symm) (window n i xs)⟩

lemma mem_counted (hn : 1 ≤ n) {x : Float} (hx : xs[i]? = some x) (hfinite : x.isFinite = true) :
    x ∈ counted n i xs :=
  List.mem_filter.mpr ⟨List.mem_of_getLast? ((getLast?_window hn hi).trans hx), hfinite⟩

end Bars

lemma finite?_neg (x : Float) : finite? (-x) = (finite? x).map (- ·) := by
  unfold finite?
  rw [isFinite_neg]
  split <;> rfl

lemma neg_extreme (w : List Float) : -extreme (fun x best => decide (x < best)) w =
    extreme (fun x best => decide (best < x)) (w.map (- ·)) := by
  have hentries : (w.map (- ·)).map finite? = (w.map finite?).map (Option.map (- ·)) := by
    rw [List.map_map, List.map_map]
    exact List.map_congr_left fun x _ => finite?_neg x
  rw [extreme_eq_select ranks_lowest, extreme_eq_select ranks_highest, hentries,
    select_map toRat_neg]
  cases select (fun x => -toRat x) (w.map finite?) with
  | none => decide +kernel
  | some m => rfl

theorem lowest_eq_neg_highest (n : Nat) (xs : List Float) :
    lowest n xs = (highest n (xs.map (- ·))).map (- ·) := by
  have hdual : (lowest n xs).reverse.map (- ·) = (highest n (xs.map (- ·))).reverse := by
    rw [lowest, highest, reverse_rolling, reverse_rolling, ← List.map_reverse]
    exact trailing_map neg_extreme n xs.reverse
  rw [List.map_reverse, List.reverse_inj] at hdual
  rw [← hdual, List.map_map]
  have hself : (fun x : Float => -x) ∘ (fun x : Float => -x) = id := funext neg_neg_eq
  rw [hself, List.map_id]

theorem highest_highest {a b : Nat} (ha : 1 ≤ a) (hb : 1 ≤ b) (xs : List Float) :
    highest b (highest a xs) = highest (a + b - 1) xs :=
  rolling_rolling ranks_highest ha hb xs

theorem lowest_lowest {a b : Nat} (ha : 1 ≤ a) (hb : 1 ≤ b) (xs : List Float) :
    lowest b (lowest a xs) = lowest (a + b - 1) xs :=
  rolling_rolling ranks_lowest ha hb xs

end MarketFormula.Indicator
