import Mathlib.Data.List.Basic
import Mathlib.Order.Nat
import MarketFormula.Text.CodePoint
import MarketFormula.Text.LetterCase

/-!
# Changes of case that lead into ASCII

A few characters have another case in ASCII. No change of case leads to one of them, so a text in
ASCII that is reached in two steps is reached in the first one.
-/
namespace MarketFormula.Text

/-- A change of case: of ASCII letters by a function, of other characters by tables. -/
structure CaseChange where
  ascii : Char → Char
  expansions : List (Nat × List Nat)
  shifts : List CaseShift

namespace CaseChange

def upper : CaseChange :=
  ⟨Char.toUpper, upperExpansions, upperShifts⟩

def lower : CaseChange :=
  ⟨Char.toLower, lowerExpansions, lowerShifts⟩

def turn (change : CaseChange) (c : Char) : List Char :=
  if c.toNat < 0x80 then [change.ascii c] else changeCase change.expansions change.shifts c

/-- The characters that have another case in ASCII, and none of them is the case of another one. -/
structure Settles (change : CaseChange) (moving : List (Nat × Nat)) : Prop where
  shifts_avoid : ∀ shift ∈ change.shifts, 0 ≤ shift.first + shift.offset ∧
    shift.last + shift.offset < 0x110000 ∧ ∀ span ∈ (0xd800, 0xdfff) :: moving,
      shift.last + shift.offset < span.1 ∨ span.2 < shift.first + shift.offset
  shifts_into_ascii : ∀ shift ∈ change.shifts, 0x80 ≤ shift.first + shift.offset ∨
    ∃ span ∈ moving, span.1 ≤ shift.first ∧ shift.last ≤ span.2
  expansions_avoid : ∀ entry ∈ change.expansions, ∀ n ∈ entry.2,
    n.isValidChar ∧ within n moving = false
  expansions_into_ascii : ∀ entry ∈ change.expansions,
    (∀ n ∈ entry.2, n < 0x80) → within entry.1 moving = true
  ascii : ∀ n < 0x80, within (change.ascii (Char.ofNat n)).toNat moving = false ∧
    (within n moving = false → change.ascii (Char.ofNat n) = Char.ofNat n)

/-- The small letters, the dotless i, the long and the sharp s, and ligatures. -/
def capitalised : List (Nat × Nat) :=
  [(97, 122), (223, 223), (305, 305), (383, 383), (64256, 64262)]

lemma upper_settles : upper.Settles capitalised := by
  constructor <;> decide +kernel

/-- The capital letters and the sign of the kelvin. -/
def uncapitalised : List (Nat × Nat) :=
  [(65, 90), (8490, 8490)]

lemma lower_settles : lower.Settles uncapitalised := by
  constructor <;> decide +kernel

variable {change : CaseChange} {moving : List (Nat × Nat)}

lemma turn_cases (change : CaseChange) {c : Char} (hc : 0x80 ≤ c.toNat) :
    (∃ letters, (c.toNat, letters) ∈ change.expansions ∧ change.turn c = letters.map Char.ofNat) ∨
    (∃ shift ∈ change.shifts, shift.first ≤ c.toNat ∧ c.toNat ≤ shift.last ∧
      change.turn c = [Char.ofNat (c.toNat + shift.offset).toNat]) ∨
    change.turn c = [c] := by
  rw [turn, if_neg (by omega), changeCase]
  cases hletters : change.expansions.lookup c.toNat with
  | some letters =>
    obtain ⟨before, after, htable, -⟩ := List.lookup_eq_some_iff.mp hletters
    exact .inl ⟨letters, by simp [htable], rfl⟩
  | none =>
    cases hshift : change.shifts.find? (·.covers c.toNat) with
    | none => exact .inr (.inr rfl)
    | some shift =>
      have hcovers := List.find?_some hshift
      simp only [CaseShift.covers, Bool.and_eq_true, decide_eq_true_eq] at hcovers
      exact .inr (.inl ⟨shift, List.mem_of_find?_eq_some hshift, hcovers.1.1, hcovers.1.2, rfl⟩)

namespace Settles

variable (h : change.Settles moving)
include h

lemma toNat_shifted {shift : CaseShift} (hshift : shift ∈ change.shifts) {n : Nat}
    (hfirst : shift.first ≤ n) (hlast : n ≤ shift.last) :
    (Char.ofNat (n + shift.offset).toNat).toNat = n + shift.offset ∧
      within (n + shift.offset).toNat moving = false := by
  obtain ⟨hlow, hhigh, havoid⟩ := h.shifts_avoid shift hshift
  obtain ⟨hsurrogates, havoid⟩ := List.forall_mem_cons.mp havoid
  have hvalid : (n + shift.offset).toNat.isValidChar := by
    unfold Nat.isValidChar
    omega
  constructor
  · rw [toNat_ofNat hvalid]
    omega
  · refine List.any_eq_false.mpr fun span hspan hin => ?_
    have hoff := havoid span hspan
    simp only [Bool.and_eq_true, decide_eq_true_eq] at hin
    omega

lemma within_of_mem_turn {c d : Char} (hd : d ∈ change.turn c) :
    within d.toNat moving = false ∨ change.turn c = [c] := by
  by_cases hc : c.toNat < 0x80
  · rw [turn, if_pos hc, List.mem_singleton] at hd
    subst hd
    have hascii := (h.ascii c.toNat hc).1
    rw [Char.ofNat_toNat] at hascii
    exact .inl hascii
  · obtain ⟨letters, hentry, hturn⟩ | ⟨shift, hshift, hfirst, hlast, hturn⟩ | hself :=
      turn_cases change (not_lt.mp hc)
    · rw [hturn] at hd
      obtain ⟨n, hn, rfl⟩ := List.mem_map.mp hd
      obtain ⟨hvalid, hmoves⟩ := h.expansions_avoid _ hentry n hn
      rw [toNat_ofNat hvalid]
      exact .inl hmoves
    · rw [hturn, List.mem_singleton] at hd
      subst hd
      obtain ⟨htoNat, hmoves⟩ := h.toNat_shifted hshift hfirst hlast
      rw [← htoNat, Int.toNat_natCast] at hmoves
      exact .inl hmoves
    · exact .inr hself

lemma turn_eq_self {c : Char} (hc : within c.toNat moving = false)
    (hascii : ∀ d ∈ change.turn c, d.toNat < 0x80) : change.turn c = [c] := by
  by_cases hsmall : c.toNat < 0x80
  · have hself := (h.ascii c.toNat hsmall).2 hc
    rw [Char.ofNat_toNat] at hself
    rw [turn, if_pos hsmall, hself]
  · obtain ⟨letters, hentry, hturn⟩ | ⟨shift, hshift, hfirst, hlast, hturn⟩ | hself :=
      turn_cases change (not_lt.mp hsmall)
    · have hletters : ∀ n ∈ letters, n < 0x80 := by
        intro n hn
        have hletter := hascii (Char.ofNat n) (hturn ▸ List.mem_map_of_mem hn)
        rwa [toNat_ofNat (h.expansions_avoid _ hentry n hn).1] at hletter
      have hmoves := h.expansions_into_ascii _ hentry hletters
      exact absurd (hc.symm.trans hmoves) (by decide)
    · obtain ⟨htoNat, -⟩ := h.toNat_shifted hshift hfirst hlast
      have hbelow := hascii _ (hturn ▸ List.mem_singleton_self _)
      obtain hbeyond | ⟨span, hspan, hstart, hstop⟩ := h.shifts_into_ascii shift hshift
      · omega
      · have hmoves := List.any_eq_false.mp hc span hspan
        simp only [Bool.and_eq_true, decide_eq_true_eq] at hmoves
        omega
    · exact hself

lemma turn_eq_self_of_mem_turn {c d : Char} (hd : d ∈ change.turn c)
    (hascii : ∀ x ∈ change.turn d, x.toNat < 0x80) : change.turn d = [d] := by
  obtain hmoves | hsingle := h.within_of_mem_turn hd
  · exact h.turn_eq_self hmoves hascii
  · obtain rfl : d = c := List.mem_singleton.mp (hsingle ▸ hd)
    exact hsingle

end Settles

end CaseChange

open CaseChange

theorem upper_eq_of_upper_upper {s t : String} (h : upper (upper s) = t)
    (ht : ∀ c ∈ t.toList, c.toNat < 0x80) : upper s = t := by
  have hlists : (s.toList.flatMap upperChar).flatMap upperChar = t.toList := by
    rw [← h]
    simp [upper]
  have hself : ∀ d ∈ s.toList.flatMap upperChar, upperChar d = [d] := by
    intro d hd
    obtain ⟨c, -, hdc⟩ := List.mem_flatMap.mp hd
    exact upper_settles.turn_eq_self_of_mem_turn hdc fun x hx =>
      ht x (hlists ▸ List.mem_flatMap.mpr ⟨d, hd, hx⟩)
  have hsame : (s.toList.flatMap upperChar).flatMap upperChar = s.toList.flatMap upperChar := by
    rw [List.flatMap_congr hself]
    exact List.flatMap_singleton' _
  rw [upper, ← hsame, hlists, String.ofList_toList]

lemma exists_of_mem_lowerFrom {d : Char} {before cs : List Char} (h : d ∈ lowerFrom before cs) :
    ∃ c, d ∈ lowerChar c := by
  induction cs generalizing before with
  | nil => cases h
  | cons c rest ih =>
    rw [lowerFrom] at h
    obtain hd | hrest := List.mem_append.mp h
    · split_ifs at hd with hsigma hword
      · exact ⟨'ς', by rw [List.mem_singleton.mp hd]; decide +kernel⟩
      · exact ⟨'Σ', by rw [List.mem_singleton.mp hd]; decide +kernel⟩
      · exact ⟨c, hd⟩
    · exact ih hrest

lemma lowerFrom_eq_self {before cs : List Char} (hcs : ∀ d ∈ cs, ∃ c, d ∈ lowerChar c)
    (hascii : ∀ x ∈ lowerFrom before cs, x.toNat < 0x80) : lowerFrom before cs = cs := by
  induction cs generalizing before with
  | nil => rfl
  | cons d rest ih =>
    rw [lowerFrom] at hascii ⊢
    obtain ⟨hhead, hrest⟩ := List.forall_mem_append.mp hascii
    rw [ih (fun x hx => hcs x (List.mem_cons_of_mem _ hx)) hrest]
    split_ifs at hhead ⊢ with hsigma hword
    · exact absurd (hhead _ (List.mem_singleton_self _)) (by decide)
    · exact absurd (hhead _ (List.mem_singleton_self _)) (by decide)
    · obtain ⟨c, hd⟩ := hcs d (List.mem_cons_self ..)
      have hself : lowerChar d = [d] := lower_settles.turn_eq_self_of_mem_turn hd hhead
      rw [hself, List.singleton_append]

theorem lower_eq_of_lower_lower {s t : String} (h : lower (lower s) = t)
    (ht : ∀ c ∈ t.toList, c.toNat < 0x80) : lower s = t := by
  have hlist : lowerFrom [] (lower s).toList = t.toList := by
    rw [← h, lower.eq_def (lower s), String.toList_ofList]
  have hself : lowerFrom [] (lower s).toList = (lower s).toList := by
    refine lowerFrom_eq_self (fun d hd => ?_) (hlist ▸ ht)
    rw [lower, String.toList_ofList] at hd
    exact exists_of_mem_lowerFrom hd
  exact String.toList_inj.mp (hself.symm.trans hlist)

end MarketFormula.Text
