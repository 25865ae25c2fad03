import Mathlib.Data.List.TakeWhile
import Mathlib.Order.Nat
import MarketFormula.Formula.Lexer
import MarketFormula.Formula.Parser
import MarketFormula.Proofs.Result

/-!
# Numbers in formulas can be read

The digits of a number in a formula may come from any script. The text of every number token is a
number text, and of the value that the token has in the formula.
-/
namespace MarketFormula

open Text

namespace Decimal

/-- One or more digits with at most one point among them. -/
inductive Numeral : List Char → Prop
  | whole {digits : List Char} (h : ∀ c ∈ digits, isDigit c = true) (hne : digits ≠ []) :
    Numeral digits
  | point {digits fraction : List Char} (h : ∀ c ∈ digits, isDigit c = true)
    (h' : ∀ c ∈ fraction, isDigit c = true) (hne : digits = [] → fraction ≠ []) :
    Numeral (digits ++ '.' :: fraction)

def plainChars : List Char :=
  ['.', '0', '1', '2', '3', '4', '5', '6', '7', '8', '9']

lemma plainChars_plain : ∀ c ∈ plainChars, isPlainBlank c = false ∧ c ≠ '_' ∧ c ≠ '-' ∧ c ≠ '+' ∧
    c.toLower ≠ 'i' ∧ c.toLower ≠ 'n' := by
  have hall : plainChars.all (fun c => !isPlainBlank c && c != '_' && c != '-' && c != '+' &&
    c.toLower != 'i' && c.toLower != 'n') = true := by decide
  simpa [and_assoc] using hall

/-- A digit of any script as a digit of ASCII; other characters are left as they are. -/
def plainDigit (c : Char) : Char :=
  ((digitValue? c).map Nat.digitChar).getD c

lemma digitChar_facts : ∀ d < 10, d.digitChar ∈ plainChars ∧ d.digitChar.isDigit = true ∧
    digitValue? d.digitChar = some d ∧ Nat.digitChar d = Char.ofNat (0x30 + d) := by
  decide

lemma digitZeros_apart : ∀ first ∈ digitZeros, first + 9 < 0x1680 ∨
    (0x1680 < first ∧ first + 9 < 0x2000) ∨ 0x3000 < first := by
  decide

section Digit

variable {c : Char} {d : Nat}

lemma digitValue?_cases (h : digitValue? c = some d) :
    c.toNat = 0x30 + d ∨ (0x660 ≤ c.toNat ∧ isBlank c = false) := by
  simp only [digitValue?] at h
  split at h
  · split at h
    · cases h
      omega
    · cases h
  · obtain ⟨first, hfirst, rfl⟩ := Option.map_eq_some_iff.mp h
    have hapart := digitZeros_apart first (List.mem_of_find?_eq_some hfirst)
    have hbounds := List.find?_some hfirst
    simp only [Bool.and_eq_true, decide_eq_true_eq] at hbounds
    refine .inr ⟨by omega, ?_⟩
    simp only [isBlank, Bool.or_eq_false_iff, Bool.and_eq_false_iff, decide_eq_false_iff_not,
      beq_eq_false_iff_ne]
    omega

lemma plainDigit_eq (h : digitValue? c = some d) : plainDigit c = d.digitChar := by
  simp [plainDigit, h]

lemma plainDigit_of_ascii (h : digitValue? c = some d) (hc : c.toNat < 0x80) :
    plainDigit c = c := by
  obtain hvalue | ⟨hfar, -⟩ := digitValue?_cases h
  · rw [plainDigit_eq h, (digitChar_facts d (digitValue?_lt h)).2.2.2, ← hvalue, Char.ofNat_toNat]
  · omega

lemma asciiChar?_of_digit (h : digitValue? c = some d) : asciiChar? c = some (plainDigit c) := by
  obtain hvalue | ⟨hfar, hblank⟩ := digitValue?_cases h
  · have hd := digitValue?_lt h
    rw [asciiChar?, if_pos (by omega), plainDigit_of_ascii h (by omega)]
  · rw [asciiChar?, if_neg (by omega), hblank, if_neg (by decide), h, Option.map_some,
      plainDigit_eq h]

end Digit

lemma exists_digitValue {c : Char} (h : isDigit c = true) : ∃ d, digitValue? c = some d :=
  Option.isSome_iff_exists.mp h

lemma isDigit_plainDigit {c : Char} (h : isDigit c = true) : (plainDigit c).isDigit = true := by
  obtain ⟨d, hd⟩ := exists_digitValue h
  rw [plainDigit_eq hd]
  exact (digitChar_facts d (digitValue?_lt hd)).2.1

lemma digitsOf_map_plainDigit {digits : List Char} (h : ∀ c ∈ digits, isDigit c = true) :
    digitsOf (digits.map plainDigit) = digitsOf digits := by
  rw [digitsOf, List.filterMap_map, digitsOf]
  refine List.filterMap_congr fun c hc => ?_
  obtain ⟨d, hd⟩ := exists_digitValue (h c hc)
  rw [Function.comp_apply, plainDigit_eq hd, hd, (digitChar_facts d (digitValue?_lt hd)).2.2.1]

lemma isDigit_of_mem_map {digits : List Char} (h : ∀ c ∈ digits, isDigit c = true) :
    ∀ c ∈ digits.map plainDigit, c.isDigit = true := by
  intro c hc
  obtain ⟨c, hmem, rfl⟩ := List.mem_map.mp hc
  exact isDigit_plainDigit (h c hmem)

section Point

variable {p : Char → Bool} {digits rest : List Char}

lemma takeWhile_point (h : ∀ c ∈ digits, p c = true) (hpoint : p '.' = false) :
    (digits ++ '.' :: rest).takeWhile p = digits := by
  rw [List.takeWhile_append_of_pos h, List.takeWhile_cons_of_neg (by simp [hpoint]),
    List.append_nil]

lemma dropWhile_point (h : ∀ c ∈ digits, p c = true) (hpoint : p '.' = false) :
    (digits ++ '.' :: rest).dropWhile p = '.' :: rest := by
  rw [List.dropWhile_append_of_pos h, List.dropWhile_cons_of_neg (by simp [hpoint])]

end Point

namespace Numeral

variable {cs : List Char}

lemma mem_cases (h : Numeral cs) {c : Char} (hc : c ∈ cs) : isDigit c = true ∨ c = '.' := by
  cases h with
  | whole h _ => exact .inl (h c hc)
  | point h h' _ =>
    simp only [List.mem_append, List.mem_cons] at hc
    rcases hc with hc | rfl | hc
    · exact .inl (h c hc)
    · exact .inr rfl
    · exact .inl (h' c hc)

lemma ascii?_eq (h : Numeral cs) : ascii? cs = some (cs.map plainDigit) := by
  unfold ascii?
  split
  · next hascii =>
    simp only [List.all_eq_true, decide_eq_true_eq] at hascii
    have hself : ∀ c ∈ cs, plainDigit c = c := by
      intro c hc
      obtain hdigit | rfl := h.mem_cases hc
      · obtain ⟨d, hd⟩ := exists_digitValue hdigit
        exact plainDigit_of_ascii hd (hascii c hc)
      · decide
    rw [List.map_congr_left hself, List.map_id']
  · refine mapM_eq_some fun c hc => ?_
    obtain hdigit | rfl := h.mem_cases hc
    · obtain ⟨d, hd⟩ := exists_digitValue hdigit
      exact asciiChar?_of_digit hd
    · decide

lemma mem_plainChars (h : Numeral cs) {c : Char} (hc : c ∈ cs.map plainDigit) :
    c ∈ plainChars := by
  obtain ⟨c, hmem, rfl⟩ := List.mem_map.mp hc
  obtain hdigit | rfl := h.mem_cases hmem
  · obtain ⟨d, hd⟩ := exists_digitValue hdigit
    rw [plainDigit_eq hd]
    exact (digitChar_facts d (digitValue?_lt hd)).1
  · decide

lemma unsigned?_eq (h : Numeral cs) : unsigned? (cs.map plainDigit) = some (ofPlain cs) := by
  cases h with
  | whole h hne =>
    have hplain := isDigit_of_mem_map h
    have htake := List.takeWhile_eq_self_iff.mpr hplain
    have hdrop := List.dropWhile_eq_nil_iff.mpr hplain
    have htake' := List.takeWhile_eq_self_iff.mpr h
    have hdrop' := List.dropWhile_eq_nil_iff.mpr h
    simp only [unsigned?, htake, hdrop, ofPlain, htake', hdrop', digitsOf_map_plainDigit h]
    simp [hne, exponent?, digitsOf]
  | @point digits fraction h h' hne =>
    have hplain := isDigit_of_mem_map h
    have hplain' := isDigit_of_mem_map h'
    have hmap : (digits ++ '.' :: fraction).map plainDigit =
        digits.map plainDigit ++ '.' :: fraction.map plainDigit := by
      rw [List.map_append, List.map_cons]
      rfl
    have hvalue : digitsOf ('.' :: fraction) = digitsOf fraction := rfl
    have htake := List.takeWhile_eq_self_iff.mpr hplain'
    have hdrop := List.dropWhile_eq_nil_iff.mpr hplain'
    rw [hmap, unsigned?, takeWhile_point hplain rfl, dropWhile_point hplain rfl, ofPlain,
      takeWhile_point h (by decide), dropWhile_point h (by decide), hvalue]
    simp only [htake, hdrop, digitsOf_map_plainDigit h, digitsOf_map_plainDigit h']
    simpa [exponent?] using hne

end Numeral

lemma removeUnderscores?_eq {cs : List Char} (h : ∀ c ∈ cs, c ≠ '_') (afterDigit : Bool) :
    removeUnderscores? afterDigit cs = some cs := by
  induction cs generalizing afterDigit with
  | nil => rfl
  | cons c rest ih =>
    have hc := h c (List.mem_cons_self ..)
    have hrest := ih (fun c' hc' => h c' (List.mem_cons_of_mem _ hc')) c.isDigit
    rw [removeUnderscores?, hrest, Option.map_some]
    intro hunderscore
    exact absurd hunderscore hc

lemma splitSign_eq {cs : List Char} (h : ∀ c ∈ cs, c ≠ '-' ∧ c ≠ '+') :
    splitSign cs = (false, cs) := by
  unfold splitSign
  split
  · exact absurd rfl (h '-' (List.mem_cons_self ..)).1
  · exact absurd rfl (h '+' (List.mem_cons_self ..)).2
  · rfl

lemma special?_eq_none {cs : List Char} (h : ∀ c ∈ cs, c.toLower ≠ 'i' ∧ c.toLower ≠ 'n') :
    special? cs = none := by
  have hchars : ∀ c ∈ (String.ofList (cs.map Char.toLower)).toList, c ≠ 'i' ∧ c ≠ 'n' := by
    intro c hc
    rw [String.toList_ofList, List.mem_map] at hc
    obtain ⟨c, hmem, rfl⟩ := hc
    exact h c hmem
  unfold special?
  split
  · next heq =>
    rw [heq] at hchars
    exact absurd rfl (hchars 'i' (by decide)).1
  · next heq =>
    rw [heq] at hchars
    exact absurd rfl (hchars 'i' (by decide)).1
  · next heq =>
    rw [heq] at hchars
    exact absurd rfl (hchars 'n' (by decide)).2
  · rfl

lemma strip_eq {p : Char → Bool} {cs : List Char} (h : ∀ c ∈ cs, p c = false) :
    strip p cs = cs := by
  have hdrop : ∀ xs : List Char, (∀ c ∈ xs, p c = false) → xs.dropWhile p = xs := by
    intro xs hxs
    cases xs with
    | nil => rfl
    | cons c rest =>
      rw [List.dropWhile_cons_of_neg (by simp [hxs c (List.mem_cons_self ..)])]
  have hreverse : ∀ c ∈ cs.reverse, p c = false := fun c hc => h c (List.mem_reverse.mp hc)
  rw [strip, hdrop cs h, hdrop cs.reverse hreverse, List.reverse_reverse]

lemma read?_numeral {cs : List Char} (h : Numeral cs) :
    read? (String.ofList cs) = some (ofPlain cs) := by
  have hplain : ∀ c ∈ cs.map plainDigit, isPlainBlank c = false ∧ c ≠ '_' ∧ c ≠ '-' ∧ c ≠ '+' ∧
      c.toLower ≠ 'i' ∧ c.toLower ≠ 'n' := fun c hc => plainChars_plain c (h.mem_plainChars hc)
  have hstrip : strip isPlainBlank (cs.map plainDigit) = cs.map plainDigit :=
    strip_eq fun c hc => (hplain c hc).1
  have hunderscores : removeUnderscores? false (cs.map plainDigit) = some (cs.map plainDigit) :=
    removeUnderscores?_eq (fun c hc => (hplain c hc).2.1) false
  have hchars : plain? (String.ofList cs) = some (cs.map plainDigit) := by
    rw [plain?, String.toList_ofList, h.ascii?_eq]
    change removeUnderscores? false (strip isPlainBlank (cs.map plainDigit)) = _
    rw [hstrip, hunderscores]
  have hsign : splitSign (cs.map plainDigit) = (false, cs.map plainDigit) :=
    splitSign_eq fun c hc => ⟨(hplain c hc).2.2.1, (hplain c hc).2.2.2.1⟩
  have hspecial : special? (cs.map plainDigit) = none :=
    special?_eq_none fun c hc => (hplain c hc).2.2.2.2
  simp [read?, hchars, hsign, hspecial, h.unsigned?_eq]

end Decimal

namespace Token

lemma numberLength_of_point {cs rest : List Char} (hrest : cs.dropWhile isDigit = '.' :: rest) :
    numberLength cs =
      if (cs.takeWhile isDigit).length = 0 ∧ (rest.takeWhile isDigit).length = 0 then 0
      else (cs.takeWhile isDigit).length + 1 + (rest.takeWhile isDigit).length := by
  simp only [numberLength, hrest]

lemma numberLength_of_not_point {cs : List Char}
    (h : ∀ rest, cs.dropWhile isDigit ≠ '.' :: rest) :
    numberLength cs = (cs.takeWhile isDigit).length := by
  unfold numberLength
  split
  · next rest hrest => exact absurd hrest (h rest)
  · rfl

lemma numeral_of_numberLength_pos {cs : List Char} (h : 0 < numberLength cs) :
    Decimal.Numeral (cs.take (numberLength cs)) := by
  have hcs : cs.takeWhile isDigit ++ cs.dropWhile isDigit = cs := List.takeWhile_append_dropWhile
  have hwhole : ∀ c ∈ cs.takeWhile isDigit, isDigit c = true := fun _ => List.mem_takeWhile_imp
  by_cases hpoint : ∃ rest, cs.dropWhile isDigit = '.' :: rest
  · obtain ⟨rest, hrest⟩ := hpoint
    have hfraction : ∀ c ∈ rest.takeWhile isDigit, isDigit c = true :=
      fun _ => List.mem_takeWhile_imp
    have hlength := numberLength_of_point hrest
    split_ifs at hlength with hnone
    · omega
    · have hsplit : (cs.takeWhile isDigit ++ '.' :: rest.takeWhile isDigit) ++
          rest.dropWhile isDigit = cs := by
        rw [List.append_assoc, List.cons_append, List.takeWhile_append_dropWhile, ← hrest, hcs]
      have hfront : cs.take (numberLength cs) =
          cs.takeWhile isDigit ++ '.' :: rest.takeWhile isDigit := by
        conv_lhs => rw [← hsplit]
        refine List.take_left' ?_
        rw [hsplit, hlength, List.length_append, List.length_cons]
        omega
      rw [hfront]
      refine .point hwhole hfraction fun hempty hempty' => hnone ?_
      rw [hempty, hempty']
      exact ⟨rfl, rfl⟩
  · have hlength := numberLength_of_not_point (not_exists.mp hpoint)
    have hfront : cs.take (numberLength cs) = cs.takeWhile isDigit := by
      conv_lhs => rw [← hcs]
      refine List.take_left' ?_
      rw [hcs, hlength]
    rw [hfront]
    refine .whole hwhole fun hempty => ?_
    rw [hlength, hempty] at h
    cases h

lemma numeral_of_lexeme? {cs text : List Char} {length : Nat}
    (h : lexeme? cs = some (.number, text, length)) : Decimal.Numeral text := by
  unfold lexeme? at h
  split at h
  · next hnumber =>
    cases h
    exact numeral_of_numberLength_pos hnumber
  · split at h
    · next hname =>
      simp only [Option.some.injEq, Prod.mk.injEq] at h
      have hkind := h.1
      simp only [nameKind] at hkind
      split_ifs at hkind
    · simp only [Option.map_eq_some_iff, Prod.mk.injEq] at h
      obtain ⟨symbol, hsymbol, hkind, -⟩ := h
      unfold symbol? at hsymbol
      split at hsymbol <;> cases hsymbol <;> cases hkind

lemma numeral_of_scanFrom {position skip : Nat} {cs : List Char} {tokens : List Token}
    (h : scanFrom position skip cs = .ok tokens) :
    ∀ token ∈ tokens, token.kind = .number → Decimal.Numeral token.text.toList := by
  induction cs generalizing position skip tokens with
  | nil =>
    cases h
    simp
  | cons c rest ih =>
    cases skip with
    | succ skip =>
      rw [scanFrom] at h
      exact ih h
    | zero =>
      rw [scanFrom] at h
      split at h
      · exact ih h
      · split at h
        · next kind text length hlexeme =>
          obtain ⟨tail, htail, htokens⟩ := bind_eq_ok_iff.mp h
          cases htokens
          rintro token (_ | ⟨_, htoken⟩) hkind
          · obtain rfl : kind = .number := hkind
            rw [String.toList_ofList]
            exact numeral_of_lexeme? hlexeme
          · exact ih htail token htoken hkind
        · cases h

lemma read?_of_scan {formula : String} {tokens : List Token} (h : scan formula = .ok tokens)
    {token : Token} (htoken : token ∈ tokens) (hkind : token.kind = .number) :
    Decimal.read? token.text = some token.value := by
  have hread := Decimal.read?_numeral (numeral_of_scanFrom h token htoken hkind)
  rwa [String.ofList_toList] at hread

end Token

end MarketFormula
