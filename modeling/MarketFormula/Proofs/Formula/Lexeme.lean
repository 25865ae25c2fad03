import Mathlib
import MarketFormula.Proofs.Formula.Numeral

/-!
# Lexemes

A lexeme is a number, a name or one of the symbols of the language. What is taken at the front of a
text is the longest lexeme there, of whatever class, and nothing is taken only where no lexeme
starts.
-/
namespace MarketFormula

open Text

lemma Text.isBlank_of_isDigit {c : Char} (h : isDigit c = true) : isBlank c = false := by
  obtain ⟨d, hd⟩ := Decimal.exists_digitValue h
  have hlt := digitValue?_lt hd
  obtain hvalue | ⟨-, hblank⟩ := Decimal.digitValue?_cases hd
  · simp [isBlank]
    omega
  · exact hblank

namespace Token

def symbols : List (TokenKind × List Char) :=
  [(.and, ['&', '&']), (.or, ['|', '|']), (.ge, ['>', '=']), (.le, ['<', '=']), (.eq, ['=', '=']),
    (.ne, ['!', '=']), (.not, ['!']), (.gt, ['>']), (.lt, ['<']), (.leftParen, ['(']),
    (.rightParen, [')']), (.comma, [',']), (.plus, ['+']), (.minus, ['-']), (.times, ['*']),
    (.div, ['/'])]

/-- A lexeme, with the kind and the text of its token: names are kept in upper case and all else as
it is written. -/
inductive Lexeme : List Char → TokenKind → List Char → Prop
  | number {cs : List Char} (h : Decimal.Numeral cs) : Lexeme cs .number cs
  | name {c : Char} {rest : List Char} (h : isNameStart c = true)
    (h' : ∀ d ∈ rest, isNameChar d = true) :
    Lexeme (c :: rest) (nameKind ((c :: rest).map Char.toUpper)) ((c :: rest).map Char.toUpper)
  | symbol {kind : TokenKind} {cs : List Char} (h : (kind, cs) ∈ symbols) : Lexeme cs kind cs

def IsLexeme (cs : List Char) : Prop :=
  ∃ kind text, Lexeme cs kind text

/-- The longest lexeme at the front of a text. -/
def IsLongest (lexeme cs : List Char) : Prop :=
  lexeme <+: cs ∧ ∀ other, other <+: cs → IsLexeme other → other.length ≤ lexeme.length

section Characters

variable {c : Char}

lemma isNameStart_iff : isNameStart c = true ↔
    (65 ≤ c.toNat ∧ c.toNat ≤ 90) ∨ (97 ≤ c.toNat ∧ c.toNat ≤ 122) ∨ c.toNat = 95 := by
  have hunderscore : c = '_' ↔ c.toNat = 95 := Char.toNat_inj.symm
  simp only [isNameStart, Char.isAlpha, Char.isUpper, Char.isLower, Bool.or_eq_true,
    Bool.and_eq_true, decide_eq_true_eq, beq_iff_eq, ge_iff_le, UInt32.le_iff_toNat_le, hunderscore,
    or_assoc]
  rfl

lemma isNameChar_iff : isNameChar c = true ↔
    isNameStart c = true ∨ (48 ≤ c.toNat ∧ c.toNat ≤ 57) := by
  have hdigit : c.isDigit = true ↔ 48 ≤ c.toNat ∧ c.toNat ≤ 57 := by
    simp only [Char.isDigit, Bool.and_eq_true, decide_eq_true_eq, ge_iff_le,
      UInt32.le_iff_toNat_le]
    rfl
  simp only [isNameChar, isNameStart, Char.isAlphanum, Bool.or_eq_true, hdigit]
  tauto

lemma isBlank_of_isNameChar (h : isNameChar c = true) : isBlank c = false := by
  rw [isNameChar_iff, isNameStart_iff] at h
  simp [isBlank]
  omega

def isNumberChar (c : Char) : Bool :=
  isDigit c || c == '.'

lemma isNumberChar_of_isNameStart (h : isNameStart c = true) : isNumberChar c = false := by
  have hrange := isNameStart_iff.mp h
  have hpoint : ('.' : Char).toNat = 46 := rfl
  simp only [isNumberChar, Bool.or_eq_false_iff, beq_eq_false_iff_ne]
  constructor
  · rw [← Bool.not_eq_true]
    intro hdigit
    obtain ⟨d, hd⟩ := Decimal.exists_digitValue hdigit
    have hlt := digitValue?_lt hd
    obtain hvalue | ⟨hfar, -⟩ := Decimal.digitValue?_cases hd <;> omega
  · rintro rfl
    omega

end Characters

lemma mem_symbols {kind : TokenKind} {cs : List Char} (h : (kind, cs) ∈ symbols) :
    ∃ c rest, cs = c :: rest ∧ rest.length ≤ 1 ∧ isNumberChar c = false ∧ isNameStart c = false ∧
      ∀ d ∈ cs, isBlank d = false := by
  have hall : symbols.all (fun entry => entry.2.head?.any (fun c => !isNumberChar c && !isNameStart c)
      && decide (entry.2.tail.length ≤ 1) && entry.2.all (!isBlank ·)) = true := by decide
  have hentry := List.all_eq_true.mp hall _ h
  cases cs with
  | nil => cases hentry
  | cons c rest =>
    simp only [List.head?_cons, Option.any_some, List.tail_cons, Bool.and_eq_true,
      Bool.not_eq_true', List.all_eq_true] at hentry
    obtain ⟨⟨⟨hnumber, hname⟩, hlength⟩, hblank⟩ := hentry
    exact ⟨c, rest, rfl, of_decide_eq_true hlength, hnumber, hname, hblank⟩

lemma numeral_cons {cs : List Char} (h : Decimal.Numeral cs) :
    ∃ c rest, cs = c :: rest ∧ isNumberChar c = true := by
  cases hcs : cs with
  | nil =>
    exfalso
    cases h with
    | whole _ hne => exact hne hcs
    | point _ _ _ => simp at hcs
  | cons c rest =>
    have hc := h.mem_cases (show c ∈ cs by simp [hcs])
    exact ⟨c, rest, rfl, by simpa [isNumberChar] using hc⟩

namespace Lexeme

variable {cs text : List Char} {kind : TokenKind}

lemma ne_nil (h : Lexeme cs kind text) : cs ≠ [] := by
  cases h with
  | number h =>
    obtain ⟨c, rest, rfl, -⟩ := numeral_cons h
    simp
  | name h h' => simp
  | symbol h =>
    obtain ⟨c, rest, rfl, -⟩ := mem_symbols h
    simp

lemma not_blank (h : Lexeme cs kind text) : ∀ c ∈ cs, isBlank c = false := by
  intro c hc
  cases h with
  | number h =>
    obtain hdigit | rfl := h.mem_cases hc
    · exact isBlank_of_isDigit hdigit
    · decide
  | name h h' =>
    rcases List.mem_cons.mp hc with rfl | hc
    · exact isBlank_of_isNameChar (isNameChar_iff.mpr (.inl h))
    · exact isBlank_of_isNameChar (h' c hc)
  | symbol h =>
    obtain ⟨-, -, -, -, -, -, hblank⟩ := mem_symbols h
    exact hblank c hc

lemma length_text (h : Lexeme cs kind text) : text.length = cs.length := by
  cases h <;> simp

section Front

variable {c : Char} {rest : List Char} (h : Lexeme (c :: rest) kind text)

include h

lemma of_isNumberChar (hc : isNumberChar c = true) :
    Decimal.Numeral (c :: rest) ∧ kind = .number ∧ text = c :: rest := by
  cases h with
  | number h => exact ⟨h, rfl, rfl⟩
  | name h h' => simp [isNumberChar_of_isNameStart h] at hc
  | symbol h =>
    obtain ⟨_, _, heq, -, hnumber, -, -⟩ := mem_symbols h
    cases heq
    simp [hnumber] at hc

lemma of_isNameStart (hc : isNameStart c = true) :
    (∀ d ∈ rest, isNameChar d = true) ∧ kind = nameKind ((c :: rest).map Char.toUpper) ∧
      text = (c :: rest).map Char.toUpper := by
  cases h with
  | number h =>
    obtain ⟨_, _, heq, hnumber⟩ := numeral_cons h
    cases heq
    simp [isNumberChar_of_isNameStart hc] at hnumber
  | name h h' => exact ⟨h', rfl, rfl⟩
  | symbol h =>
    obtain ⟨_, _, heq, -, -, hname, -⟩ := mem_symbols h
    cases heq
    simp [hname] at hc

lemma of_sign (hnumber : isNumberChar c = false) (hname : isNameStart c = false) :
    (kind, c :: rest) ∈ symbols ∧ text = c :: rest := by
  cases h with
  | number h =>
    obtain ⟨_, _, heq, hc⟩ := numeral_cons h
    cases heq
    simp [hnumber] at hc
  | name h h' => simp [hname] at h
  | symbol h => exact ⟨h, rfl⟩

end Front

end Lexeme

section Longest

variable {cs lexeme : List Char}

lemma takeWhile_le_numberLength (cs : List Char) :
    (cs.takeWhile isDigit).length ≤ numberLength cs := by
  by_cases hpoint : ∃ rest, cs.dropWhile isDigit = '.' :: rest
  · obtain ⟨rest, hrest⟩ := hpoint
    rw [numberLength_of_point hrest]
    split_ifs <;> omega
  · exact (numberLength_of_not_point (not_exists.mp hpoint)).ge

lemma numberLength_le (cs : List Char) : numberLength cs ≤ cs.length := by
  have hsplit := congrArg List.length (List.takeWhile_append_dropWhile (p := isDigit) (l := cs))
  rw [List.length_append] at hsplit
  by_cases hpoint : ∃ rest, cs.dropWhile isDigit = '.' :: rest
  · obtain ⟨rest, hrest⟩ := hpoint
    have hfraction := (List.takeWhile_prefix (p := isDigit) (l := rest)).length_le
    rw [hrest, List.length_cons] at hsplit
    rw [numberLength_of_point hrest]
    split_ifs <;> omega
  · rw [numberLength_of_not_point (not_exists.mp hpoint)]
    omega

lemma length_le_numberLength (h : Decimal.Numeral lexeme) (hfront : lexeme <+: cs) :
    lexeme.length ≤ numberLength cs := by
  obtain ⟨behind, rfl⟩ := hfront
  cases h with
  | whole h hne =>
    have hle := takeWhile_le_numberLength (lexeme ++ behind)
    rw [List.takeWhile_append_of_pos h, List.length_append] at hle
    omega
  | @point digits fraction h h' hne =>
    have htake : ((digits ++ '.' :: fraction) ++ behind).takeWhile isDigit = digits := by
      rw [List.append_assoc, List.cons_append]
      exact Decimal.takeWhile_point h (by decide)
    have hdrop : ((digits ++ '.' :: fraction) ++ behind).dropWhile isDigit =
        '.' :: (fraction ++ behind) := by
      rw [List.append_assoc, List.cons_append]
      exact Decimal.dropWhile_point h (by decide)
    have hfraction : (fraction ++ behind).takeWhile isDigit = fraction ++ behind.takeWhile isDigit :=
      List.takeWhile_append_of_pos h'
    rw [numberLength_of_point hdrop, htake, hfraction, List.length_append, List.length_cons,
      List.length_append, if_neg]
    · omega
    · rintro ⟨hdigits, hnone⟩
      have hempty : fraction = [] := List.eq_nil_of_length_eq_zero (by omega)
      exact hne (List.eq_nil_of_length_eq_zero hdigits) hempty

lemma isLongest_number (h : 0 < numberLength cs) : IsLongest (cs.take (numberLength cs)) cs := by
  refine ⟨List.take_prefix _ _, fun other hfront ⟨kind, text, hother⟩ => ?_⟩
  obtain ⟨c, rest, hnumeral, hc⟩ := numeral_cons (numeral_of_numberLength_pos h)
  have hhead : ∃ tail, other = c :: tail := by
    obtain ⟨d, tail, rfl⟩ := List.exists_cons_of_ne_nil hother.ne_nil
    obtain ⟨behind, rfl⟩ := hfront
    obtain ⟨n, hn⟩ : ∃ n, numberLength ((d :: tail) ++ behind) = n + 1 :=
      ⟨_, (Nat.succ_pred_eq_of_pos h).symm⟩
    rw [hn, List.cons_append, List.take_succ_cons] at hnumeral
    exact ⟨tail, by rw [(List.cons.inj hnumeral).1]⟩
  obtain ⟨tail, rfl⟩ := hhead
  have hle := length_le_numberLength (hother.of_isNumberChar hc).1 hfront
  rw [List.length_take]
  exact Nat.le_min.mpr ⟨hle, hfront.length_le⟩

lemma exists_symbol? {kind : TokenKind} (h : (kind, lexeme) ∈ symbols) (hfront : lexeme <+: cs) :
    ∃ kind' n, symbol? cs = some (kind', n) ∧ lexeme.length ≤ n := by
  obtain ⟨behind, rfl⟩ := hfront
  simp only [symbols, List.mem_cons, Prod.mk.injEq, List.not_mem_nil, or_false] at h
  rcases h with ⟨-, rfl⟩ | ⟨-, rfl⟩ | ⟨-, rfl⟩ | ⟨-, rfl⟩ | ⟨-, rfl⟩ | ⟨-, rfl⟩ | ⟨-, rfl⟩ |
    ⟨-, rfl⟩ | ⟨-, rfl⟩ | ⟨-, rfl⟩ | ⟨-, rfl⟩ | ⟨-, rfl⟩ | ⟨-, rfl⟩ | ⟨-, rfl⟩ | ⟨-, rfl⟩ |
    ⟨-, rfl⟩
  all_goals simp only [List.cons_append, List.nil_append]
  any_goals exact ⟨_, _, rfl, le_rfl⟩
  -- the signs that go on with an equals sign are left
  all_goals
    rcases behind with _ | ⟨d, behind⟩
    · exact ⟨_, _, rfl, le_rfl⟩
    · by_cases hd : d = '='
      · subst hd
        exact ⟨_, _, rfl, by decide⟩
      · simp [symbol?, hd]

lemma mem_symbols_of_symbol? {kind : TokenKind} {n : Nat} (h : symbol? cs = some (kind, n)) :
    n ≤ cs.length ∧ (kind, cs.take n) ∈ symbols := by
  unfold symbol? at h
  split at h <;> cases h <;> simp [symbols]

lemma nameLength_cons {c : Char} (rest : List Char) (h : isNameStart c = true) :
    nameLength (c :: rest) = 1 + (rest.takeWhile isNameChar).length := by
  simp [nameLength, h]

lemma take_nameLength {c : Char} (rest : List Char) (h : isNameStart c = true) :
    (c :: rest).take (nameLength (c :: rest)) = c :: rest.takeWhile isNameChar := by
  have htake := List.prefix_iff_eq_take.mp (List.takeWhile_prefix (p := isNameChar) (l := rest))
  rw [nameLength_cons rest h, Nat.add_comm, List.take_succ_cons, ← htake]

lemma isLongest_name {c : Char} {rest : List Char} (h : isNameStart c = true) :
    IsLongest (c :: rest.takeWhile isNameChar) (c :: rest) := by
  refine ⟨List.cons_prefix_cons.mpr ⟨rfl, List.takeWhile_prefix _⟩, ?_⟩
  rintro other hfront ⟨kind, text, hother⟩
  obtain ⟨d, tail, rfl⟩ := List.exists_cons_of_ne_nil hother.ne_nil
  obtain ⟨rfl, behind, rfl⟩ := List.cons_prefix_cons.mp hfront
  rw [List.takeWhile_append_of_pos (hother.of_isNameStart h).1]
  simp

lemma isLongest_symbol {kind : TokenKind} {n : Nat} (hnumber : numberLength cs = 0)
    (hname : nameLength cs = 0) (h : symbol? cs = some (kind, n)) : IsLongest (cs.take n) cs := by
  obtain ⟨hn, -⟩ := mem_symbols_of_symbol? h
  refine ⟨List.take_prefix _ _, fun other hfront hother => ?_⟩
  rw [List.length_take, Nat.min_eq_left hn]
  obtain ⟨kind', text, hnumeral | ⟨hstart, -⟩ | hmem⟩ := hother
  · have hle := length_le_numberLength hnumeral hfront
    omega
  · obtain ⟨behind, rfl⟩ := hfront
    rw [List.cons_append, nameLength_cons _ hstart] at hname
    omega
  · obtain ⟨_, m, hsome, hle⟩ := exists_symbol? hmem hfront
    cases h.symm.trans hsome
    exact hle

end Longest

lemma of_lexeme? {cs text : List Char} {kind : TokenKind} {n : Nat}
    (h : lexeme? cs = some (kind, text, n)) :
    ∃ lexeme, IsLongest lexeme cs ∧ Lexeme lexeme kind text ∧ lexeme.length = n := by
  unfold lexeme? at h
  split at h
  · next hnumber =>
    cases h
    have hlength : (cs.take (numberLength cs)).length = numberLength cs := by
      rw [List.length_take, Nat.min_eq_left (numberLength_le cs)]
    exact ⟨_, isLongest_number hnumber, .number (numeral_of_numberLength_pos hnumber), hlength⟩
  · next hnumber =>
    split at h
    · next hname =>
      cases cs with
      | nil => cases hname
      | cons c rest =>
        have hstart : isNameStart c = true := by
          by_contra hstart
          simp [nameLength, hstart] at hname
        simp only [take_nameLength rest hstart, Option.some.injEq, Prod.mk.injEq] at h
        obtain ⟨rfl, rfl, rfl⟩ := h
        refine ⟨_, isLongest_name hstart, .name hstart fun _ => List.mem_takeWhile_imp, ?_⟩
        rw [nameLength_cons rest hstart, List.length_cons, Nat.add_comm]
    · next hname =>
      simp only [Option.map_eq_some_iff, Prod.mk.injEq] at h
      obtain ⟨⟨_, m⟩, hsymbol, rfl, rfl, rfl⟩ := h
      obtain ⟨hm, hmem⟩ := mem_symbols_of_symbol? hsymbol
      refine ⟨_, isLongest_symbol (Nat.eq_zero_of_not_pos hnumber) (Nat.eq_zero_of_not_pos hname)
        hsymbol, .symbol hmem, ?_⟩
      rw [List.length_take, Nat.min_eq_left hm]

lemma exists_lexeme? {cs lexeme : List Char} (hfront : lexeme <+: cs) (h : IsLexeme lexeme) :
    ∃ result, lexeme? cs = some result := by
  unfold lexeme?
  split
  · exact ⟨_, rfl⟩
  · next hnumber =>
    split
    · exact ⟨_, rfl⟩
    · next hname =>
      obtain ⟨kind, text, hnumeral | ⟨hstart, -⟩ | hmem⟩ := h
      · have hle := length_le_numberLength hnumeral hfront
        have hpos := List.length_pos_of_ne_nil (Lexeme.number hnumeral).ne_nil
        omega
      · obtain ⟨behind, rfl⟩ := hfront
        rw [List.cons_append, nameLength_cons _ hstart] at hname
        omega
      · obtain ⟨_, _, hsymbol, -⟩ := exists_symbol? hmem hfront
        exact ⟨_, by rw [hsymbol]; rfl⟩

lemma kind_of_mem_symbols : ∀ entry ∈ symbols, ∀ entry' ∈ symbols,
    entry.2 = entry'.2 → entry.1 = entry'.1 := by
  decide

namespace Lexeme

lemma unique {cs text text' : List Char} {kind kind' : TokenKind} (h : Lexeme cs kind text)
    (h' : Lexeme cs kind' text') : kind = kind' ∧ text = text' := by
  obtain ⟨c, rest, rfl⟩ := List.exists_cons_of_ne_nil h.ne_nil
  cases hnumber : isNumberChar c with
  | true =>
    obtain ⟨-, rfl, rfl⟩ := h.of_isNumberChar hnumber
    obtain ⟨-, rfl, rfl⟩ := h'.of_isNumberChar hnumber
    exact ⟨rfl, rfl⟩
  | false =>
    cases hname : isNameStart c with
    | true =>
      obtain ⟨-, rfl, rfl⟩ := h.of_isNameStart hname
      obtain ⟨-, rfl, rfl⟩ := h'.of_isNameStart hname
      exact ⟨rfl, rfl⟩
    | false =>
      obtain ⟨hmem, rfl⟩ := h.of_sign hnumber hname
      obtain ⟨hmem', rfl⟩ := h'.of_sign hnumber hname
      exact ⟨kind_of_mem_symbols _ hmem _ hmem' rfl, rfl⟩

end Lexeme

theorem lexeme?_eq_some_iff {cs text : List Char} {kind : TokenKind} {n : Nat} :
    lexeme? cs = some (kind, text, n) ↔
      ∃ lexeme, IsLongest lexeme cs ∧ Lexeme lexeme kind text ∧ lexeme.length = n := by
  refine ⟨of_lexeme?, ?_⟩
  rintro ⟨lexeme, hlongest, hlexeme, rfl⟩
  obtain ⟨⟨kind', text', n⟩, hsome⟩ := exists_lexeme? hlongest.1 ⟨kind, text, hlexeme⟩
  obtain ⟨lexeme', hlongest', hlexeme', rfl⟩ := of_lexeme? hsome
  have hle := hlongest.2 lexeme' hlongest'.1 ⟨kind', text', hlexeme'⟩
  have hge := hlongest'.2 lexeme hlongest.1 ⟨kind, text, hlexeme⟩
  have hfront := List.prefix_of_prefix_length_le hlongest.1 hlongest'.1 hge
  obtain rfl := hfront.eq_of_length (Nat.le_antisymm hge hle)
  obtain ⟨rfl, rfl⟩ := hlexeme.unique hlexeme'
  exact hsome

theorem lexeme?_eq_none_iff {cs : List Char} :
    lexeme? cs = none ↔ ∀ lexeme, lexeme <+: cs → ¬ IsLexeme lexeme := by
  constructor
  · intro hnone lexeme hfront h
    obtain ⟨result, hsome⟩ := exists_lexeme? hfront h
    cases hnone.symm.trans hsome
  · intro h
    cases hresult : lexeme? cs with
    | none => rfl
    | some result =>
      obtain ⟨lexeme, hlongest, hlexeme, -⟩ := of_lexeme? hresult
      exact absurd ⟨_, _, hlexeme⟩ (h lexeme hlongest.1)

end Token

end MarketFormula
