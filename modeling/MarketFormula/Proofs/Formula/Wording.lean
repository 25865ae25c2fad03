import MarketFormula.Proofs.Formula.Naming
import MarketFormula.Proofs.Formula.Viability

/-!
# Tokens are written at their places

The text of a token is what is written at its place, in upper case, and so is what a fault calls an
unexpected character. A blank text, and no other, is an empty formula.
-/
namespace MarketFormula

open Text

/-- What is written at a position of a text, in upper case. -/
def IsWritten (text token : String) (position : Nat) : Prop :=
  token ≠ "" ∧
    token.toList = ((text.toList.drop position).take token.length).map Char.toUpper

namespace Token

lemma toUpper_of_not_isNameStart {c : Char} (h : isNameStart c = false) : c.toUpper = c := by
  rw [← Bool.not_eq_true, isNameStart_iff] at h
  have hsame := toNat_toUpper c
  rw [if_neg (by omega)] at hsame
  exact Char.toNat_inj.mp hsame

lemma toUpper_toUpper (c : Char) : c.toUpper.toUpper = c.toUpper := by
  have htwice := toNat_toUpper c.toUpper
  have honce := toNat_toUpper c
  rw [if_neg (by split_ifs at honce <;> omega)] at htwice
  exact Char.toNat_inj.mp htwice

lemma symbols_toUpper : ∀ entry ∈ symbols, entry.2.map Char.toUpper = entry.2 := by
  decide

namespace Lexeme

variable {cs text : List Char} {kind : TokenKind}

lemma text_eq (h : Lexeme cs kind text) : text = cs.map Char.toUpper := by
  cases h with
  | number h =>
    have hself : ∀ c ∈ cs, c.toUpper = c := by
      intro c hc
      refine toUpper_of_not_isNameStart ?_
      by_contra hstart
      have hnumber := isNumberChar_of_isNameStart (Bool.not_eq_false _ ▸ hstart)
      have hcases := h.mem_cases hc
      simp only [isNumberChar, Bool.or_eq_false_iff, beq_eq_false_iff_ne] at hnumber
      rcases hcases with hdigit | hpoint
      · rw [hnumber.1] at hdigit
        cases hdigit
      · exact hnumber.2 hpoint
    rw [List.map_congr_left hself, List.map_id']
  | name h h' => rfl
  | symbol h => exact (symbols_toUpper _ h).symm

lemma upper_text (h : Lexeme cs kind text) (hkind : kind = .name) :
    upper (String.ofList text) = String.ofList text := by
  cases h with
  | number h => cases hkind
  | symbol h =>
    subst hkind
    simp [symbols] at h
  | @name c rest h h' =>
    have hself : ∀ d ∈ (c :: rest).map Char.toUpper, upperChar d = [d] := by
      intro d hd
      obtain ⟨b, hb, rfl⟩ := List.mem_map.mp hd
      have hname : isNameChar b = true := by
        rcases List.mem_cons.mp hb with rfl | hb
        · exact isNameChar_iff.mpr (.inl h)
        · exact h' b hb
      rw [isNameChar_iff, isNameStart_iff] at hname
      have hrange := toNat_toUpper b
      rw [upperChar, if_pos (by split_ifs at hrange <;> omega), toUpper_toUpper]
    rw [upper, String.toList_ofList, List.flatMap_congr hself, List.flatMap_singleton']

end Lexeme

namespace Covers

variable {text : String} {start limit : Nat} {tokens : List Token}

lemma isWritten (h : Covers text.toList start limit tokens) {token : Token}
    (htoken : token ∈ tokens) : IsWritten text token.text token.position :=
  ⟨h.text_ne_empty htoken, (h.lexeme token htoken).2.text_eq⟩

lemma upper_text (h : Covers text.toList start limit tokens) {token : Token}
    (htoken : token ∈ tokens) (hkind : token.kind = .name) : upper token.text = token.text := by
  have hupper := (h.lexeme token htoken).2.upper_text hkind
  rwa [String.ofList_toList] at hupper

end Covers

lemma toUpper_firstHeld {cs : List Char} (h : IsStuck cs) :
    firstHeld cs ≠ [] ∧ firstHeld cs <+: cs ∧ (firstHeld cs).map Char.toUpper = firstHeld cs := by
  obtain ⟨c, rest, rfl, -, hnone⟩ := h
  have hc : c.toUpper = c := by
    refine toUpper_of_not_isNameStart ?_
    by_contra hstart
    rw [Bool.not_eq_false] at hstart
    exact hnone [c] (List.cons_prefix_cons.mpr ⟨rfl, List.nil_prefix⟩)
      ⟨_, _, .name hstart (by simp)⟩
  rcases rest with _ | ⟨d, rest⟩
  · simp [firstHeld, hc]
  · simp only [firstHeld]
    split
    · next hmarked =>
      have hd : d.toUpper = d := by
        refine toUpper_of_not_isNameStart ?_
        rw [← Bool.not_eq_true, isNameStart_iff]
        have hmark := toNat_holdMark
        unfold marked? at hmarked
        split_ifs at hmarked with hfirst hsecond hsurrogate
        · subst hsecond
          omega
        · simp only [isSurrogate, Bool.and_eq_true, decide_eq_true_eq] at hsurrogate
          omega
        all_goals cases hmarked
      simp [hc, hd, List.cons_prefix_cons]
    · simp [hc, List.cons_prefix_cons]

lemma isWritten_of_scan_eq_error {text : String} {error : FormulaError}
    (h : scan text = .error error) : ∃ token position, error = .unexpectedCharacter token position ∧
      position ≤ text.length ∧ IsWritten text token position := by
  obtain ⟨tokens, rest, hscans, rfl | hstuck⟩ := exists_scans 0 text.toList
  · cases h.symm.trans (scan_eq_ok_of_scans hscans)
  · cases h.symm.trans (scan_eq_error_of_scans hscans hstuck)
    obtain ⟨-, hrest, -⟩ := covers_of_scans hscans (List.drop_zero ..) (Nat.zero_add _)
    obtain ⟨hne, hfront, hupper⟩ := toUpper_firstHeld hstuck
    refine ⟨_, _, rfl, by rw [String.length_toList]; omega, ?_, ?_⟩
    · rwa [ne_eq, String.ofList_eq_empty_iff]
    · rw [String.toList_ofList, String.length_ofList, hrest, ← List.prefix_iff_eq_take.mp hfront,
        hupper]

lemma scans_of_blank (position : Nat) {cs : List Char} (h : ∀ c ∈ cs, isBlank c = true) :
    Scans position cs [] [] := by
  induction cs generalizing position with
  | nil => exact .done _ _
  | cons c rest ih =>
    exact .blank (h c (List.mem_cons_self ..)) (ih _ fun d hd => h d (List.mem_cons_of_mem _ hd))

end Token

namespace Expr

lemma names_of_ofTokens {tokens : List Token} {length : Nat} {error : FormulaError}
    (h : ofTokens tokens length = .error error) : error.Names tokens length := by
  obtain ⟨stop, hstop, rfl⟩ := exists_stop h
  have hnames := Reader.naming_formula 0 _ stop hstop
  by_cases hempty : tokens = []
  · subst hempty
    cases hstop
    exact rfl
  · obtain ⟨xs, hreads, -⟩ := Grammar.halted_formula hempty hstop
    rw [hreads.tokens_eq, hreads.finish_eq] at hnames
    exact hnames

lemma parse_eq_emptyFormula_iff {text : String} :
    parse text = .error .emptyFormula ↔ ∀ c ∈ text.toList, isBlank c = true := by
  constructor
  · intro h c hc
    simp only [parse, bind_eq_error_iff] at h
    obtain h | ⟨tokens, hscan, h | ⟨tree, -, h | ⟨-, -, h⟩⟩⟩ := h
    · obtain ⟨_, _, ⟨⟩, -⟩ := Token.isWritten_of_scan_eq_error h
    · obtain rfl : tokens = [] := names_of_ofTokens h
      obtain ⟨i, hi, rfl⟩ := List.getElem_of_mem hc
      have hcovers := Token.covers_of_scan hscan
      obtain hblank | ⟨token, htoken, -⟩ := hcovers.blank i _ (Nat.zero_le _)
        (String.length_toList ▸ hi) (List.getElem?_eq_getElem hi)
      · exact hblank
      · cases htoken
    · unfold checkDepth at h
      split at h <;> cases h
    · cases h
  · intro h
    have hscan := Token.scan_eq_ok_of_scans (Token.scans_of_blank 0 h)
    rw [parse, hscan]
    rfl

end Expr

end MarketFormula
