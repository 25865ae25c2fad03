import MarketFormula.Proofs.Formula.Completeness
import MarketFormula.Proofs.Formula.Tree
import MarketFormula.Proofs.Result

/-!
# Formulas are the texts of the grammar

A text is a formula if its tokens have a derivation that opens no more than `maxNesting` levels at
once and whose tree has no more than `maxTreeDepth` levels. All other texts are malformed.
-/
namespace MarketFormula

open Grammar

lemma Cursor.exists_reads {xs ys : List Token} {c : Cursor} (h : c.rest = xs ++ ys) :
    ∃ c', c.Reads xs c' ∧ c'.rest = ys := by
  induction xs generalizing c with
  | nil => exact ⟨c, .nil c, h⟩
  | cons x xs ih =>
    rcases c with ⟨seen, rest, finish⟩
    subst h
    obtain ⟨c', hreads, hrest⟩ := @ih ⟨x :: seen, xs ++ ys, finish⟩ rfl
    exact ⟨c', .cons rfl hreads, hrest⟩

lemma Token.kind_of_scanFrom {position skip : Nat} {cs : List Char} {e : FormulaError}
    (h : scanFrom position skip cs = .error e) : e.kind = .malformed := by
  induction cs generalizing position skip with
  | nil => cases h
  | cons c rest ih =>
    cases skip with
    | succ skip =>
      rw [scanFrom] at h
      exact ih h
    | zero =>
      rw [scanFrom] at h
      split at h
      · exact ih h
      · split at h
        · obtain h | ⟨tokens, -, h⟩ := bind_eq_error_iff.mp h
          · exact ih h
          · cases h
        · cases h
          rfl

namespace Expr

theorem ofTokens_eq_ok_iff {tokens : List Token} {length : Nat} {e : Expr} :
    ofTokens tokens length = .ok e ↔
      ∃ d : Derivation .formula, d.tokens = tokens ∧ d.nesting ≤ maxNesting ∧ d.tree = e := by
  have hsound := sound_formula (.start tokens length)
  constructor
  · intro h
    unfold ofTokens at h
    cases hresult : Reader.formula 0 (.start tokens length) with
    | error stop => rw [hresult] at h; cases h
    | ok result =>
      rw [hresult] at h hsound
      obtain ⟨⟨d, htree, hreads, hnesting⟩, hrest⟩ := hsound
      have htokens := hreads.rest_eq
      rw [hrest, List.append_nil] at htokens
      cases h
      exact ⟨d, htokens.symm, hnesting, htree⟩
  · rintro ⟨d, rfl, hnesting, rfl⟩
    obtain ⟨c', hreads, hrest⟩ :=
      @Cursor.exists_reads d.tokens [] (.start d.tokens length) (List.append_nil _).symm
    have hend : (Level.chain .or).EndsAt c'.rest := by
      rw [hrest]
      exact .nil
    have hread : (Readers.atDepth 0).orExpr (.start d.tokens length) = .ok (d.tree, c') :=
      complete d maxNesting 0 _ c' hnesting hreads hend
    have htokens : (Cursor.start d.tokens length).tokens.isEmpty = false := by
      obtain ⟨token, tail, htokens, -⟩ := d.exists_cons
      simp [Cursor.start, Cursor.tokens, htokens]
    simp only [ofTokens, Reader.formula, htokens, Bool.false_eq_true, if_false, hread, bind,
      Except.bind, hrest]

lemma kind_of_ofTokens {tokens : List Token} {length : Nat} {e : FormulaError}
    (h : ofTokens tokens length = .error e) : e.kind = .malformed := by
  have hsound := sound_formula (.start tokens length)
  unfold ofTokens at h
  cases hresult : Reader.formula 0 (.start tokens length) with
  | ok result => rw [hresult] at h; cases h
  | error stop =>
    rw [hresult] at h hsound
    cases h
    exact hsound

lemma kind_of_parse {text : String} {e : FormulaError} (h : parse text = .error e) :
    e.kind = .malformed := by
  simp only [parse, bind_eq_error_iff] at h
  obtain h | ⟨tokens, -, h | ⟨tree, -, h | ⟨-, -, h⟩⟩⟩ := h
  · exact Token.kind_of_scanFrom h
  · exact kind_of_ofTokens h
  · exact kind_of_checkDepth h
  · cases h

end Expr

end MarketFormula
