import MarketFormula.Proofs.Formula.Acceptance
import MarketFormula.Proofs.Formula.Lockstep

/-!
# Faults are at the first token that no formula can have there

The tokens before the one at fault are the first ones of some formula, and together with it they are
those of none. A fault at the end of a formula says that the formula is the beginning of another
one.
-/
namespace MarketFormula

def IsFormula (tokens : List Token) : Prop :=
  ∃ length e, Expr.ofTokens tokens length = .ok e

/-- Tokens that some formula starts with. -/
def Viable (tokens : List Token) : Prop :=
  ∃ formula, tokens <+: formula ∧ IsFormula formula

namespace Expr

open Grammar

lemma isFormula_of_derivation (d : Derivation .formula) (h : d.nesting ≤ maxNesting) :
    IsFormula d.tokens :=
  ⟨0, d.tree, ofTokens_eq_ok_iff.mpr ⟨d, rfl, h, rfl⟩⟩

lemma exists_stop {tokens : List Token} {length : Nat} {error : FormulaError}
    (h : ofTokens tokens length = .error error) :
    ∃ stop, Reader.formula 0 (.start tokens length) = .error stop ∧ stop.error = error := by
  unfold ofTokens at h
  split at h
  · cases h
  · next stop hstop =>
    cases h
    exact ⟨stop, hstop, rfl⟩

lemma exists_read {tokens : List Token} (h : IsFormula tokens) (length : Nat) :
    ∃ e c, Reader.formula 0 (.start tokens length) = .ok (e, c) := by
  obtain ⟨length', e, h⟩ := h
  have h : ofTokens tokens length = .ok e := ofTokens_eq_ok_iff.mpr (ofTokens_eq_ok_iff.mp h)
  unfold ofTokens at h
  split at h
  · next e c hread => exact ⟨e, c, hread⟩
  · cases h

/-- The same tokens, up to where the first list has `loose` tokens left. -/
def samePairing (loose length length' : Nat) : Pairing where
  partner token token' := token = token'
  loose := loose
  finish := length
  finish' := length'
  respells h := by
    subst h
    exact ⟨rfl, fun _ => rfl⟩

lemma alike_append {loose length length' : Nat} (xs : List Token) {rest rest' : List Token}
    (h : (samePairing loose length length').Alike rest rest') :
    (samePairing loose length length').Alike (xs ++ rest) (xs ++ rest') := by
  induction xs with
  | nil => exact h
  | cons x xs ih => exact .cons rfl ih

lemma not_viable_of_stop {xs rest : List Token} {token : Token} {length : Nat} {stop : Stop}
    (h : Reader.formula 0 (.start (xs ++ token :: rest) length) = .error stop)
    (hrest : stop.cursor.rest = token :: rest) : ¬ Viable (xs ++ [token]) := by
  rintro ⟨formula, ⟨zs, rfl⟩, hformula⟩
  obtain ⟨e, c, hread⟩ := exists_read hformula length
  let p := samePairing (rest.length + 1) length length
  have halike : p.Alike (xs ++ token :: rest) (xs ++ [token] ++ zs) := by
    rw [List.append_assoc]
    exact alike_append xs (.cons rfl (.loose (Nat.lt_succ_self _)))
  have hlock : p.Lock (Twin p.Place) (Reader.formula 0 (.start (xs ++ token :: rest) length))
      (Reader.formula 0 (.start (xs ++ [token] ++ zs) length)) :=
    Pairing.lock_formula ⟨halike, rfl, rfl⟩ (by simp [Cursor.start, Cursor.tokens])
      (by simp [Cursor.start, Cursor.tokens])
  rw [h, hread] at hlock
  cases hlock with
  | loose hloose => simp [remaining, hrest, p, samePairing] at hloose

lemma viable_of_ofTokens {tokens : List Token} (hne : tokens ≠ []) {length : Nat}
    {error : FormulaError} (h : ofTokens tokens length = .error error)
    (hdepth : error.isTooDeep = false) :
    (∃ xs token rest, tokens = xs ++ token :: rest ∧ error.token? = some token.text ∧
      error.position? = some (token.position : Int) ∧ Viable xs ∧ ¬ Viable (xs ++ [token])) ∨
    (error.token? = some "" ∧ error.position? = some (length : Int) ∧ Viable tokens ∧
      ¬ IsFormula tokens) := by
  obtain ⟨stop, hstop, rfl⟩ := exists_stop h
  obtain ⟨xs, hreads, hhalted⟩ := halted_formula hne hstop
  obtain ⟨hat, d, hfront, hnesting⟩ := hhalted hdepth
  have htokens : tokens = xs ++ stop.cursor.rest := hreads.rest_eq
  have hviable : Viable xs := ⟨d.tokens, hfront, isFormula_of_derivation d hnesting⟩
  cases hrest : stop.cursor.rest with
  | cons token rest =>
    rw [hrest] at htokens
    subst htokens
    rw [Stop.IsAtCursor, hrest] at hat
    exact .inl ⟨xs, token, rest, rfl, hat.1, hat.2, hviable, not_viable_of_stop hstop hrest⟩
  | nil =>
    rw [hrest, List.append_nil] at htokens
    subst htokens
    rw [Stop.IsAtCursor, hrest] at hat
    have hfinish : stop.cursor.finish = length := hreads.finish_eq
    rw [hfinish] at hat
    refine .inr ⟨hat.1, hat.2, hviable, fun hformula => ?_⟩
    obtain ⟨e, c, hread⟩ := exists_read hformula length
    cases hstop.symm.trans hread

end Expr

namespace Token.Covers

variable {cs : List Char} {start limit : Nat} {tokens : List Token}

lemma text_ne_empty (h : Covers cs start limit tokens) {token : Token} (htoken : token ∈ tokens) :
    token.text ≠ "" := by
  intro hempty
  have hlexeme := (h.lexeme token htoken).2
  have hlength := hlexeme.length_text
  rw [hempty] at hlength
  exact hlexeme.ne_nil (List.length_eq_zero_iff.mp hlength.symm)

lemma position_lt (h : Covers cs start limit tokens) {token : Token} (htoken : token ∈ tokens) :
    token.position < limit := by
  have hlexeme := (h.lexeme token htoken).2
  have hpos : 0 < token.text.toList.length := by
    rw [hlexeme.length_text]
    exact List.length_pos_of_ne_nil hlexeme.ne_nil
  rw [String.length_toList] at hpos
  have hfinish := (h.inside token htoken).2
  unfold finish at hfinish
  omega

lemma index_eq (h : Covers cs start limit tokens) {i j : Nat} {token token' : Token}
    (hi : tokens[i]? = some token) (hj : tokens[j]? = some token')
    (heq : token.position = token'.position) : i = j := by
  obtain ⟨hilt, rfl⟩ := List.getElem?_eq_some_iff.mp hi
  obtain ⟨hjlt, rfl⟩ := List.getElem?_eq_some_iff.mp hj
  have hordered := List.pairwise_iff_getElem.mp h.ordered
  rcases Nat.lt_trichotomy i j with hlt | rfl | hlt
  · exact absurd heq (hordered i j hilt hjlt hlt).1.ne
  · rfl
  · exact absurd heq (hordered j i hjlt hilt hlt).1.ne'

end Token.Covers

namespace Expr

/-- A fault of the tokens of a text that is not due to the limit of nesting is either at a token or
at the end. The tokens before the one at fault are those that some formula starts with, and no
formula starts with these and the one at fault; if the fault is at the end, then the tokens are a
proper front part of a formula. -/
theorem ofTokens_error_viable {text : String} {tokens : List Token} {error : FormulaError}
    (hscan : Token.scan text = .ok tokens) (hne : tokens ≠ [])
    (herror : ofTokens tokens text.length = .error error) (hdepth : error.isTooDeep = false) :
    (∀ k token, tokens[k]? = some token → error.position? = some (token.position : Int) →
      Viable (tokens.take k) ∧ ¬ Viable (tokens.take (k + 1))) ∧
    (error.token? = some "" → error.position? = some (text.length : Int) ∧
      ∃ formula, IsFormula formula ∧ tokens <+: formula ∧ tokens ≠ formula) ∧
    (error.token? = some "" ∨
      ∃ token ∈ tokens, error.token? = some token.text ∧
        error.position? = some (token.position : Int)) := by
  have hcovers := Token.covers_of_scan hscan
  obtain ⟨xs, token, rest, rfl, htoken, hposition, hviable, hnot⟩ |
      ⟨htoken, hposition, hviable, hnot⟩ :=
    viable_of_ofTokens hne herror hdepth
  · have hmem : token ∈ xs ++ token :: rest := by simp
    refine ⟨fun k token' hk hk' => ?_, fun hempty => ?_, .inr ⟨token, hmem, htoken, hposition⟩⟩
    · have hplace : token'.position = token.position := by
        have heq := Option.some.inj (hposition.symm.trans hk')
        omega
      obtain rfl : k = xs.length := hcovers.index_eq hk (by simp) hplace
      rw [List.take_left, List.take_append, List.take_of_length_le (Nat.le_succ _)]
      simpa using ⟨hviable, hnot⟩
    · rw [htoken] at hempty
      exact absurd (Option.some.inj hempty) (hcovers.text_ne_empty hmem)
  · obtain ⟨formula, hfront, hformula⟩ := hviable
    refine ⟨fun k token hk hk' => ?_, fun _ => ⟨hposition, formula, hformula, hfront, ?_⟩,
      .inl htoken⟩
    · have hlt := hcovers.position_lt (List.mem_of_getElem? hk)
      rw [hposition] at hk'
      have heq := Option.some.inj hk'
      omega
    · rintro rfl
      exact hnot hformula

theorem ofTokens_error_viable_chained :
    ∃ tokens error, Token.scan "C>1>2" = .ok tokens ∧ tokens ≠ [] ∧
      ofTokens tokens "C>1>2".length = .error error ∧ error.isTooDeep = false ∧
      Viable (tokens.take 3) ∧ ¬ Viable (tokens.take 4) := by
  have hscan : Token.scan "C>1>2" = .ok [⟨.name, "C", 0⟩, ⟨.gt, ">", 1⟩, ⟨.number, "1", 2⟩,
      ⟨.gt, ">", 3⟩, ⟨.number, "2", 4⟩] := by
    decide +kernel
  have herror : ofTokens [⟨.name, "C", 0⟩, ⟨.gt, ">", 1⟩, ⟨.number, "1", 2⟩, ⟨.gt, ">", 3⟩,
      ⟨.number, "2", 4⟩] "C>1>2".length = .error (.chainedComparison ⟨.gt, ">", 3⟩) := rfl
  have hviable := ofTokens_error_viable hscan (List.cons_ne_nil _ _) herror rfl
  exact ⟨_, _, hscan, List.cons_ne_nil _ _, herror, rfl, hviable.1 3 ⟨.gt, ">", 3⟩ rfl rfl⟩

end Expr

end MarketFormula
