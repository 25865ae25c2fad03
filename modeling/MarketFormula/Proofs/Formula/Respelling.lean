import MarketFormula.Proofs.Decimal.Number
import MarketFormula.Proofs.Formula.Acceptance
import MarketFormula.Proofs.Formula.Lockstep

/-!
# Spelling does not matter

A text that writes the tokens of a formula in another way has the same tree up to places, or a fault
at the same token.
-/
namespace MarketFormula

lemma forall₂_of_mem {α β : Type} {R S : α → β → Prop} {xs : List α} {ys : List β}
    (h : List.Forall₂ R xs ys) (himp : ∀ x ∈ xs, ∀ y, R x y → S x y) : List.Forall₂ S xs ys := by
  induction h with
  | nil => exact .nil
  | cons hxy _ ih =>
    exact .cons (himp _ (List.mem_cons_self ..) _ hxy)
      (ih fun x hx => himp x (List.mem_cons_of_mem _ hx))

namespace Expr

lemma sameAll_of_forall₂ {es es' : List Expr}
    (h : List.Forall₂ (fun e e' => e.same e' = true) es es') : sameAll es es' = true := by
  induction h with
  | nil => rfl
  | cons hsame _ ih =>
    rw [sameAll, hsame, ih]
    rfl

namespace Twin

variable {place : Int → Int → Prop} {e e' : Expr}

lemma same (h : Twin place e e') : e.same e' = true := by
  induction e generalizing e' with
  | binary op left right position ihl ihr =>
    cases h with
    | binary op hleft hright => simp [Expr.same, ihl hleft, ihr hright]
  | unary op operand position ih =>
    cases h with
    | unary op hoperand => simp [Expr.same, ih hoperand]
  | literal value position =>
    cases h with
    | literal token => exact Decimal.ofPlain_beq_self _
  | field name position =>
    cases h with
    | field => simp [Expr.same]
  | call name args position ih =>
    cases h with
    | call name hargs =>
      have hsame := forall₂_of_mem hargs fun arg hmem arg' => ih arg hmem
      simp [Expr.same, sameAll_of_forall₂ hsame]
  | bare => cases h

lemma position (h : Twin place e e') : place e.position e'.position := by
  cases h <;> assumption

lemma children (h : Twin place e e') : List.Forall₂ (Twin place) e.children e'.children := by
  cases h with
  | binary op hleft hright => exact .cons hleft (.cons hright .nil)
  | unary op hoperand => exact .cons hoperand .nil
  | literal token => exact .nil
  | field name => exact .nil
  | call name hargs => exact hargs

lemma size (h : Twin place e e') : e.size = e'.size := by
  induction e generalizing e' with
  | binary op left right position ihl ihr =>
    cases h with
    | binary op hleft hright => rw [Expr.size, Expr.size, ihl hleft, ihr hright]
  | unary op operand position ih =>
    cases h with
    | unary op hoperand => rw [Expr.size, Expr.size, ih hoperand]
  | literal value position => cases h; rfl
  | field name position => cases h; rfl
  | call name args position ih =>
    cases h with
    | @call _ args' _ _ name hargs =>
      have hsizes : List.Forall₂ (fun arg arg' => arg.size = arg'.size) args args' :=
        forall₂_of_mem hargs fun arg hmem arg' => ih arg hmem
      have hmap : args.map Expr.size = args'.map Expr.size := by
        rwa [← List.forall₂_eq_eq_eq, List.forall₂_map_left_iff, List.forall₂_map_right_iff]
      rw [Expr.size, Expr.size, sizeAll_eq_sum, sizeAll_eq_sum, hmap]
  | bare => cases h

lemma firstBelow? (limit : Int) (rounds : Nat) {stack stack' : List (Expr × Int)}
    (h : List.Forall₂ (fun entry entry' => Twin place entry.1 entry'.1 ∧ entry.2 = entry'.2)
      stack stack') :
    Option.Rel (Twin place) (Expr.firstBelow? limit rounds stack)
      (Expr.firstBelow? limit rounds stack') := by
  induction rounds generalizing stack stack' with
  | zero => exact .none
  | succ rounds ih =>
    cases h with
    | nil => exact .none
    | @cons entry entry' stack stack' hentry hstack =>
      obtain ⟨e, depth⟩ := entry
      obtain ⟨e', depth'⟩ := entry'
      obtain ⟨htwin, rfl⟩ := hentry
      rw [Expr.firstBelow?, Expr.firstBelow?]
      split
      · exact .some htwin
      · refine ih (List.rel_append (List.rel_reverse ?_) hstack)
        rw [List.forall₂_map_left_iff, List.forall₂_map_right_iff]
        exact htwin.children.imp fun _ _ hchild => ⟨hchild, rfl⟩

lemma checkDepth (limit : Int) (h : Twin place e e') :
    (Expr.checkDepth limit e = .ok () ∧ Expr.checkDepth limit e' = .ok ()) ∨
      ∃ error error' position position', Expr.checkDepth limit e = .error error ∧
        Expr.checkDepth limit e' = .error error' ∧ error.position? = some position ∧
        error'.position? = some position' ∧ place position position' := by
  have hroot : List.Forall₂ (fun entry entry' => Twin place entry.1 entry'.1 ∧ entry.2 = entry'.2)
      [(e, 1)] [(e', (1 : Int))] := .cons ⟨h, rfl⟩ .nil
  have hwalk := firstBelow? limit e.size hroot
  unfold Expr.checkDepth
  rw [← h.size]
  generalize Expr.firstBelow? limit e.size [(e, 1)] = node at hwalk ⊢
  generalize Expr.firstBelow? limit e.size [(e', 1)] = node' at hwalk ⊢
  cases hwalk with
  | none => exact .inl ⟨rfl, rfl⟩
  | some hnode => exact .inr ⟨_, _, _, _, rfl, rfl, rfl, rfl, hnode.position⟩

end Twin

def spellings (tokens tokens' : List Token) (length length' : Nat)
    (h : List.Forall₂ Token.Respells tokens tokens') : Pairing where
  partner token token' := ∃ k : Nat, tokens[k]? = some token ∧ tokens'[k]? = some token'
  loose := 0
  finish := length
  finish' := length'
  respells hpartner := by
    obtain ⟨k, hk, hk'⟩ := hpartner
    obtain ⟨hlt, rfl⟩ := List.getElem?_eq_some_iff.mp hk
    obtain ⟨hlt', rfl⟩ := List.getElem?_eq_some_iff.mp hk'
    exact h.get hlt hlt'

lemma alike_of_forall₂ {p : Pairing} {tokens tokens' : List Token}
    (h : List.Forall₂ p.partner tokens tokens') : p.Alike tokens tokens' := by
  induction h with
  | nil => exact .nil
  | cons hpartner _ ih => exact .cons hpartner ih

lemma forall₂_spellings {tokens tokens' : List Token} {length length' : Nat}
    (h : List.Forall₂ Token.Respells tokens tokens') :
    List.Forall₂ (spellings tokens tokens' length length' h).partner tokens tokens' := by
  rw [List.forall₂_iff_get]
  refine ⟨h.length_eq, fun i hi hi' => ⟨i, ?_, ?_⟩⟩
  · exact List.getElem?_eq_getElem hi
  · exact List.getElem?_eq_getElem hi'

/-- Faults of two formulas at one token, at both ends or for the lack of tokens. -/
inductive SameFault (text text' : String) (tokens tokens' : List Token) (error error' : FormulaError) :
    Prop
  | empty (h : error = .emptyFormula) (h' : error' = .emptyFormula)
  | token {k : Nat} {token token' : Token} (hk : tokens[k]? = some token)
    (hk' : tokens'[k]? = some token') (h : error.position? = some (token.position : Int))
    (h' : error'.position? = some (token'.position : Int))
  | finish (h : error.token? = some "" ∧ error.position? = some (text.length : Int))
    (h' : error'.token? = some "" ∧ error'.position? = some (text'.length : Int))

section Outcome

variable {text text' : String} {tokens tokens' : List Token}
  (hspell : List.Forall₂ Token.Respells tokens tokens')

include hspell

lemma SameFault.of_place {error error' : FormulaError} {position position' : Int}
    (hplace : (spellings tokens tokens' text.length text'.length hspell).Place position position')
    (h : error.position? = some position) (h' : error'.position? = some position') :
    SameFault text text' tokens tokens' error error' := by
  obtain ⟨token, token', ⟨k, hk, hk'⟩, rfl, rfl⟩ := hplace
  exact .token hk hk' h h'

lemma SameFault.of_samePlace {error error' : FormulaError}
    (h : (spellings tokens tokens' text.length text'.length hspell).SamePlace error error') :
    SameFault text text' tokens tokens' error error' := by
  cases h with
  | token h h' hplace => exact .of_place hspell hplace h h'
  | finish h h' => exact .finish h h'

lemma ofTokens_respelled (length length' : Nat) :
    (∃ e e', ofTokens tokens length = .ok e ∧ ofTokens tokens' length' = .ok e' ∧
      e.Twin (spellings tokens tokens' length length' hspell).Place e') ∨
    ∃ error error', ofTokens tokens length = .error error ∧
      ofTokens tokens' length' = .error error' ∧
      ((error = .emptyFormula ∧ error' = .emptyFormula) ∨
        (spellings tokens tokens' length length' hspell).SamePlace error error') := by
  cases hspell with
  | nil => exact .inr ⟨_, _, rfl, rfl, .inl ⟨rfl, rfl⟩⟩
  | @cons token token' rest rest' htoken hrest =>
    have hspell := List.Forall₂.cons htoken hrest
    let p := spellings _ _ length length' hspell
    have hlock : p.Lock (Twin p.Place) (Reader.formula 0 (.start (token :: rest) length))
        (Reader.formula 0 (.start (token' :: rest') length')) :=
      Pairing.lock_formula ⟨alike_of_forall₂ (forall₂_spellings hspell), rfl, rfl⟩ rfl rfl
    unfold ofTokens
    generalize Reader.formula 0 (.start (token :: rest) length) = x at hlock ⊢
    generalize Reader.formula 0 (.start (token' :: rest') length') = x' at hlock ⊢
    cases hlock with
    | ok htwin => exact .inl ⟨_, _, rfl, rfl, htwin⟩
    | error hplace => exact .inr ⟨_, _, rfl, rfl, .inr hplace⟩
    | loose hloose => exact absurd hloose (Nat.not_lt_zero _)

lemma parse_of_respells (hscan : Token.scan text = .ok tokens)
    (hscan' : Token.scan text' = .ok tokens') :
    (∃ e e', parse text = .ok e ∧ parse text' = .ok e' ∧ e.same e' = true) ∨
      ∃ error error', parse text = .error error ∧ parse text' = .error error' ∧
        SameFault text text' tokens tokens' error error' := by
  simp only [parse, hscan, hscan', bind, Except.bind]
  obtain ⟨e, e', htree, htree', htwin⟩ | ⟨error, error', herror, herror', hfault⟩ :=
    ofTokens_respelled hspell text.length text'.length
  · rw [htree, htree']
    obtain ⟨hcheck, hcheck'⟩ | ⟨error, error', _, _, hcheck, hcheck', hposition, hposition', hplace⟩ :=
      htwin.checkDepth maxTreeDepth
    · simp only [hcheck, hcheck']
      exact .inl ⟨e, e', rfl, rfl, htwin.same⟩
    · simp only [hcheck, hcheck']
      exact .inr ⟨error, error', rfl, rfl, .of_place hspell hplace hposition hposition'⟩
  · rw [herror, herror']
    refine .inr ⟨error, error', rfl, rfl, ?_⟩
    obtain ⟨hempty, hempty'⟩ | hplace := hfault
    · exact .empty hempty hempty'
    · exact .of_samePlace hspell hplace

end Outcome

/-- A text that writes the tokens of another one, with names and keywords in any case, keywords as
words or signs and blanks between neighbours, is split into as many tokens and has the same tree, or
both have a fault of a malformed formula at one token, at their ends or for the lack of tokens. -/
theorem parse_respelled {text text' : String} {tokens : List Token}
    (hscan : Token.scan text = .ok tokens) (hwrites : Token.Writes tokens text'.toList) :
    ∃ tokens', Token.scan text' = .ok tokens' ∧ List.Forall₂ Token.Respells tokens tokens' ∧
      ((∃ e e', parse text = .ok e ∧ parse text' = .ok e' ∧ e.same e' = true) ∨
        ∃ error error', parse text = .error error ∧ parse text' = .error error' ∧
          error.kind = .malformed ∧ error'.kind = .malformed ∧
          SameFault text text' tokens tokens' error error') := by
  have hread : ∀ token ∈ tokens, token.IsRead := fun token htoken =>
    ⟨_, ((Token.covers_of_scan hscan).lexeme token htoken).2⟩
  obtain ⟨tokens', hscans, hspell⟩ := hwrites.exists_scans hread 0
  have hscan' := Token.scan_eq_ok_of_scans hscans
  refine ⟨tokens', hscan', hspell, ?_⟩
  obtain htree | ⟨error, error', herror, herror', hfault⟩ := parse_of_respells hspell hscan hscan'
  · exact .inl htree
  · exact .inr ⟨error, error', herror, herror', kind_of_parse herror, kind_of_parse herror', hfault⟩

theorem parse_respelled_and :
    ∃ tokens, Token.scan "C AND 1" = .ok tokens ∧ Token.Writes tokens " c && 1".toList ∧
      ∃ e e', parse "C AND 1" = .ok e ∧ parse " c && 1" = .ok e' ∧ e.same e' = true := by
  have hscan : Token.scan "C AND 1" =
      .ok [⟨.name, "C", 0⟩, ⟨.and, "AND", 2⟩, ⟨.number, "1", 6⟩] := by
    decide +kernel
  have hgap (cs : List Char) : Token.StartsBlank (' ' :: cs) := by simp [Token.StartsBlank]; rfl
  have hend : Token.StartsBlank [] := by simp [Token.StartsBlank]
  have hblanks : ∀ c ∈ [' '], Text.isBlank c = true := List.forall_mem_singleton.mpr rfl
  have hwrites : Token.Writes [⟨.name, "C", 0⟩, ⟨.and, "AND", 2⟩, ⟨.number, "1", 6⟩]
      " c && 1".toList := by
    have hname : Token.Spells ⟨.name, "C", 0⟩ ['c'] := .name rfl (by decide)
    have hsign : Token.Spells ⟨.and, "AND", 2⟩ ['&', '&'] := .sign rfl
    have hnumber : Token.Spells ⟨.number, "1", 6⟩ "1".toList := .exactly (by decide) rfl
    have htext : " c && 1".toList =
        [' '] ++ (['c'] ++ ([' '] ++ (['&', '&'] ++ ([' '] ++ ("1".toList ++ []))))) := by
      decide
    rw [htext]
    exact .cons hblanks hname (hgap _)
      (.cons hblanks hsign (hgap _) (.cons hblanks hnumber hend (.nil (by simp))))
  refine ⟨_, hscan, hwrites, ?_⟩
  obtain ⟨tokens', -, -, htree | ⟨error, error', herror, -⟩⟩ := parse_respelled hscan hwrites
  · exact htree
  · have hparse : (parse "C AND 1").toOption.isSome = true := by decide +kernel
    rw [herror] at hparse
    cases hparse

end Expr

end MarketFormula
