import MarketFormula.Proofs.Formula.Halting

/-!
# Readers with other levels open

How many nesting levels are open already makes no difference to a reader until it opens one too
many.
-/
namespace MarketFormula

/-- Reading stopped where a level was opened that is one too many. -/
def Stop.IsTooDeep (stop : Stop) : Prop :=
  stop.error.isTooDeep = true ∧ stop.depth = maxNesting + 1

lemma FormulaError.detail_of_isTooDeep {e : FormulaError} (h : e.isTooDeep = true) :
    e.detail = "Formula nested too deeply" := by
  cases e with
  | nestedTooDeeply => rfl
  | _ => cases h

/-- Results of reading with `depth` and with `depth'` levels open. -/
inductive Shifted (depth depth' : Nat) {α : Type} : Except Stop α → Except Stop α → Prop
  | ok (a : α) : Shifted depth depth' (.ok a) (.ok a)
  | error (e : FormulaError) (c : Cursor) (levels : Nat) (h : depth + levels ≤ maxNesting + 1)
    (h' : depth' + levels ≤ maxNesting + 1) :
    Shifted depth depth' (.error ⟨e, c, depth + levels⟩) (.error ⟨e, c, depth' + levels⟩)
  | tooDeep {stop : Stop} (h : stop.IsTooDeep) (x : Except Stop α) :
    Shifted depth depth' (.error stop) x
  | tooDeep' {stop : Stop} (h : stop.IsTooDeep) (x : Except Stop α) :
    Shifted depth depth' x (.error stop)

namespace Shifted

variable {α β : Type} {depth depth' : Nat} {x x' : Except Stop α}

lemma bind {f f' : α → Except Stop β} (h : Shifted depth depth' x x')
    (hf : ∀ a, Shifted depth depth' (f a) (f' a)) : Shifted depth depth' (x >>= f) (x' >>= f') := by
  cases h with
  | ok a => exact hf a
  | error e c levels h h' => exact .error e c levels h h'
  | tooDeep h => exact .tooDeep h _
  | tooDeep' h => exact .tooDeep' h _

lemma outward (h : Shifted (depth + 1) (depth' + 1) x x') : Shifted depth depth' x x' := by
  cases h with
  | ok a => exact .ok a
  | error e c levels h h' =>
    rw [Nat.add_assoc] at h h' ⊢
    rw [Nat.add_assoc]
    exact .error e c (1 + levels) h h'
  | tooDeep h => exact .tooDeep h _
  | tooDeep' h => exact .tooDeep' h _

lemma of_ok {a : α} (h : Shifted depth depth' (.ok a) x') :
    x' = .ok a ∨ ∃ stop, x' = .error stop ∧ stop.IsTooDeep := by
  cases h with
  | ok => exact .inl rfl
  | tooDeep' h => exact .inr ⟨_, rfl, h⟩

lemma bounds_of_error {stop : Stop} (hle : depth ≤ maxNesting)
    (h : Shifted depth depth (.error stop : Except Stop α) (.error stop)) :
    depth ≤ stop.depth ∧ stop.depth ≤ maxNesting + 1 := by
  have hfull (htooDeep : stop.IsTooDeep) :
      depth ≤ stop.depth ∧ stop.depth ≤ maxNesting + 1 := by
    rw [htooDeep.2]
    exact ⟨Nat.le_succ_of_le hle, le_rfl⟩
  cases h with
  | error e c levels h => exact ⟨Nat.le_add_right .., h⟩
  | tooDeep h => exact hfull h
  | tooDeep' h => exact hfull h

end Shifted

namespace Reader

section Combinators

variable {depth depth' : Nat} {reader reader' : Reader}

lemma shifted_chain (hreader : ∀ c, Shifted depth depth' (reader c) (reader' c))
    (op? : TokenKind → Option BinaryOp) (rounds : Nat) (left : Expr) (c : Cursor) :
    Shifted depth depth' (chain op? reader rounds left c) (chain op? reader' rounds left c) := by
  induction rounds generalizing left c with
  | zero => exact .ok _
  | succ rounds ih =>
    rw [chain, chain]
    split
    · split
      · exact (hreader _).bind fun _ => ih _ _
      · exact .ok _
    · exact .ok _

lemma shifted_leftAssociative (hreader : ∀ c, Shifted depth depth' (reader c) (reader' c))
    (op? : TokenKind → Option BinaryOp) (c : Cursor) :
    Shifted depth depth' (leftAssociative op? reader c) (leftAssociative op? reader' c) :=
  (hreader c).bind fun _ => shifted_chain hreader ..

lemma shifted_moreArguments (hreader : ∀ c, Shifted depth depth' (reader c) (reader' c))
    (rounds : Nat) (c : Cursor) :
    Shifted depth depth' (moreArguments reader rounds c) (moreArguments reader' rounds c) := by
  induction rounds generalizing c with
  | zero => exact .ok _
  | succ rounds ih =>
    rw [moreArguments, moreArguments]
    split
    · split
      · exact (hreader _).bind fun _ => (ih _).bind fun _ => .ok _
      · exact .ok _
    · exact .ok _

lemma shifted_arguments (hreader : ∀ c, Shifted depth depth' (reader c) (reader' c)) (c : Cursor) :
    Shifted depth depth' (arguments reader c) (arguments reader' c) := by
  unfold arguments
  split
  · exact .ok _
  · split
    · exact .ok _
    · exact (hreader c).bind fun _ => (shifted_moreArguments hreader ..).bind fun _ => .ok _

lemma shifted_close (h : depth ≤ maxNesting) (h' : depth' ≤ maxNesting) (description : String)
    (c : Cursor) :
    Shifted depth depth' (close depth description c) (close depth' description c) := by
  unfold close
  split
  · exact .ok _
  · exact .error _ c 1 (Nat.succ_le_succ h) (Nat.succ_le_succ h')

end Combinators

/-- What lies beneath two readers: no level may be opened only where all levels are open, and the
readers of the next level read alike. -/
structure Beneath (depth depth' : Nat) (deeper deeper' : Option Readers) : Prop where
  le : depth ≤ maxNesting
  le' : depth' ≤ maxNesting
  full : deeper = none → depth = maxNesting
  full' : deeper' = none → depth' = maxNesting
  alike : ∀ readers readers', deeper = some readers → deeper' = some readers' →
    ∀ level c, Shifted (depth + 1) (depth' + 1) (readers.get level c) (readers'.get level c)

section Level

variable {depth depth' : Nat} {deeper deeper' : Option Readers}
  (hbeneath : Beneath depth depth' deeper deeper')

include hbeneath

lemma shifted_deepen {α : Type} {f f' : Readers → Except Stop α}
    (hf : ∀ readers readers',
      (∀ level c, Shifted depth depth' (readers.get level c) (readers'.get level c)) →
        Shifted depth depth' (f readers) (f' readers')) (opener : Token) (c : Cursor) :
    Shifted depth depth' (deepen depth deeper opener c >>= f)
      (deepen depth' deeper' opener c >>= f') := by
  cases hdeeper : deeper with
  | none => exact .tooDeep ⟨rfl, by rw [hbeneath.full hdeeper]⟩ _
  | some readers =>
    cases hdeeper' : deeper' with
    | none => exact .tooDeep' ⟨rfl, by rw [hbeneath.full' hdeeper']⟩ _
    | some readers' =>
      exact hf readers readers' fun level c =>
        (hbeneath.alike readers readers' hdeeper hdeeper' level c).outward

lemma shifted_call (name : Token) (c : Cursor) :
    Shifted depth depth' (call depth deeper name c) (call depth' deeper' name c) := by
  refine shifted_deepen hbeneath (fun inner inner' hinner => ?_) name c
  refine (shifted_arguments (hinner (.chain .or)) c).bind fun _ => ?_
  exact (shifted_close hbeneath.le hbeneath.le' ..).bind fun _ => .ok _

lemma shifted_primary (c : Cursor) :
    Shifted depth depth' (primary depth deeper c) (primary depth' deeper' c) := by
  have hle := Nat.le_succ_of_le hbeneath.le
  have hle' := Nat.le_succ_of_le hbeneath.le'
  unfold primary
  split
  · exact .error _ c 0 hle hle'
  · next token m _ =>
    split
    · exact .ok _
    · split
      · split
        · exact shifted_call hbeneath token _
        · exact .ok _
      · exact .ok _
    · refine shifted_deepen hbeneath (fun inner inner' hinner => ?_) token m
      refine (hinner (.chain .or) m).bind fun _ => ?_
      exact (shifted_close hbeneath.le hbeneath.le' ..).bind fun _ => .ok _
    · exact .error _ c 0 hle hle'

lemma shifted_operator (level : Grammar.Level) (operator : Token) (node : Expr → Expr) (c : Cursor) :
    Shifted depth depth'
      (do
        let inner ← deepen depth deeper operator c
        let (e, m) ← inner.get level c
        return (node e, m))
      (do
        let inner ← deepen depth' deeper' operator c
        let (e, m) ← inner.get level c
        return (node e, m)) := by
  refine shifted_deepen hbeneath (fun inner inner' hinner => ?_) operator c
  exact (hinner level c).bind fun _ => .ok _

lemma shifted_unary (c : Cursor) :
    Shifted depth depth' (unary depth deeper c) (unary depth' deeper' c) := by
  unfold unary
  split
  · next token m _ =>
    split
    · exact shifted_operator hbeneath .unary token (.unary .neg · token.position) m
    · exact shifted_primary hbeneath c
  · exact shifted_primary hbeneath c

lemma shifted_additive (c : Cursor) :
    Shifted depth depth' (additive depth deeper c) (additive depth' deeper' c) :=
  shifted_leftAssociative (shifted_leftAssociative (shifted_unary hbeneath) _) _ c

lemma shifted_comparison (c : Cursor) :
    Shifted depth depth' (comparison depth deeper c) (comparison depth' deeper' c) := by
  have hadditive := shifted_additive hbeneath
  refine (hadditive c).bind ?_
  rintro ⟨left, m⟩
  dsimp only
  split
  · split
    · refine (hadditive _).bind ?_
      rintro ⟨right, m'⟩
      dsimp only
      split
      · split
        · exact .error _ m' 0 (Nat.le_succ_of_le hbeneath.le) (Nat.le_succ_of_le hbeneath.le')
        · exact .ok _
      · exact .ok _
    · exact .ok _
  · exact .ok _

lemma shifted_notExpr (c : Cursor) :
    Shifted depth depth' (notExpr depth deeper c) (notExpr depth' deeper' c) := by
  unfold notExpr
  split
  · next token m _ =>
    split
    · exact shifted_operator hbeneath .not token (.unary .not · token.position) m
    · exact shifted_comparison hbeneath c
  · exact shifted_comparison hbeneath c

lemma shifted_over (level : Grammar.Level) (c : Cursor) :
    Shifted depth depth' ((Readers.over depth deeper).get level c)
      ((Readers.over depth' deeper').get level c) := by
  -- from the tightest level to the loosest
  have hnot := shifted_notExpr hbeneath
  cases level with
  | chain chain =>
    cases chain with
    | or => exact shifted_leftAssociative (shifted_leftAssociative hnot _) _ c
    | and => exact shifted_leftAssociative hnot _ c
    | additive => exact shifted_additive hbeneath c
    | term => exact shifted_leftAssociative (shifted_unary hbeneath) _ c
  | not => exact hnot c
  | comparison => exact shifted_comparison hbeneath c
  | unary => exact shifted_unary hbeneath c
  | primary => exact shifted_primary hbeneath c

end Level

/-- The readers that those at a depth are built from. -/
def within? : (budget depth : Nat) → Option Readers
  | 0, _ => none
  | less + 1, depth => some (.within less (depth + 1))

lemma within_eq_over (budget depth : Nat) :
    Readers.within budget depth = .over depth (within? budget depth) := by
  cases budget <;> rfl

lemma within?_eq_none {budget depth : Nat} (h : within? budget depth = none) : budget = 0 := by
  cases budget with
  | zero => rfl
  | succ less => cases h

lemma shifted_within {budget budget' depth depth' : Nat} (h : depth + budget = maxNesting)
    (h' : depth' + budget' = maxNesting) (level : Grammar.Level) (c : Cursor) :
    Shifted depth depth' ((Readers.within budget depth).get level c)
      ((Readers.within budget' depth').get level c) := by
  -- by induction over the levels that may still be opened
  rw [within_eq_over, within_eq_over]
  induction budget generalizing budget' depth depth' level c with
  | zero =>
    refine shifted_over ⟨by omega, by omega, fun _ => h, fun hnone => ?_, ?_⟩ level c
    · rw [← h', within?_eq_none hnone, Nat.add_zero]
    · rintro readers readers' ⟨⟩
  | succ budget ih =>
    refine shifted_over ⟨by omega, by omega, ?_, fun hnone => ?_, ?_⟩ level c
    · rintro ⟨⟩
    · rw [← h', within?_eq_none hnone, Nat.add_zero]
    · rintro readers readers' ⟨⟩ hreaders'
      cases budget' with
      | zero => cases hreaders'
      | succ budget' =>
        cases hreaders'
        simp only [within_eq_over]
        exact ih (by omega) (by omega)

theorem shifted_atDepth {depth depth' : Nat} (h : depth ≤ maxNesting) (h' : depth' ≤ maxNesting)
    (level : Grammar.Level) (c : Cursor) :
    Shifted depth depth' ((Readers.atDepth depth).get level c)
      ((Readers.atDepth depth').get level c) :=
  shifted_within (Nat.add_sub_cancel' h) (Nat.add_sub_cancel' h') level c

end Reader

end MarketFormula
