import MarketFormula.Proofs.Formula.Grammar

/-!
# Readers read derivations

Whatever a reader returns stands for a derivation of its level over the tokens that it took, with no
more nesting levels open than it was allowed. Every fault of a reader is one of a malformed formula.
-/
namespace MarketFormula

namespace Cursor

lemma rest_of_next? {c m : Cursor} {token : Token} (h : c.next? = some (token, m)) :
    c.rest = token :: m.rest := by
  rcases c with ⟨seen, rest, finish⟩
  cases rest with
  | nil => cases h
  | cons head tail => cases h; rfl

/-- A cursor that stands behind another one with these tokens between them. -/
def Reads : Cursor → List Token → Cursor → Prop
  | c, [], c' => c' = c
  | c, token :: tokens, c' => ∃ m, c.next? = some (token, m) ∧ Reads m tokens c'

lemma reads_append_iff {c c' : Cursor} {xs ys : List Token} :
    c.Reads (xs ++ ys) c' ↔ ∃ m, c.Reads xs m ∧ m.Reads ys c' := by
  induction xs generalizing c with
  | nil => simp [Reads]
  | cons x xs ih =>
    simp only [List.cons_append, Reads, ih]
    constructor
    · rintro ⟨m, hnext, m', hxs, hys⟩
      exact ⟨m', ⟨m, hnext, hxs⟩, hys⟩
    · rintro ⟨m', ⟨m, hnext, hxs⟩, hys⟩
      exact ⟨m, hnext, m', hxs, hys⟩

namespace Reads

variable {c m c' : Cursor} {token : Token} {xs ys : List Token}

lemma nil (c : Cursor) : c.Reads [] c := rfl

lemma cons (hnext : c.next? = some (token, m)) (h : m.Reads xs c') : c.Reads (token :: xs) c' :=
  ⟨m, hnext, h⟩

lemma append (hx : c.Reads xs m) (hy : m.Reads ys c') : c.Reads (xs ++ ys) c' :=
  reads_append_iff.mpr ⟨m, hx, hy⟩

lemma rest_eq (h : c.Reads xs c') : c.rest = xs ++ c'.rest := by
  induction xs generalizing c with
  | nil => rw [h, List.nil_append]
  | cons x xs ih =>
    obtain ⟨m, hnext, h⟩ := h
    rw [rest_of_next? hnext, ih h, List.cons_append]

lemma length_rest_le (h : c.Reads xs c') : c'.rest.length ≤ c.rest.length := by
  rw [h.rest_eq, List.length_append]
  exact Nat.le_add_left _ _

lemma finish_eq (h : c.Reads xs c') : c'.finish = c.finish := by
  induction xs generalizing c with
  | nil => rw [h]
  | cons x xs ih =>
    obtain ⟨m, hnext, h⟩ := h
    rw [ih h]
    rcases c with ⟨seen, _ | ⟨token, rest⟩, finish⟩
    · cases hnext
    · cases hnext; rfl

end Reads

end Cursor

/-- A reader's result: something with a property, or a fault of a malformed formula. -/
def Meets {α : Type} (P : α → Prop) : Except Stop α → Prop
  | .ok a => P a
  | .error stop => stop.error.kind = .malformed

namespace Meets

variable {α β : Type} {P : α → Prop} {Q : β → Prop} {x : Except Stop α}

lemma bind {f : α → Except Stop β} (h : Meets P x) (hf : ∀ a, P a → Meets Q (f a)) :
    Meets Q (x >>= f) := by
  cases x with
  | ok a => exact hf a h
  | error stop => exact h

lemma imp {P' : α → Prop} (h : Meets P x) (hP : ∀ a, P a → P' a) : Meets P' x := by
  cases x with
  | ok a => exact hP a h
  | error stop => exact h

end Meets

namespace Grammar

/-- What is read from a cursor on stands for a derivation within a budget of nesting levels. -/
def Derived (p : Nonterminal) (budget : Nat) (c : Cursor) (tree : p.Tree) (c' : Cursor) : Prop :=
  ∃ d : Derivation p, d.tree = tree ∧ c.Reads d.tokens c' ∧ d.nesting ≤ budget

def Sound (level : Level) (budget : Nat) (reader : Reader) : Prop :=
  ∀ c, Meets (fun result => Derived (.expr level) budget c result.1 result.2) (reader c)

section Combinators

variable {budget : Nat}

lemma sound_chain {chain : Chain} {operand : Reader} (hoperand : Sound chain.operand budget operand)
    (rounds : Nat) (left : Expr) (c : Cursor) :
    Meets (fun result => ∃ d : Derivation (.links chain),
      d.tree left = result.1 ∧ c.Reads d.tokens result.2 ∧ d.nesting ≤ budget)
      (Reader.chain chain.op? operand rounds left c) := by
  induction rounds generalizing left c with
  | zero => exact ⟨.noLink, rfl, .nil c, Nat.zero_le _⟩
  | succ rounds ih =>
    simp only [Reader.chain]
    cases hnext : c.next? with
    | none => exact ⟨.noLink, rfl, .nil c, Nat.zero_le _⟩
    | some step =>
      obtain ⟨token, m⟩ := step
      dsimp only
      cases hop : chain.op? token.kind with
      | none => exact ⟨.noLink, rfl, .nil c, Nat.zero_le _⟩
      | some op =>
        refine (hoperand m).bind ?_
        rintro ⟨right, m'⟩ ⟨d, rfl, hreads, hnesting⟩
        refine (ih _ m').imp ?_
        rintro ⟨e, c'⟩ ⟨rest, htree, hrest, hrestNesting⟩
        exact ⟨.link token op hop d rest, htree, .cons hnext (hreads.append hrest),
          Nat.max_le.mpr ⟨hnesting, hrestNesting⟩⟩

lemma sound_leftAssociative {chain : Chain} {operand : Reader}
    (hoperand : Sound chain.operand budget operand) :
    Sound (.chain chain) budget (Reader.leftAssociative chain.op? operand) := by
  intro c
  refine (hoperand c).bind ?_
  rintro ⟨first, m⟩ ⟨d, rfl, hreads, hnesting⟩
  refine (sound_chain hoperand _ _ m).imp ?_
  rintro ⟨e, c'⟩ ⟨rest, htree, hrest, hrestNesting⟩
  exact ⟨.chain d rest, htree, hreads.append hrest, Nat.max_le.mpr ⟨hnesting, hrestNesting⟩⟩

lemma sound_moreArguments {argument : Reader}
    (hargument : Sound (.chain .or) budget argument) (rounds : Nat) (c : Cursor) :
    Meets (fun result => Derived .moreArguments budget c result.1 result.2)
      (Reader.moreArguments argument rounds c) := by
  induction rounds generalizing c with
  | zero => exact ⟨.noMore, rfl, .nil c, Nat.zero_le _⟩
  | succ rounds ih =>
    simp only [Reader.moreArguments]
    cases hnext : c.next? with
    | none => exact ⟨.noMore, rfl, .nil c, Nat.zero_le _⟩
    | some step =>
      obtain ⟨token, m⟩ := step
      dsimp only
      split
      · next hcomma =>
        refine (hargument m).bind ?_
        rintro ⟨arg, m'⟩ ⟨d, rfl, hreads, hnesting⟩
        refine (ih m').bind ?_
        rintro ⟨args, c'⟩ ⟨rest, rfl, hrest, hrestNesting⟩
        exact ⟨.more token hcomma d rest, rfl, .cons hnext (hreads.append hrest),
          Nat.max_le.mpr ⟨hnesting, hrestNesting⟩⟩
      · exact ⟨.noMore, rfl, .nil c, Nat.zero_le _⟩

lemma sound_arguments {argument : Reader} (hargument : Sound (.chain .or) budget argument)
    (c : Cursor) :
    Meets (fun result => Derived .arguments budget c result.1 result.2)
      (Reader.arguments argument c) := by
  unfold Reader.arguments
  split
  · exact ⟨.noArguments, rfl, .nil c, Nat.zero_le _⟩
  · split
    · exact ⟨.noArguments, rfl, .nil c, Nat.zero_le _⟩
    · refine (hargument c).bind ?_
      rintro ⟨arg, m⟩ ⟨d, rfl, hreads, hnesting⟩
      refine (sound_moreArguments hargument _ m).bind ?_
      rintro ⟨args, c'⟩ ⟨rest, rfl, hrest, hrestNesting⟩
      exact ⟨.someArguments d rest, rfl, hreads.append hrest,
        Nat.max_le.mpr ⟨hnesting, hrestNesting⟩⟩

lemma meets_deepen (depth : Nat) (deeper : Option Readers) (opener : Token) (c : Cursor) :
    Meets (fun readers => deeper = some readers) (Reader.deepen depth deeper opener c) := by
  cases deeper <;> rfl

lemma meets_close (depth : Nat) (description : String) (c : Cursor) :
    Meets (fun c' => ∃ closer, c.next? = some (closer, c') ∧ closer.kind = .rightParen)
      (Reader.close depth description c) := by
  unfold Reader.close Cursor.expect
  cases hnext : c.next? with
  | none => rfl
  | some step =>
    obtain ⟨token, m⟩ := step
    dsimp only
    by_cases hkind : token.kind = .rightParen
    · simp only [hkind, beq_self_eq_true, if_true]
      exact ⟨token, rfl, hkind⟩
    · simp only [beq_iff_eq, hkind, if_false]
      rfl

end Combinators

end Grammar

def Readers.get (readers : Readers) : Grammar.Level → Reader
  | .chain .or => readers.orExpr
  | .chain .and => readers.andExpr
  | .not => readers.notExpr
  | .comparison => readers.comparison
  | .chain .additive => readers.additive
  | .chain .term => readers.term
  | .unary => readers.unary
  | .primary => readers.primary

namespace Grammar

section Level

variable {budget : Nat} (depth : Nat) {deeper : Option Readers}
  (hdeeper : ∀ readers, deeper = some readers →
    ∃ less, less + 1 ≤ budget ∧ ∀ level, Sound level less (readers.get level))

include hdeeper

lemma sound_call {name opener : Token} (hname : name.kind = .name)
    (hopener : opener.kind = .leftParen) {c m m' : Cursor} (hnext : c.next? = some (name, m))
    (hnext' : m.next? = some (opener, m')) :
    Meets (fun result => Derived (.expr .primary) budget c result.1 result.2)
      (Reader.call depth deeper name m') := by
  refine (meets_deepen depth deeper name m').bind fun inner hinner => ?_
  obtain ⟨less, hless, hsound⟩ := hdeeper inner hinner
  refine (sound_arguments (hsound (.chain .or)) m').bind ?_
  rintro ⟨args, c'⟩ ⟨d, rfl, hreads, hnesting⟩
  refine (meets_close depth _ c').bind ?_
  rintro c'' ⟨closer, hclose, hcloser⟩
  exact ⟨.call name opener closer hname hopener hcloser d, rfl,
    .cons hnext (.cons hnext' (hreads.append (.cons hclose (.nil c'')))),
    (Nat.succ_le_succ hnesting).trans hless⟩

lemma sound_primary : Sound .primary budget (Reader.primary depth deeper) := by
  intro c
  unfold Reader.primary
  cases hnext : c.next? with
  | none => rfl
  | some step =>
    obtain ⟨token, m⟩ := step
    dsimp only
    split
    · next hkind => exact ⟨.number token hkind, rfl, .cons hnext (.nil m), Nat.zero_le _⟩
    · next hkind =>
      split
      · next opener m' hnext' =>
        split
        · next hopener => exact sound_call depth hdeeper hkind hopener hnext hnext'
        · exact ⟨.field token hkind, rfl, .cons hnext (.nil m), Nat.zero_le _⟩
      · exact ⟨.field token hkind, rfl, .cons hnext (.nil m), Nat.zero_le _⟩
    · next hkind =>
      refine (meets_deepen depth deeper token m).bind fun inner hinner => ?_
      obtain ⟨less, hless, hsound⟩ := hdeeper inner hinner
      refine (hsound (.chain .or) m).bind ?_
      rintro ⟨e, c'⟩ ⟨d, rfl, hreads, hnesting⟩
      refine (meets_close depth _ c').bind ?_
      rintro c'' ⟨closer, hclose, hcloser⟩
      exact ⟨.group token closer hkind hcloser d, rfl,
        .cons hnext (hreads.append (.cons hclose (.nil c''))),
        (Nat.succ_le_succ hnesting).trans hless⟩
    · rfl

lemma sound_unary : Sound .unary budget (Reader.unary depth deeper) := by
  intro c
  have hprimary : Meets (fun result => Derived (.expr .unary) budget c result.1 result.2)
      (Reader.primary depth deeper c) := by
    refine (sound_primary depth hdeeper c).imp ?_
    rintro ⟨e, c'⟩ ⟨d, htree, hreads, hnesting⟩
    exact ⟨.unsigned d, htree, hreads, hnesting⟩
  unfold Reader.unary
  cases hnext : c.next? with
  | none => exact hprimary
  | some step =>
    obtain ⟨token, m⟩ := step
    dsimp only
    split
    · next hminus =>
      refine (meets_deepen depth deeper token m).bind fun inner hinner => ?_
      obtain ⟨less, hless, hsound⟩ := hdeeper inner hinner
      refine (hsound .unary m).bind ?_
      rintro ⟨e, c'⟩ ⟨d, rfl, hreads, hnesting⟩
      exact ⟨.opposite token hminus d, rfl, .cons hnext hreads,
        (Nat.succ_le_succ hnesting).trans hless⟩
    · exact hprimary

lemma sound_additive : Sound (.chain .additive) budget (Reader.additive depth deeper) :=
  sound_leftAssociative (sound_leftAssociative (sound_unary depth hdeeper))

lemma sound_comparison : Sound .comparison budget (Reader.comparison depth deeper) := by
  intro c
  have hadditive := sound_additive depth hdeeper
  refine (hadditive c).bind ?_
  rintro ⟨left, m⟩ ⟨d, rfl, hreads, hnesting⟩
  have hsingle : Derived (.expr .comparison) budget c d.tree m :=
    ⟨.single d, rfl, hreads, hnesting⟩
  dsimp only
  cases hnext : m.next? with
  | none => exact hsingle
  | some step =>
    obtain ⟨token, m'⟩ := step
    dsimp only
    cases hop : token.kind.comparisonOp? with
    | none => exact hsingle
    | some op =>
      refine (hadditive m').bind ?_
      rintro ⟨right, c'⟩ ⟨d', rfl, hreads', hnesting'⟩
      have hcomparing : Derived (.expr .comparison) budget c
          (.binary op d.tree d'.tree token.position) c' :=
        ⟨.comparing d token op hop d', rfl, hreads.append (.cons hnext hreads'),
          Nat.max_le.mpr ⟨hnesting, hnesting'⟩⟩
      dsimp only
      split
      · split
        · rfl
        · exact hcomparing
      · exact hcomparing

lemma sound_notExpr : Sound .not budget (Reader.notExpr depth deeper) := by
  intro c
  have hcomparison : Meets (fun result => Derived (.expr .not) budget c result.1 result.2)
      (Reader.comparison depth deeper c) := by
    refine (sound_comparison depth hdeeper c).imp ?_
    rintro ⟨e, c'⟩ ⟨d, htree, hreads, hnesting⟩
    exact ⟨.positive d, htree, hreads, hnesting⟩
  unfold Reader.notExpr
  cases hnext : c.next? with
  | none => exact hcomparison
  | some step =>
    obtain ⟨token, m⟩ := step
    dsimp only
    split
    · next hnot =>
      refine (meets_deepen depth deeper token m).bind fun inner hinner => ?_
      obtain ⟨less, hless, hsound⟩ := hdeeper inner hinner
      refine (hsound .not m).bind ?_
      rintro ⟨e, c'⟩ ⟨d, rfl, hreads, hnesting⟩
      exact ⟨.negation token hnot d, rfl, .cons hnext hreads,
        (Nat.succ_le_succ hnesting).trans hless⟩
    · exact hcomparison

lemma sound_over (level : Level) :
    Sound level budget ((Readers.over depth deeper).get level) := by
  -- from the tightest level to the loosest
  have hnot := sound_notExpr depth hdeeper
  cases level with
  | chain chain =>
    cases chain with
    | or => exact sound_leftAssociative (sound_leftAssociative hnot)
    | and => exact sound_leftAssociative hnot
    | additive => exact sound_additive depth hdeeper
    | term => exact sound_leftAssociative (sound_unary depth hdeeper)
  | not => exact hnot
  | comparison => exact sound_comparison depth hdeeper
  | unary => exact sound_unary depth hdeeper
  | primary => exact sound_primary depth hdeeper

end Level

/-- The induction over the levels that may still be opened. -/
theorem sound_within (budget depth : Nat) (level : Level) :
    Sound level budget ((Readers.within budget depth).get level) := by
  induction budget generalizing depth level with
  | zero =>
    refine sound_over depth (fun readers hreaders => ?_) level
    cases hreaders
  | succ budget ih =>
    refine sound_over depth (fun readers hreaders => ?_) level
    cases hreaders
    exact ⟨budget, le_rfl, ih (depth + 1)⟩

theorem sound_formula (c : Cursor) :
    Meets (fun result => Derived .formula maxNesting c result.1 result.2 ∧ result.2.rest = [])
      (Reader.formula 0 c) := by
  unfold Reader.formula
  split
  · rfl
  · refine (sound_within maxNesting 0 (.chain .or) c).bind ?_
    rintro ⟨e, c'⟩ hderived
    dsimp only
    split
    · next hrest => exact ⟨hderived, hrest⟩
    · split <;> rfl

end Grammar

end MarketFormula
