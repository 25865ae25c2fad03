import MarketFormula.Proofs.Formula.Soundness
import MarketFormula.Proofs.Formula.Unambiguity

/-!
# Readers read all derivations

A reader that may open enough nesting levels takes exactly the tokens of a derivation of its level,
provided that the derivation ends before what follows, and returns the tree of the derivation.
-/
namespace MarketFormula.Grammar

open Readers (within)

def below : (budget depth : Nat) → Option Readers
  | 0, _ => none
  | budget + 1, depth => some (within budget (depth + 1))

lemma get_chain (budget depth : Nat) (chain : Chain) :
    (within budget depth).get (.chain chain) =
      Reader.leftAssociative chain.op? ((within budget depth).get chain.operand) := by
  cases budget <;> cases chain <;> rfl

lemma get_not (budget depth : Nat) :
    (within budget depth).get .not = Reader.notExpr depth (below budget depth) := by
  cases budget <;> rfl

lemma get_comparison (budget depth : Nat) :
    (within budget depth).get .comparison = Reader.comparison depth (below budget depth) := by
  cases budget <;> rfl

lemma get_additive (budget depth : Nat) :
    (within budget depth).get (.chain .additive) =
      Reader.additive depth (below budget depth) := by
  cases budget <;> rfl

lemma get_unary (budget depth : Nat) :
    (within budget depth).get .unary = Reader.unary depth (below budget depth) := by
  cases budget <;> rfl

lemma get_primary (budget depth : Nat) :
    (within budget depth).get .primary = Reader.primary depth (below budget depth) := by
  cases budget <;> rfl

lemma linkRank_lt_of_endsAt {level : Level} {c m : Cursor} {token : Token}
    (h : level.EndsAt c.rest) (hnext : c.next? = some (token, m)) :
    linkRank token.kind < level.rank := by
  rw [Cursor.rest_of_next? hnext] at h
  exact Level.EndsAt.cons_iff.mp h

lemma op?_eq_none {chain : Chain} {kind : TokenKind}
    (h : linkRank kind < (Level.chain chain).rank) : chain.op? kind = none := by
  cases hop : chain.op? kind with
  | none => rfl
  | some op => exact absurd (Chain.linkRank_of_op? hop) h.ne

lemma comparisonOp?_eq_none {kind : TokenKind} (h : linkRank kind < Level.comparison.rank) :
    kind.comparisonOp? = none := by
  cases hop : kind.comparisonOp? with
  | none => rfl
  | some op => exact absurd (linkRank_of_comparisonOp? hop) h.ne

/-- The reader for a rule takes the tokens of the derivation and returns its tree. -/
def Complete : {p : Nonterminal} → Derivation p → Prop
  | .expr level, d => ∀ budget depth c c', d.nesting ≤ budget → c.Reads d.tokens c' →
    level.EndsAt c'.rest → (within budget depth).get level c = .ok (d.tree, c')
  | .links chain, d => ∀ budget depth rounds left c c', d.nesting ≤ budget →
    c.Reads d.tokens c' → (Level.chain chain).EndsAt c'.rest → c.rest.length ≤ rounds →
    Reader.chain chain.op? ((within budget depth).get chain.operand) rounds left c =
      .ok (d.tree left, c')
  | .arguments, d => ∀ budget depth c c', d.nesting ≤ budget → c.Reads d.tokens c' →
    Nonterminal.arguments.EndsAt c'.rest →
    Reader.arguments ((within budget depth).get (.chain .or)) c = .ok (d.tree, c')
  | .moreArguments, d => ∀ budget depth rounds c c', d.nesting ≤ budget → c.Reads d.tokens c' →
    Nonterminal.moreArguments.EndsAt c'.rest → c.rest.length ≤ rounds →
    Reader.moreArguments ((within budget depth).get (.chain .or)) rounds c = .ok (d.tree, c')

lemma complete_chain {chain : Chain} {first : Derivation (.expr chain.operand)}
    {rest : Derivation (.links chain)} (hfirst : Complete first) (hrest : Complete rest) :
    Complete (.chain first rest) := by
  intro budget depth c c' hnesting hreads hend
  obtain ⟨hn, hn'⟩ := Nat.max_le.mp hnesting
  obtain ⟨m, hreadsFirst, hreadsRest⟩ := Cursor.reads_append_iff.mp hreads
  have hm : chain.operand.EndsAt m.rest := by
    rw [hreadsRest.rest_eq]
    exact rest.endsAt_links hend
  have htail := hrest budget depth m.rest.length first.tree m c' hn' hreadsRest hend le_rfl
  rw [get_chain]
  simp only [Reader.leftAssociative, hfirst budget depth c m hn hreadsFirst hm, bind, Except.bind,
    htail]
  rfl

lemma complete_noLink {chain : Chain} : Complete (@Derivation.noLink chain) := by
  intro budget depth rounds left c c' _ hreads hend _
  obtain rfl : c' = c := hreads
  cases rounds with
  | zero => rfl
  | succ rounds =>
    unfold Reader.chain
    cases hnext : c'.next? with
    | none => rfl
    | some step =>
      simp only [op?_eq_none (linkRank_lt_of_endsAt hend hnext)]
      rfl

lemma complete_link {chain : Chain} {operator : Token} {op : BinaryOp}
    {hop : chain.op? operator.kind = some op} {operand : Derivation (.expr chain.operand)}
    {rest : Derivation (.links chain)} (hoperand : Complete operand) (hrest : Complete rest) :
    Complete (.link operator op hop operand rest) := by
  intro budget depth rounds left c c' hnesting hreads hend hrounds
  obtain ⟨hn, hn'⟩ := Nat.max_le.mp hnesting
  obtain ⟨m, hnext, hreads⟩ := hreads
  obtain ⟨m', hreadsOperand, hreadsRest⟩ := Cursor.reads_append_iff.mp hreads
  have hm' : chain.operand.EndsAt m'.rest := by
    rw [hreadsRest.rest_eq]
    exact rest.endsAt_links hend
  have hlength := hreadsOperand.length_rest_le
  rw [Cursor.rest_of_next? hnext, List.length_cons] at hrounds
  obtain ⟨rounds, rfl⟩ : ∃ r, rounds = r + 1 := ⟨rounds - 1, by omega⟩
  have htail := hrest budget depth rounds (.binary op left operand.tree operator.position) m' c' hn'
    hreadsRest hend (by omega)
  simp only [Reader.chain, hnext, hop, hoperand budget depth m m' hn hreadsOperand hm', bind,
    Except.bind, htail]
  rfl

lemma exists_next? {level : Level} (d : Derivation (.expr level)) {c c' : Cursor}
    (h : c.Reads d.tokens c') :
    ∃ token m, c.next? = some (token, m) ∧ level.rank ≤ startRank token.kind := by
  obtain ⟨token, tail, htokens, hstart⟩ := d.exists_cons
  rw [htokens] at h
  obtain ⟨m, hnext, -⟩ := h
  exact ⟨token, m, hnext, hstart⟩

lemma exists_budget {budget nesting : Nat} (h : nesting + 1 ≤ budget) :
    ∃ less, budget = less + 1 ∧ nesting ≤ less :=
  ⟨budget - 1, by omega, by omega⟩

lemma complete_negation {operator : Token} {hnot : operator.kind = .not}
    {operand : Derivation (.expr .not)} (hoperand : Complete operand) :
    Complete (.negation operator hnot operand) := by
  intro budget depth c c' hnesting hreads hend
  obtain ⟨less, rfl, hn⟩ := exists_budget hnesting
  obtain ⟨m, hnext, hreads⟩ := hreads
  have hinner : (within less (depth + 1)).notExpr m = .ok (operand.tree, c') :=
    hoperand less (depth + 1) m c' hn hreads hend
  rw [get_not]
  simp only [Reader.notExpr, hnext, hnot, if_true, Reader.deepen, below, bind, Except.bind, hinner]
  rfl

lemma complete_positive {inner : Derivation (.expr .comparison)} (hinner : Complete inner) :
    Complete (.positive inner) := by
  intro budget depth c c' hnesting hreads hend
  obtain ⟨token, m, hnext, hstart⟩ := exists_next? inner hreads
  have hnot : token.kind ≠ .not := by
    intro hkind
    rw [hkind] at hstart
    exact absurd hstart (by decide)
  have hcomparison := hinner budget depth c c' hnesting hreads (hend.tighten (by decide))
  rw [get_comparison] at hcomparison
  rw [get_not]
  simp only [Reader.notExpr, hnext, hnot, if_false]
  exact hcomparison

lemma complete_comparing {left right : Derivation (.expr (.chain .additive))} {operator : Token}
    {op : BinaryOp} {hop : operator.kind.comparisonOp? = some op} (hleft : Complete left)
    (hright : Complete right) : Complete (.comparing left operator op hop right) := by
  intro budget depth c c' hnesting hreads hend
  obtain ⟨hn, hn'⟩ := Nat.max_le.mp hnesting
  obtain ⟨m, hreadsLeft, m', hnext, hreadsRight⟩ := Cursor.reads_append_iff.mp hreads
  have hm : (Level.chain .additive).EndsAt m.rest := by
    rw [Cursor.rest_of_next? hnext]
    exact Derivation.endsAt_comparison hop
  have hadditive := hleft budget depth c m hn hreadsLeft hm
  have hadditive' := hright budget depth m' c' hn' hreadsRight (hend.tighten (by decide))
  rw [get_additive] at hadditive hadditive'
  rw [get_comparison]
  simp only [Reader.comparison, hadditive, bind, Except.bind, hnext, hop, hadditive']
  cases hrest : c'.rest with
  | nil => rfl
  | cons second behind =>
    rw [Level.EndsAt, hrest] at hend
    have hsecond : second.kind.isComparison = false := by
      rw [TokenKind.isComparison_eq, comparisonOp?_eq_none (hend second rfl)]
      rfl
    simp only [hsecond]
    rfl

lemma complete_single {inner : Derivation (.expr (.chain .additive))} (hinner : Complete inner) :
    Complete (.single inner) := by
  intro budget depth c c' hnesting hreads hend
  have hadditive := hinner budget depth c c' hnesting hreads (hend.tighten (by decide))
  rw [get_additive] at hadditive
  rw [get_comparison]
  simp only [Reader.comparison, hadditive, bind, Except.bind]
  cases hnext : c'.next? with
  | none => rfl
  | some step =>
    simp only [comparisonOp?_eq_none (linkRank_lt_of_endsAt hend hnext)]
    rfl

lemma complete_opposite {operator : Token} {hminus : operator.kind = .minus}
    {operand : Derivation (.expr .unary)} (hoperand : Complete operand) :
    Complete (.opposite operator hminus operand) := by
  intro budget depth c c' hnesting hreads hend
  obtain ⟨less, rfl, hn⟩ := exists_budget hnesting
  obtain ⟨m, hnext, hreads⟩ := hreads
  have hinner : (within less (depth + 1)).unary m = .ok (operand.tree, c') :=
    hoperand less (depth + 1) m c' hn hreads hend
  rw [get_unary]
  simp only [Reader.unary, hnext, hminus, if_true, Reader.deepen, below, bind, Except.bind, hinner]
  rfl

lemma complete_unsigned {inner : Derivation (.expr .primary)} (hinner : Complete inner) :
    Complete (.unsigned inner) := by
  intro budget depth c c' hnesting hreads hend
  obtain ⟨token, m, hnext, hstart⟩ := exists_next? inner hreads
  have hminus : token.kind ≠ .minus := by
    intro hkind
    rw [hkind] at hstart
    exact absurd hstart (by decide)
  have hprimary := hinner budget depth c c' hnesting hreads (hend.tighten (by decide))
  rw [get_primary] at hprimary
  rw [get_unary]
  simp only [Reader.unary, hnext, hminus, if_false]
  exact hprimary

lemma complete_number {token : Token} {hkind : token.kind = .number} :
    Complete (.number token hkind) := by
  intro budget depth c c' _ hreads _
  obtain ⟨m, hnext, rfl⟩ := hreads
  rw [get_primary]
  simp only [Reader.primary, hnext, hkind]
  rfl

lemma complete_field {name : Token} {hkind : name.kind = .name} :
    Complete (.field name hkind) := by
  intro budget depth c c' _ hreads hend
  obtain ⟨m, hnext, rfl⟩ := hreads
  rw [get_primary]
  simp only [Reader.primary, hnext, hkind]
  cases hnext' : c'.next? with
  | none => rfl
  | some step =>
    have hparen : step.1.kind ≠ .leftParen := by
      intro hkind'
      have hlt := linkRank_lt_of_endsAt hend hnext'
      rw [hkind'] at hlt
      exact absurd hlt (by decide)
    simp only [hparen, if_false]
    rfl

lemma close_eq_ok {depth : Nat} {description : String} {c m : Cursor} {closer : Token}
    (hnext : c.next? = some (closer, m)) (hcloser : closer.kind = .rightParen) :
    Reader.close depth description c = .ok m := by
  simp [Reader.close, Cursor.expect, hnext, hcloser]

lemma complete_call {name opener closer : Token} {hname : name.kind = .name}
    {hopener : opener.kind = .leftParen} {hcloser : closer.kind = .rightParen}
    {args : Derivation .arguments} (hargs : Complete args) :
    Complete (.call name opener closer hname hopener hcloser args) := by
  intro budget depth c c' hnesting hreads hend
  obtain ⟨less, rfl, hn⟩ := exists_budget hnesting
  obtain ⟨m, hnext, m', hnext', hreads⟩ := hreads
  obtain ⟨m'', hreadsArgs, _, hclose, rfl⟩ := Cursor.reads_append_iff.mp hreads
  have hinner : Reader.arguments (within less (depth + 1)).orExpr m' = .ok (args.tree, m'') :=
    hargs less (depth + 1) m' m'' hn hreadsArgs
      ⟨closer, c'.rest, Cursor.rest_of_next? hclose, hcloser⟩
  rw [get_primary]
  simp only [Reader.primary, hnext, hname, hnext', hopener, if_true, Reader.call,
    Reader.deepen, below, bind, Except.bind, hinner, close_eq_ok hclose hcloser]
  rfl

lemma complete_group {opener closer : Token} {hopener : opener.kind = .leftParen}
    {hcloser : closer.kind = .rightParen} {inner : Derivation .formula} (hinner : Complete inner) :
    Complete (.group opener closer hopener hcloser inner) := by
  intro budget depth c c' hnesting hreads hend
  obtain ⟨less, rfl, hn⟩ := exists_budget hnesting
  obtain ⟨m, hnext, hreads⟩ := hreads
  obtain ⟨m', hreadsInner, _, hclose, rfl⟩ := Cursor.reads_append_iff.mp hreads
  have hm' : (Level.chain .or).EndsAt m'.rest := by
    rw [Cursor.rest_of_next? hclose]
    exact .of_rightParen hcloser
  have hor : (within less (depth + 1)).orExpr m = .ok (inner.tree, m') :=
    hinner less (depth + 1) m m' hn hreadsInner hm'
  rw [get_primary]
  simp only [Reader.primary, hnext, hopener, Reader.deepen, below, bind, Except.bind, hor,
    close_eq_ok hclose hcloser]
  rfl

lemma complete_noArguments : Complete .noArguments := by
  intro budget depth c c' _ hreads hend
  obtain rfl : c' = c := hreads
  obtain ⟨closer, behind, hrest, hcloser⟩ := hend
  simp only [Reader.arguments, hrest, hcloser, if_true]
  rfl

lemma complete_someArguments {first : Derivation .formula} {rest : Derivation .moreArguments}
    (hfirst : Complete first) (hrest : Complete rest) : Complete (.someArguments first rest) := by
  intro budget depth c c' hnesting hreads hend
  obtain ⟨hn, hn'⟩ := Nat.max_le.mp hnesting
  obtain ⟨m, hreadsFirst, hreadsRest⟩ := Cursor.reads_append_iff.mp hreads
  have hm : (Level.chain .or).EndsAt m.rest := by
    rw [hreadsRest.rest_eq]
    exact rest.endsAt_moreArguments hend
  obtain ⟨token, m', hnext, -⟩ := exists_next? first hreadsFirst
  have htoken : token.kind ≠ .rightParen :=
    first.ne_rightParen_of_cons ((Cursor.rest_of_next? hnext).symm.trans hreadsFirst.rest_eq)
  have htail := hrest budget depth m.rest.length m c' hn' hreadsRest hend le_rfl
  simp only [Reader.arguments, Cursor.rest_of_next? hnext, htoken, if_false,
    hfirst budget depth c m hn hreadsFirst hm, bind, Except.bind, htail]
  rfl

lemma complete_noMore : Complete .noMore := by
  intro budget depth rounds c c' _ hreads hend _
  obtain rfl : c' = c := hreads
  obtain ⟨closer, behind, hrest, hcloser⟩ := hend
  cases rounds with
  | zero => rfl
  | succ rounds =>
    unfold Reader.moreArguments
    cases hnext : c'.next? with
    | none => rfl
    | some step =>
      obtain ⟨rfl, -⟩ := List.cons.inj (hrest.symm.trans (Cursor.rest_of_next? hnext))
      simp only [hcloser, reduceCtorEq, if_false]
      rfl

lemma complete_more {comma : Token} {hcomma : comma.kind = .comma}
    {argument : Derivation .formula} {rest : Derivation .moreArguments}
    (hargument : Complete argument) (hrest : Complete rest) :
    Complete (.more comma hcomma argument rest) := by
  intro budget depth rounds c c' hnesting hreads hend hrounds
  obtain ⟨hn, hn'⟩ := Nat.max_le.mp hnesting
  obtain ⟨m, hnext, hreads⟩ := hreads
  obtain ⟨m', hreadsArgument, hreadsRest⟩ := Cursor.reads_append_iff.mp hreads
  have hm' : (Level.chain .or).EndsAt m'.rest := by
    rw [hreadsRest.rest_eq]
    exact rest.endsAt_moreArguments hend
  have hlength := hreadsArgument.length_rest_le
  rw [Cursor.rest_of_next? hnext, List.length_cons] at hrounds
  obtain ⟨rounds, rfl⟩ : ∃ r, rounds = r + 1 := ⟨rounds - 1, by omega⟩
  have htail := hrest budget depth rounds m' c' hn' hreadsRest hend (by omega)
  simp only [Reader.moreArguments, hnext, hcomma, if_true,
    hargument budget depth m m' hn hreadsArgument hm', bind, Except.bind, htail]
  rfl

/-- The induction over the derivation, one lemma for each rule. -/
theorem complete {p : Nonterminal} (d : Derivation p) : Complete d := by
  induction d with
  | chain first rest ihf ihr => exact complete_chain ihf ihr
  | noLink => exact complete_noLink
  | link operator op hop operand rest iho ihr => exact complete_link iho ihr
  | negation operator hnot operand ih => exact complete_negation ih
  | positive inner ih => exact complete_positive ih
  | comparing left operator op hop right ihl ihr => exact complete_comparing ihl ihr
  | single inner ih => exact complete_single ih
  | opposite operator hminus operand ih => exact complete_opposite ih
  | unsigned inner ih => exact complete_unsigned ih
  | number token hkind => exact complete_number
  | field name hkind => exact complete_field
  | call name opener closer hname hopener hcloser args ih => exact complete_call ih
  | group opener closer hopener hcloser inner ih => exact complete_group ih
  | noArguments => exact complete_noArguments
  | someArguments first rest ihf ihr => exact complete_someArguments ihf ihr
  | noMore => exact complete_noMore
  | more comma hcomma argument rest iha ihr => exact complete_more iha ihr

end MarketFormula.Grammar
