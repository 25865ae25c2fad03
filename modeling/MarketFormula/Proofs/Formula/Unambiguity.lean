import MarketFormula.Proofs.Formula.Grammar

/-!
# The grammar is unambiguous

Every level has a rank, and every kind of token has two: the tightest level whose expressions it
may start and the tightest level that it goes on with behind an expression.
-/
namespace MarketFormula.Grammar

/-- The place of a level in the grammar, from loosest to tightest. -/
def Level.rank : Level → Nat
  | chain .or => 1
  | chain .and => 2
  | not => 3
  | comparison => 4
  | chain .additive => 5
  | chain .term => 6
  | unary => 7
  | primary => 8

lemma Level.rank_pos (level : Level) : 0 < level.rank := by
  cases level with
  | chain chain => cases chain <;> decide
  | _ => decide

/-- The rank of the tightest level whose expressions start with a kind of token; zero if none do. -/
def startRank : TokenKind → Nat
  | .number | .name | .leftParen => 8
  | .minus => 7
  | .not => 3
  | _ => 0

/-- The rank of the tightest level that a kind of token goes on with; a parenthesis goes on with a
name. -/
def linkRank : TokenKind → Nat
  | .or => 1
  | .and => 2
  | .ge | .le | .eq | .ne | .gt | .lt => 4
  | .plus | .minus => 5
  | .times | .div => 6
  | .leftParen => 8
  | _ => 0

namespace Chain

lemma rank_lt_operand (chain : Chain) : (Level.chain chain).rank < chain.operand.rank := by
  cases chain <;> decide

lemma linkRank_of_op? {chain : Chain} {kind : TokenKind} {op : BinaryOp}
    (h : chain.op? kind = some op) : linkRank kind = (Level.chain chain).rank := by
  cases chain <;> cases kind <;> cases h <;> rfl

end Chain

lemma linkRank_of_comparisonOp? {kind : TokenKind} {op : BinaryOp}
    (h : kind.comparisonOp? = some op) : linkRank kind = Level.comparison.rank := by
  cases kind <;> cases h <;> rfl

/-- An expression of the level ends before these tokens. -/
def Level.EndsAt (level : Level) (rest : List Token) : Prop :=
  ∀ token ∈ rest.head?, linkRank token.kind < level.rank

namespace Level.EndsAt

variable {level level' : Level} {rest : List Token} {token : Token}

lemma nil : level.EndsAt [] := by
  simp [EndsAt]

lemma cons_iff : level.EndsAt (token :: rest) ↔ linkRank token.kind < level.rank := by
  simp [EndsAt]

lemma tighten (h : level.EndsAt rest) (hle : level.rank ≤ level'.rank) : level'.EndsAt rest :=
  fun token htoken => (h token htoken).trans_le hle

lemma of_rightParen (h : token.kind = .rightParen) : level.EndsAt (token :: rest) := by
  rw [cons_iff, h]
  exact level.rank_pos

end Level.EndsAt

lemma not_endsAt_link {chain : Chain} {token : Token} {op : BinaryOp} {rest : List Token}
    (h : chain.op? token.kind = some op) : ¬ (Level.chain chain).EndsAt (token :: rest) := by
  rw [Level.EndsAt.cons_iff, Chain.linkRank_of_op? h]
  exact lt_irrefl _

lemma not_endsAt_comparison {token : Token} {op : BinaryOp} {rest : List Token}
    (h : token.kind.comparisonOp? = some op) : ¬ Level.comparison.EndsAt (token :: rest) := by
  rw [Level.EndsAt.cons_iff, linkRank_of_comparisonOp? h]
  exact lt_irrefl _

lemma not_endsAt_leftParen {token : Token} {rest : List Token} (h : token.kind = .leftParen) :
    ¬ Level.primary.EndsAt (token :: rest) := by
  rw [Level.EndsAt.cons_iff, h]
  decide

/-- What a rule derives ends before these tokens; arguments end before a closing parenthesis. -/
def Nonterminal.EndsAt : Nonterminal → List Token → Prop
  | expr level, rest => level.EndsAt rest
  | links chain, rest => (Level.chain chain).EndsAt rest
  | arguments, rest | moreArguments, rest =>
    ∃ closer behind, rest = closer :: behind ∧ closer.kind = .rightParen

namespace Derivation

/-- An expression has a first token, which may start its level. -/
def StartsWell : {p : Nonterminal} → Derivation p → Prop
  | .expr level, d => ∃ token rest, d.tokens = token :: rest ∧ level.rank ≤ startRank token.kind
  | _, _ => True

lemma startsWell {p : Nonterminal} (d : Derivation p) : d.StartsWell := by
  induction d with
  | @chain chain first rest ih _ =>
    obtain ⟨token, tail, htokens, hstart⟩ := ih
    exact ⟨token, tail ++ rest.tokens, by rw [tokens, htokens, List.cons_append],
      chain.rank_lt_operand.le.trans hstart⟩
  | negation operator h operand _ => exact ⟨operator, operand.tokens, rfl, by rw [h]; decide⟩
  | positive inner ih =>
    obtain ⟨token, tail, htokens, hstart⟩ := ih
    exact ⟨token, tail, htokens, .trans (by decide) hstart⟩
  | comparing left operator op h right ih _ =>
    obtain ⟨token, tail, htokens, hstart⟩ := ih
    exact ⟨token, tail ++ operator :: right.tokens, by rw [tokens, htokens, List.cons_append],
      .trans (by decide) hstart⟩
  | single inner ih =>
    obtain ⟨token, tail, htokens, hstart⟩ := ih
    exact ⟨token, tail, htokens, .trans (by decide) hstart⟩
  | opposite operator h operand _ => exact ⟨operator, operand.tokens, rfl, by rw [h]; decide⟩
  | unsigned inner ih =>
    obtain ⟨token, tail, htokens, hstart⟩ := ih
    exact ⟨token, tail, htokens, .trans (by decide) hstart⟩
  | number token h => exact ⟨token, [], rfl, by rw [h]; decide⟩
  | field name h => exact ⟨name, [], rfl, by rw [h]; decide⟩
  | call name opener closer hname hopener hcloser args _ =>
    exact ⟨name, opener :: (args.tokens ++ [closer]), rfl, by rw [hname]; decide⟩
  | group opener closer hopener hcloser inner _ =>
    exact ⟨opener, inner.tokens ++ [closer], rfl, by rw [hopener]; decide⟩
  | _ => trivial

lemma exists_cons {level : Level} (d : Derivation (.expr level)) :
    ∃ token rest, d.tokens = token :: rest ∧ level.rank ≤ startRank token.kind :=
  d.startsWell

lemma endsAt_links {chain : Chain} (rest : Derivation (.links chain)) {behind : List Token}
    (h : (Level.chain chain).EndsAt behind) : chain.operand.EndsAt (rest.tokens ++ behind) := by
  cases rest with
  | noLink => exact h.tighten chain.rank_lt_operand.le
  | link operator op hop operand rest =>
    rw [tokens, List.cons_append, Level.EndsAt.cons_iff, Chain.linkRank_of_op? hop]
    exact chain.rank_lt_operand

lemma endsAt_comparison {operator : Token} {op : BinaryOp} {behind : List Token}
    (h : operator.kind.comparisonOp? = some op) :
    (Level.chain .additive).EndsAt (operator :: behind) := by
  rw [Level.EndsAt.cons_iff, linkRank_of_comparisonOp? h]
  decide

lemma endsAt_moreArguments (rest : Derivation .moreArguments) {behind : List Token}
    (h : Nonterminal.moreArguments.EndsAt behind) :
    (Level.chain .or).EndsAt (rest.tokens ++ behind) := by
  cases rest with
  | noMore =>
    obtain ⟨closer, behind, rfl, hcloser⟩ := h
    exact .of_rightParen hcloser
  | more comma hcomma argument rest =>
    rw [tokens, List.cons_append, Level.EndsAt.cons_iff, hcomma]
    decide

lemma startRank_of_cons {level : Level} (d : Derivation (.expr level)) {token : Token}
    {behind rest : List Token} (h : token :: rest = d.tokens ++ behind) :
    level.rank ≤ startRank token.kind := by
  obtain ⟨token', tail, htokens, hstart⟩ := d.exists_cons
  rw [htokens, List.cons_append] at h
  rwa [(List.cons.inj h).1]

lemma ne_rightParen_of_cons {level : Level} (d : Derivation (.expr level)) {token : Token}
    {behind rest : List Token} (h : token :: rest = d.tokens ++ behind) :
    token.kind ≠ .rightParen := by
  intro hkind
  have hstart := d.startRank_of_cons h
  rw [hkind] at hstart
  exact absurd (level.rank_pos.trans_le hstart) (lt_irrefl _)

end Derivation

lemma kind_eq_of_cons {token token' : Token} {rest rest' : List Token} {kind kind' : TokenKind}
    (h : token :: rest = token' :: rest') (hkind : token.kind = kind)
    (hkind' : token'.kind = kind') : kind = kind' := by
  rw [← hkind, ← hkind', (List.cons.inj h).1]

/-- No other derivation has the same tokens up to where both of them end. -/
def Unique {p : Nonterminal} (d : Derivation p) : Prop :=
  ∀ (d' : Derivation p) (behind behind' : List Token), p.EndsAt behind → p.EndsAt behind' →
    d.tokens ++ behind = d'.tokens ++ behind' → d = d' ∧ behind = behind'

lemma unique_chain {chain : Chain} {first : Derivation (.expr chain.operand)}
    {rest : Derivation (.links chain)} (hfirst : Unique first) (hrest : Unique rest) :
    Unique (.chain first rest) := by
  intro d' behind behind' hend hend' h
  cases d' with | chain first' rest' =>
  simp only [Derivation.tokens, List.append_assoc] at h
  obtain ⟨rfl, htail⟩ :=
    hfirst first' _ _ (rest.endsAt_links hend) (rest'.endsAt_links hend') h
  obtain ⟨rfl, rfl⟩ := hrest rest' _ _ hend hend' htail
  exact ⟨rfl, rfl⟩

lemma unique_noLink {chain : Chain} : Unique (@Derivation.noLink chain) := by
  intro d' behind behind' hend _ h
  cases d' with
  | noLink => exact ⟨rfl, h⟩
  | link operator' op' hop' operand' rest' =>
    subst h
    exact absurd hend (not_endsAt_link hop')

lemma unique_link {chain : Chain} {operator : Token} {op : BinaryOp}
    {hop : chain.op? operator.kind = some op} {operand : Derivation (.expr chain.operand)}
    {rest : Derivation (.links chain)} (hoperand : Unique operand) (hrest : Unique rest) :
    Unique (.link operator op hop operand rest) := by
  intro d' behind behind' hend hend' h
  cases d' with
  | noLink =>
    cases h
    exact absurd hend' (not_endsAt_link hop)
  | link operator' op' hop' operand' rest' =>
    simp only [Derivation.tokens, List.cons_append, List.append_assoc, List.cons.injEq] at h
    obtain ⟨rfl, h⟩ := h
    obtain rfl := Option.some.inj (hop.symm.trans hop')
    obtain ⟨rfl, htail⟩ :=
      hoperand operand' _ _ (rest.endsAt_links hend) (rest'.endsAt_links hend') h
    obtain ⟨rfl, rfl⟩ := hrest rest' _ _ hend hend' htail
    exact ⟨rfl, rfl⟩

lemma unique_negation {operator : Token} {hnot : operator.kind = .not}
    {operand : Derivation (.expr .not)} (hoperand : Unique operand) :
    Unique (.negation operator hnot operand) := by
  intro d' behind behind' hend hend' h
  cases d' with
  | negation operator' hnot' operand' =>
    obtain ⟨rfl, htail⟩ := List.cons.inj h
    obtain ⟨rfl, rfl⟩ := hoperand operand' _ _ hend hend' htail
    exact ⟨rfl, rfl⟩
  | positive inner' =>
    have hstart := inner'.startRank_of_cons h
    rw [hnot] at hstart
    exact absurd hstart (by decide)

lemma unique_positive {inner : Derivation (.expr .comparison)} (hinner : Unique inner) :
    Unique (.positive inner) := by
  intro d' behind behind' hend hend' h
  cases d' with
  | negation operator' hnot' operand' =>
    have hstart := inner.startRank_of_cons h.symm
    rw [hnot'] at hstart
    exact absurd hstart (by decide)
  | positive inner' =>
    obtain ⟨rfl, rfl⟩ :=
      hinner inner' _ _ (hend.tighten (by decide)) (hend'.tighten (by decide)) h
    exact ⟨rfl, rfl⟩

lemma unique_comparing {left right : Derivation (.expr (.chain .additive))} {operator : Token}
    {op : BinaryOp} {hop : operator.kind.comparisonOp? = some op} (hleft : Unique left)
    (hright : Unique right) : Unique (.comparing left operator op hop right) := by
  intro d' behind behind' hend hend' h
  simp only [Derivation.tokens, List.append_assoc, List.cons_append] at h
  cases d' with
  | comparing left' operator' op' hop' right' =>
    simp only [Derivation.tokens, List.append_assoc, List.cons_append] at h
    obtain ⟨rfl, htail⟩ :=
      hleft left' _ _ (Derivation.endsAt_comparison hop) (Derivation.endsAt_comparison hop') h
    obtain ⟨rfl, hbehind⟩ := List.cons.inj htail
    obtain rfl := Option.some.inj (hop.symm.trans hop')
    obtain ⟨rfl, rfl⟩ :=
      hright right' _ _ (hend.tighten (by decide)) (hend'.tighten (by decide)) hbehind
    exact ⟨rfl, rfl⟩
  | single inner' =>
    obtain ⟨-, rfl⟩ :=
      hleft inner' _ _ (Derivation.endsAt_comparison hop) (hend'.tighten (by decide)) h
    exact absurd hend' (not_endsAt_comparison hop)

lemma unique_single {inner : Derivation (.expr (.chain .additive))} (hinner : Unique inner) :
    Unique (.single inner) := by
  intro d' behind behind' hend hend' h
  cases d' with
  | comparing left' operator' op' hop' right' =>
    simp only [Derivation.tokens, List.append_assoc, List.cons_append] at h
    obtain ⟨-, rfl⟩ :=
      hinner left' _ _ (hend.tighten (by decide)) (Derivation.endsAt_comparison hop') h
    exact absurd hend (not_endsAt_comparison hop')
  | single inner' =>
    obtain ⟨rfl, rfl⟩ :=
      hinner inner' _ _ (hend.tighten (by decide)) (hend'.tighten (by decide)) h
    exact ⟨rfl, rfl⟩

lemma unique_opposite {operator : Token} {hminus : operator.kind = .minus}
    {operand : Derivation (.expr .unary)} (hoperand : Unique operand) :
    Unique (.opposite operator hminus operand) := by
  intro d' behind behind' hend hend' h
  cases d' with
  | opposite operator' hminus' operand' =>
    obtain ⟨rfl, htail⟩ := List.cons.inj h
    obtain ⟨rfl, rfl⟩ := hoperand operand' _ _ hend hend' htail
    exact ⟨rfl, rfl⟩
  | unsigned inner' =>
    have hstart := inner'.startRank_of_cons h
    rw [hminus] at hstart
    exact absurd hstart (by decide)

lemma unique_unsigned {inner : Derivation (.expr .primary)} (hinner : Unique inner) :
    Unique (.unsigned inner) := by
  intro d' behind behind' hend hend' h
  cases d' with
  | opposite operator' hminus' operand' =>
    have hstart := inner.startRank_of_cons h.symm
    rw [hminus'] at hstart
    exact absurd hstart (by decide)
  | unsigned inner' =>
    obtain ⟨rfl, rfl⟩ :=
      hinner inner' _ _ (hend.tighten (by decide)) (hend'.tighten (by decide)) h
    exact ⟨rfl, rfl⟩

lemma unique_number {token : Token} {hkind : token.kind = .number} :
    Unique (.number token hkind) := by
  intro d' behind behind' _ _ h
  cases d' with
  | number token' hkind' =>
    obtain ⟨rfl, rfl⟩ := List.cons.inj h
    exact ⟨rfl, rfl⟩
  | _ => exact absurd (kind_eq_of_cons h hkind ‹_›) (by decide)

lemma unique_field {name : Token} {hkind : name.kind = .name} : Unique (.field name hkind) := by
  intro d' behind behind' hend _ h
  cases d' with
  | field name' hkind' =>
    obtain ⟨rfl, rfl⟩ := List.cons.inj h
    exact ⟨rfl, rfl⟩
  | call name' opener' closer' hname' hopener' hcloser' args' =>
    obtain ⟨rfl, rfl⟩ := List.cons.inj h
    exact absurd hend (not_endsAt_leftParen hopener')
  | _ => exact absurd (kind_eq_of_cons h hkind ‹_›) (by decide)

lemma unique_call {name opener closer : Token} {hname : name.kind = .name}
    {hopener : opener.kind = .leftParen} {hcloser : closer.kind = .rightParen}
    {args : Derivation .arguments} (hargs : Unique args) :
    Unique (.call name opener closer hname hopener hcloser args) := by
  intro d' behind behind' _ hend' h
  cases d' with
  | field name' hkind' =>
    obtain ⟨rfl, rfl⟩ := List.cons.inj h
    exact absurd hend' (not_endsAt_leftParen hopener)
  | call name' opener' closer' hname' hopener' hcloser' args' =>
    simp only [Derivation.tokens, List.cons_append, List.append_assoc, List.cons.injEq,
      List.nil_append] at h
    obtain ⟨rfl, rfl, h⟩ := h
    obtain ⟨rfl, htail⟩ := hargs args' _ _ ⟨closer, behind, rfl, hcloser⟩
      ⟨closer', behind', rfl, hcloser'⟩ h
    obtain ⟨rfl, rfl⟩ := List.cons.inj htail
    exact ⟨rfl, rfl⟩
  | _ => exact absurd (kind_eq_of_cons h hname ‹_›) (by decide)

lemma unique_group {opener closer : Token} {hopener : opener.kind = .leftParen}
    {hcloser : closer.kind = .rightParen} {inner : Derivation .formula} (hinner : Unique inner) :
    Unique (.group opener closer hopener hcloser inner) := by
  intro d' behind behind' _ _ h
  cases d' with
  | group opener' closer' hopener' hcloser' inner' =>
    simp only [Derivation.tokens, List.cons_append, List.append_assoc, List.cons.injEq,
      List.nil_append] at h
    obtain ⟨rfl, h⟩ := h
    obtain ⟨rfl, htail⟩ :=
      hinner inner' _ _ (.of_rightParen hcloser) (.of_rightParen hcloser') h
    obtain ⟨rfl, rfl⟩ := List.cons.inj htail
    exact ⟨rfl, rfl⟩
  | _ => exact absurd (kind_eq_of_cons h hopener ‹_›) (by decide)

lemma unique_noArguments : Unique .noArguments := by
  intro d' behind behind' hend _ h
  cases d' with
  | noArguments => exact ⟨rfl, h⟩
  | someArguments first' rest' =>
    obtain ⟨closer, tail, rfl, hcloser⟩ := hend
    exact absurd hcloser (first'.ne_rightParen_of_cons (h.trans (List.append_assoc ..)))

lemma unique_someArguments {first : Derivation .formula} {rest : Derivation .moreArguments}
    (hfirst : Unique first) (hrest : Unique rest) : Unique (.someArguments first rest) := by
  intro d' behind behind' hend hend' h
  cases d' with
  | noArguments =>
    obtain ⟨closer, tail, rfl, hcloser⟩ := hend'
    exact absurd hcloser (first.ne_rightParen_of_cons (h.symm.trans (List.append_assoc ..)))
  | someArguments first' rest' =>
    simp only [Derivation.tokens, List.append_assoc] at h
    obtain ⟨rfl, htail⟩ :=
      hfirst first' _ _ (rest.endsAt_moreArguments hend) (rest'.endsAt_moreArguments hend') h
    obtain ⟨rfl, rfl⟩ := hrest rest' _ _ hend hend' htail
    exact ⟨rfl, rfl⟩

lemma unique_noMore : Unique .noMore := by
  intro d' behind behind' hend _ h
  cases d' with
  | noMore => exact ⟨rfl, h⟩
  | more comma' hcomma' argument' rest' =>
    obtain ⟨closer, tail, rfl, hcloser⟩ := hend
    exact absurd (kind_eq_of_cons h hcloser hcomma') (by decide)

lemma unique_more {comma : Token} {hcomma : comma.kind = .comma} {argument : Derivation .formula}
    {rest : Derivation .moreArguments} (hargument : Unique argument) (hrest : Unique rest) :
    Unique (.more comma hcomma argument rest) := by
  intro d' behind behind' hend hend' h
  cases d' with
  | noMore =>
    obtain ⟨closer, tail, rfl, hcloser⟩ := hend'
    exact absurd (kind_eq_of_cons h hcomma hcloser) (by decide)
  | more comma' hcomma' argument' rest' =>
    simp only [Derivation.tokens, List.cons_append, List.append_assoc, List.cons.injEq] at h
    obtain ⟨rfl, h⟩ := h
    obtain ⟨rfl, htail⟩ := hargument argument' _ _ (rest.endsAt_moreArguments hend)
      (rest'.endsAt_moreArguments hend') h
    obtain ⟨rfl, rfl⟩ := hrest rest' _ _ hend hend' htail
    exact ⟨rfl, rfl⟩

/-- The induction over the derivation, one lemma for each rule. -/
theorem unique {p : Nonterminal} (d : Derivation p) : Unique d := by
  induction d with
  | chain first rest ihf ihr => exact unique_chain ihf ihr
  | noLink => exact unique_noLink
  | link operator op hop operand rest iho ihr => exact unique_link iho ihr
  | negation operator hnot operand ih => exact unique_negation ih
  | positive inner ih => exact unique_positive ih
  | comparing left operator op hop right ihl ihr => exact unique_comparing ihl ihr
  | single inner ih => exact unique_single ih
  | opposite operator hminus operand ih => exact unique_opposite ih
  | unsigned inner ih => exact unique_unsigned ih
  | number token hkind => exact unique_number
  | field name hkind => exact unique_field
  | call name opener closer hname hopener hcloser args ih => exact unique_call ih
  | group opener closer hopener hcloser inner ih => exact unique_group ih
  | noArguments => exact unique_noArguments
  | someArguments first rest ihf ihr => exact unique_someArguments ihf ihr
  | noMore => exact unique_noMore
  | more comma hcomma argument rest iha ihr => exact unique_more iha ihr

end MarketFormula.Grammar
