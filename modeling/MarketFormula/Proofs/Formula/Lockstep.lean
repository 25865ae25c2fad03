import MarketFormula.Proofs.Formula.Onward
import MarketFormula.Proofs.Formula.Spelling

/-!
# Two formulas read side by side

Readers look at the kinds of tokens and at the next token only. Over tokens that correspond one by
one they return trees that differ in the places of their nodes only.
-/
namespace MarketFormula

/-- Trees that differ in the places of their nodes only, and correspond in these. -/
inductive Expr.Twin (place : Int → Int → Prop) : Expr → Expr → Prop
  | binary {left left' right right' : Expr} {position position' : Int} (op : BinaryOp)
    (hleft : Twin place left left') (hright : Twin place right right')
    (h : place position position') :
    Twin place (.binary op left right position) (.binary op left' right' position')
  | unary {operand operand' : Expr} {position position' : Int} (op : UnaryOp)
    (hoperand : Twin place operand operand') (h : place position position') :
    Twin place (.unary op operand position) (.unary op operand' position')
  | literal {position position' : Int} (token : Token) (h : place position position') :
    Twin place (.literal token.value position) (.literal token.value position')
  | field {position position' : Int} (name : String) (h : place position position') :
    Twin place (.field name position) (.field name position')
  | call {args args' : List Expr} {position position' : Int} (name : String)
    (hargs : List.Forall₂ (Twin place) args args') (h : place position position') :
    Twin place (.call name args position) (.call name args' position')

/-- Which tokens of two formulas correspond, how many of the first one at its end may correspond to
none, and the lengths of the formulas. -/
structure Pairing where
  partner : Token → Token → Prop
  loose : Nat
  finish : Nat
  finish' : Nat
  respells {token token' : Token} (h : partner token token') : Token.Respells token token'

namespace Pairing

variable (p : Pairing)

/-- Corresponding lists, up to the loose end of the first one. -/
inductive Alike : List Token → List Token → Prop
  | nil : Alike [] []
  | cons {token token' : Token} {rest rest' : List Token} (h : p.partner token token')
    (hrest : Alike rest rest') : Alike (token :: rest) (token' :: rest')
  | loose {rest rest' : List Token} (h : rest.length < p.loose) : Alike rest rest'

structure Abreast (c c' : Cursor) : Prop where
  rest : p.Alike c.rest c'.rest
  finish : c.finish = p.finish
  finish' : c'.finish = p.finish'

def Place (position position' : Int) : Prop :=
  ∃ token token', p.partner token token' ∧ position = token.position ∧ position' = token'.position

/-- Faults at corresponding tokens or at both ends. -/
inductive SamePlace (e e' : FormulaError) : Prop
  | token {position position' : Int} (h : e.position? = some position)
    (h' : e'.position? = some position') (hplace : p.Place position position')
  | finish (h : e.token? = some "" ∧ e.position? = some (p.finish : Int))
    (h' : e'.token? = some "" ∧ e'.position? = some (p.finish' : Int))

end Pairing

namespace Pairing

variable {p : Pairing}

lemma Abreast.next {c c' : Cursor} (h : p.Abreast c c') :
    c.rest.length < p.loose ∨ (c.rest = [] ∧ c'.rest = []) ∨
      ∃ token token' m m', c.next? = some (token, m) ∧ c'.next? = some (token', m') ∧
        p.partner token token' ∧ p.Abreast m m' := by
  obtain ⟨hrest, hfinish, hfinish'⟩ := h
  rcases c with ⟨seen, rest, finish⟩
  rcases c' with ⟨seen', rest', finish'⟩
  cases hrest with
  | nil => exact .inr (.inl ⟨rfl, rfl⟩)
  | cons h hrest => exact .inr (.inr ⟨_, _, _, _, rfl, rfl, h, hrest, hfinish, hfinish'⟩)
  | loose h => exact .inl h

/-- Results at cursors that are abreast or faults at the same place, unless the first reader went on
into the loose end. -/
inductive Lock (p : Pairing) {α : Type} (P : α → α → Prop) :
    Except Stop (α × Cursor) → Except Stop (α × Cursor) → Prop
  | ok {a a' : α} {c c' : Cursor} (h : P a a') (hc : p.Abreast c c') :
    Lock p P (.ok (a, c)) (.ok (a', c'))
  | error {stop stop' : Stop} (h : p.SamePlace stop.error stop'.error) :
    Lock p P (.error stop) (.error stop')
  | loose {x x' : Except Stop (α × Cursor)} (h : remaining x < p.loose) : Lock p P x x'

lemma Lock.bind {α β : Type} {P : α → α → Prop} {Q : β → β → Prop} {x x' : Except Stop (α × Cursor)}
    {f f' : α × Cursor → Except Stop (β × Cursor)} (h : p.Lock P x x')
    (hf : ∀ a m a' m', x = .ok (a, m) → x' = .ok (a', m') → P a a' → p.Abreast m m' →
      p.loose ≤ m.rest.length → p.Lock Q (f (a, m)) (f' (a', m')))
    (honward : ∀ a m, Onward m (f (a, m))) : p.Lock Q (x >>= f) (x' >>= f') := by
  cases h with
  | @ok a a' m m' h hc =>
    rcases Nat.lt_or_ge m.rest.length p.loose with hloose | hle
    · exact .loose ((honward a m).trans_lt hloose)
    · exact hf a m a' m' rfl rfl h hc hle
  | error h => exact .error h
  | loose h =>
    refine .loose (lt_of_le_of_lt ?_ h)
    cases x with
    | ok result => exact honward result.1 result.2
    | error stop => exact le_rfl

/-- A reader keeps pace on both lists. -/
def Keeps (p : Pairing) (reader : Reader) : Prop :=
  ∀ c c', p.Abreast c c' → p.Lock (Expr.Twin p.Place) (reader c) (reader c')

lemma place {token token' : Token} (h : p.partner token token') :
    p.Place token.position token'.position :=
  ⟨token, token', h, rfl, rfl⟩

section Combinators

open Grammar

variable {budget : Nat}

lemma next?_eq_none {c : Cursor} (h : c.rest = []) : c.next? = none := by
  rw [Cursor.next?, h]

lemma exists_less {rounds : Nat} {c m : Cursor} {token : Token} (hrounds : c.rest.length ≤ rounds)
    (hnext : c.next? = some (token, m)) : ∃ less, m.rest.length ≤ less ∧ rounds = less + 1 := by
  have hlength := congrArg List.length (Cursor.rest_of_next? hnext)
  rw [List.length_cons] at hlength
  exact ⟨rounds - 1, by omega, by omega⟩

lemma chain_of_nil {op? : TokenKind → Option BinaryOp} {operand : Reader} (rounds : Nat)
    (left : Expr) {c : Cursor} (h : c.rest = []) :
    Reader.chain op? operand rounds left c = .ok (left, c) := by
  cases rounds with
  | zero => rfl
  | succ rounds => rw [Reader.chain, next?_eq_none h]

lemma chain_of_none {op? : TokenKind → Option BinaryOp} {operand : Reader} (rounds : Nat)
    (left : Expr) {c m : Cursor} {token : Token} (hnext : c.next? = some (token, m))
    (hop : op? token.kind = none) :
    Reader.chain op? operand rounds left c = .ok (left, c) := by
  cases rounds with
  | zero => rfl
  | succ rounds => simp only [Reader.chain, hnext, hop]

lemma chain_of_some {op? : TokenKind → Option BinaryOp} {operand : Reader} {rounds : Nat}
    (left : Expr) {c m : Cursor} {token : Token} {op : BinaryOp}
    (hrounds : c.rest.length ≤ rounds) (hnext : c.next? = some (token, m))
    (hop : op? token.kind = some op) :
    ∃ less, m.rest.length ≤ less ∧ rounds = less + 1 ∧
      Reader.chain op? operand rounds left c = (do
        let (right, c') ← operand m
        Reader.chain op? operand less (.binary op left right token.position) c') := by
  obtain ⟨less, hless, rfl⟩ := exists_less hrounds hnext
  refine ⟨less, hless, rfl, ?_⟩
  simp only [Reader.chain, hnext, hop]

lemma lock_chain {chain : Chain} {operand : Reader} (hcareful : Careful chain.operand budget operand)
    (hkeeps : p.Keeps operand) (rounds rounds' : Nat) (left left' : Expr) (c c' : Cursor)
    (hleft : left.Twin p.Place left') (hc : p.Abreast c c') (hrounds : c.rest.length ≤ rounds)
    (hrounds' : c'.rest.length ≤ rounds') :
    p.Lock (Expr.Twin p.Place) (Reader.chain chain.op? operand rounds left c)
      (Reader.chain chain.op? operand rounds' left' c') := by
  induction rounds using Nat.strong_induction_on generalizing rounds' left left' c c' with
  | _ rounds ih =>
    rcases hc.next with hloose | ⟨hnil, hnil'⟩ | ⟨token, token', m, m', hnext, hnext', hpartner, hm⟩
    · exact .loose ((hcareful.onward_chain rounds left c).trans_lt hloose)
    · rw [chain_of_nil rounds left hnil, chain_of_nil rounds' left' hnil']
      exact .ok hleft hc
    have hkind := (p.respells hpartner).1
    cases hop : chain.op? token.kind with
    | none =>
      rw [chain_of_none rounds left hnext hop, chain_of_none rounds' left' hnext' (hkind ▸ hop)]
      exact .ok hleft hc
    | some op =>
      obtain ⟨less, hless, rfl, hchain⟩ := chain_of_some left hrounds hnext hop
      obtain ⟨less', hless', -, hchain'⟩ := chain_of_some left' hrounds' hnext' (hkind ▸ hop)
      rw [hchain, hchain']
      refine (hkeeps m m' hm).bind (fun right k right' k' hx hx' hright hk _ => ?_)
        fun right k => hcareful.onward_chain ..
      exact ih less (Nat.lt_succ_self _) _ _ _ _ _ (.binary op hleft hright (place hpartner)) hk
        ((hcareful.length_le hx).trans hless) ((hcareful.length_le hx').trans hless')

lemma keeps_leftAssociative (chain : Chain) {operand : Reader}
    (hcareful : Careful chain.operand budget operand) (hkeeps : p.Keeps operand) :
    p.Keeps (Reader.leftAssociative chain.op? operand) := fun c c' hc =>
  (hkeeps c c' hc).bind
    (fun _ m _ m' _ _ h hm _ => lock_chain hcareful hkeeps _ _ _ _ m m' h hm le_rfl le_rfl)
    fun _ _ => hcareful.onward_chain ..

lemma moreArguments_of_nil {argument : Reader} (rounds : Nat) {c : Cursor} (h : c.rest = []) :
    Reader.moreArguments argument rounds c = .ok ([], c) := by
  cases rounds with
  | zero => rfl
  | succ rounds => rw [Reader.moreArguments, next?_eq_none h]

lemma moreArguments_of_ne {argument : Reader} (rounds : Nat) {c m : Cursor} {token : Token}
    (hnext : c.next? = some (token, m)) (hcomma : token.kind ≠ .comma) :
    Reader.moreArguments argument rounds c = .ok ([], c) := by
  cases rounds with
  | zero => rfl
  | succ rounds => simp only [Reader.moreArguments, hnext, hcomma, if_false]

lemma moreArguments_of_comma {argument : Reader} {rounds : Nat} {c m : Cursor} {token : Token}
    (hrounds : c.rest.length ≤ rounds) (hnext : c.next? = some (token, m))
    (hcomma : token.kind = .comma) :
    ∃ less, m.rest.length ≤ less ∧ rounds = less + 1 ∧
      Reader.moreArguments argument rounds c = (do
        let (arg, c') ← argument m
        let (args, c'') ← Reader.moreArguments argument less c'
        return (arg :: args, c'')) := by
  obtain ⟨less, hless, rfl⟩ := exists_less hrounds hnext
  refine ⟨less, hless, rfl, ?_⟩
  simp only [Reader.moreArguments, hnext, hcomma, if_true]

lemma lock_moreArguments {argument : Reader} (hcareful : Careful (.chain .or) budget argument)
    (hkeeps : p.Keeps argument) (rounds rounds' : Nat) (c c' : Cursor) (hc : p.Abreast c c')
    (hrounds : c.rest.length ≤ rounds) (hrounds' : c'.rest.length ≤ rounds') :
    p.Lock (List.Forall₂ (Expr.Twin p.Place)) (Reader.moreArguments argument rounds c)
      (Reader.moreArguments argument rounds' c') := by
  induction rounds using Nat.strong_induction_on generalizing rounds' c c' with
  | _ rounds ih =>
    rcases hc.next with hloose | ⟨hnil, hnil'⟩ | ⟨token, token', m, m', hnext, hnext', hpartner, hm⟩
    · exact .loose ((hcareful.onward_moreArguments rounds c).trans_lt hloose)
    · rw [moreArguments_of_nil rounds hnil, moreArguments_of_nil rounds' hnil']
      exact .ok .nil hc
    have hkind := (p.respells hpartner).1
    by_cases hcomma : token.kind = .comma
    · obtain ⟨less, hless, rfl, hmore⟩ := moreArguments_of_comma hrounds hnext hcomma
      obtain ⟨less', hless', -, hmore'⟩ := moreArguments_of_comma hrounds' hnext' (hkind ▸ hcomma)
      rw [hmore, hmore']
      refine (hkeeps m m' hm).bind (fun arg k arg' k' hx hx' harg hk _ => ?_) fun arg k =>
        (hcareful.onward_moreArguments ..).bind fun _ _ => le_rfl
      refine (ih less (Nat.lt_succ_self _) _ _ _ hk ((hcareful.length_le hx).trans hless)
        ((hcareful.length_le hx').trans hless')).bind (fun _ _ _ _ _ _ hargs hk _ => ?_)
        fun _ _ => le_rfl
      exact .ok (.cons harg hargs) hk
    · rw [moreArguments_of_ne rounds hnext hcomma,
        moreArguments_of_ne rounds' hnext' (hkind ▸ hcomma)]
      exact .ok .nil hc

lemma lock_arguments {argument : Reader} (hcareful : Careful (.chain .or) budget argument)
    (hkeeps : p.Keeps argument) (c c' : Cursor) (hc : p.Abreast c c') :
    p.Lock (List.Forall₂ (Expr.Twin p.Place)) (Reader.arguments argument c)
      (Reader.arguments argument c') := by
  rcases hc.next with hloose | ⟨hnil, hnil'⟩ | ⟨token, token', m, m', hnext, hnext', hpartner, hm⟩
  · exact .loose ((hcareful.onward_arguments c).trans_lt hloose)
  · simp only [Reader.arguments, hnil, hnil']
    exact .ok .nil hc
  have hkind := (p.respells hpartner).1
  simp only [Reader.arguments, Cursor.rest_of_next? hnext, Cursor.rest_of_next? hnext', ← hkind]
  split
  · exact .ok .nil hc
  · refine (hkeeps c c' hc).bind (fun arg k arg' k' _ _ harg hk _ => ?_) fun arg k =>
      (hcareful.onward_moreArguments ..).bind fun _ _ => le_rfl
    refine (lock_moreArguments hcareful hkeeps _ _ _ _ hk le_rfl le_rfl).bind
      (fun _ _ _ _ _ _ hargs hk _ => ?_) fun _ _ => le_rfl
    exact .ok (.cons harg hargs) hk

lemma lock_close {α : Type} {P : α → α → Prop} (depth : Nat) (description description' : String)
    {c c' : Cursor} (hc : p.Abreast c c') {a a' : α} (h : P a a') :
    p.Lock P (do
      let m ← Reader.close depth description c
      return (a, m)) (do
      let m' ← Reader.close depth description' c'
      return (a', m')) := by
  rcases hc.next with hloose | ⟨hnil, hnil'⟩ | ⟨token, token', m, m', hnext, hnext', hpartner, hm⟩
  · exact .loose ((Onward.close depth description c a).trans_lt hloose)
  · simp only [Reader.close, Cursor.expect, next?_eq_none hnil, next?_eq_none hnil']
    exact .error (.finish ⟨rfl, by rw [← hc.finish]; rfl⟩ ⟨rfl, by rw [← hc.finish']; rfl⟩)
  have hkind := (p.respells hpartner).1
  simp only [Reader.close, Cursor.expect, hnext, hnext', ← hkind]
  by_cases hparen : token.kind = .rightParen
  · simp only [hparen, beq_self_eq_true, if_true]
    exact .ok h hm
  · simp only [beq_iff_eq, hparen, if_false]
    exact .error (.token rfl rfl (place hpartner))

lemma lock_deepen {α : Type} {P : α → α → Prop} {depth : Nat} {deeper : Option Readers}
    {opener opener' : Token} (hopener : p.partner opener opener') {c c' : Cursor}
    {f f' : Readers → Except Stop (α × Cursor)}
    (hf : ∀ readers, deeper = some readers → p.Lock P (f readers) (f' readers)) :
    p.Lock P (Reader.deepen depth deeper opener c >>= f)
      (Reader.deepen depth deeper opener' c' >>= f') := by
  cases deeper with
  | none => exact .error (.token rfl rfl (place hopener))
  | some readers => exact hf readers rfl

end Combinators

section Level

open Grammar

variable {budget : Nat} (depth : Nat) {deeper : Option Readers}
  (hdeeper : ∀ readers, deeper = some readers → ∃ less, less + 1 ≤ budget ∧
    ∀ level, Careful level less (readers.get level) ∧ p.Keeps (readers.get level))

include hdeeper

omit depth in
lemma careful_deeper (readers : Readers) (h : deeper = some readers) :
    ∃ less, less + 1 ≤ budget ∧ ∀ level, Careful level less (readers.get level) := by
  obtain ⟨less, hless, hlevel⟩ := hdeeper readers h
  exact ⟨less, hless, fun level => (hlevel level).1⟩

lemma lock_call {name name' : Token} (hname : p.partner name name') (hkind : name.kind = .name)
    {c c' : Cursor} (hc : p.Abreast c c') :
    p.Lock (Expr.Twin p.Place) (Reader.call depth deeper name c)
      (Reader.call depth deeper name' c') := by
  have htext := (p.respells hname).2 (.inr hkind)
  refine lock_deepen hname fun inner hinner => ?_
  obtain ⟨less, -, hlevel⟩ := hdeeper inner hinner
  obtain ⟨hcareful, hkeeps⟩ := hlevel (.chain .or)
  refine (lock_arguments hcareful hkeeps c c' hc).bind (fun args m args' m' _ _ hargs hm _ => ?_)
    fun args m => .close depth _ m _
  refine lock_close depth _ _ hm ?_
  rw [← htext]
  exact .call name.text hargs (place hname)

lemma keeps_primary : p.Keeps (Reader.primary depth deeper) := by
  intro c c' hc
  have honward := (careful_over depth (careful_deeper hdeeper) .primary).onward c
  rcases hc.next with hloose | ⟨hnil, hnil'⟩ | ⟨token, token', m, m', hnext, hnext', hpartner, hm⟩
  · exact .loose (honward.trans_lt hloose)
  · simp only [Reader.primary, next?_eq_none hnil, next?_eq_none hnil']
    exact .error (.finish ⟨rfl, by rw [← hc.finish]; rfl⟩ ⟨rfl, by rw [← hc.finish']; rfl⟩)
  obtain ⟨hkind, htext⟩ := p.respells hpartner
  simp only [Reader.primary, hnext, hnext', ← hkind]
  cases hk : token.kind with
  | number =>
    refine .ok ?_ hm
    rw [Token.value, Token.value, ← htext (.inl hk)]
    exact .literal token (place hpartner)
  | name =>
    have hfield : (Expr.field token.text token.position).Twin p.Place
        (.field token'.text token'.position) := by
      rw [← htext (.inr hk)]
      exact .field token.text (place hpartner)
    obtain hloose | ⟨hnil, hnil'⟩ | ⟨paren, paren', k, k', hparen, hparen', hpair, hk'⟩ := hm.next
    · refine .loose (lt_of_le_of_lt ?_ hloose)
      dsimp only
      split
      · next paren k hparen =>
        split
        · exact (onward_call depth (careful_deeper hdeeper) token k).next hparen
        · exact le_rfl
      · exact le_rfl
    · simp only [next?_eq_none hnil, next?_eq_none hnil']
      exact .ok hfield hm
    · simp only [hparen, hparen', ← (p.respells hpair).1]
      split
      · exact lock_call depth hdeeper hpartner hk hk'
      · exact .ok hfield hm
  | leftParen =>
    refine lock_deepen hpartner fun inner hinner => ?_
    obtain ⟨less, -, hlevel⟩ := hdeeper inner hinner
    refine ((hlevel (.chain .or)).2 m m' hm).bind (fun e k e' k' _ _ he hk _ => ?_)
      fun e k => .close depth _ k _
    exact lock_close depth _ _ hk he
  | _ => exact .error (.token rfl rfl (place hpartner))

lemma lock_operator (level : Level) {operator operator' : Token}
    (hoperator : p.partner operator operator') {c c' : Cursor} (hc : p.Abreast c c')
    (op : UnaryOp) :
    p.Lock (Expr.Twin p.Place)
      (do
        let inner ← Reader.deepen depth deeper operator c
        let (e, m) ← inner.get level c
        return (.unary op e operator.position, m))
      (do
        let inner ← Reader.deepen depth deeper operator' c'
        let (e, m) ← inner.get level c'
        return (.unary op e operator'.position, m)) := by
  refine lock_deepen hoperator fun inner hinner => ?_
  obtain ⟨less, -, hlevel⟩ := hdeeper inner hinner
  refine ((hlevel level).2 c c' hc).bind (fun e m e' m' _ _ he hm _ => ?_) fun e m => le_rfl
  exact .ok (.unary op he (place hoperator)) hm

lemma keeps_unary : p.Keeps (Reader.unary depth deeper) := by
  intro c c' hc
  have hprimary := keeps_primary depth hdeeper c c' hc
  have honward := (careful_over depth (careful_deeper hdeeper) .unary).onward c
  obtain hloose | ⟨hnil, hnil'⟩ | ⟨token, token', m, m', hnext, hnext', hpartner, hm⟩ := hc.next
  · exact .loose (honward.trans_lt hloose)
  · simp only [Reader.unary, next?_eq_none hnil, next?_eq_none hnil']
    exact hprimary
  simp only [Reader.unary, hnext, hnext', ← (p.respells hpartner).1]
  split
  · exact lock_operator depth hdeeper .unary hpartner hm .neg
  · exact hprimary

lemma keeps_additive : p.Keeps (Reader.additive depth deeper) :=
  have hcareful := careful_over depth (careful_deeper hdeeper)
  keeps_leftAssociative .additive (hcareful (.chain .term))
    (keeps_leftAssociative .term (hcareful .unary) (keeps_unary depth hdeeper))

omit hdeeper in
lemma lock_single {e e' : Expr} {c c' : Cursor} (hc : p.Abreast c c') (he : e.Twin p.Place e') :
    p.Lock (Expr.Twin p.Place)
      (match c.rest with
      | second :: _ =>
        if second.kind.isComparison then .error ⟨.chainedComparison second, c, depth⟩ else .ok (e, c)
      | [] => .ok (e, c))
      (match c'.rest with
      | second :: _ =>
        if second.kind.isComparison then .error ⟨.chainedComparison second, c', depth⟩
        else .ok (e', c')
      | [] => .ok (e', c')) := by
  obtain hloose | ⟨hnil, hnil'⟩ | ⟨second, second', _, _, hnext, hnext', hpair, -⟩ := hc.next
  · exact .loose ((onward_single depth e c).trans_lt hloose)
  · simp only [hnil, hnil']
    exact .ok he hc
  · simp only [Cursor.rest_of_next? hnext, Cursor.rest_of_next? hnext', ← (p.respells hpair).1]
    split
    · exact .error (.token rfl rfl (place hpair))
    · exact .ok he hc

lemma keeps_comparison : p.Keeps (Reader.comparison depth deeper) := by
  intro c c' hc
  have hkeeps := keeps_additive depth hdeeper
  have honward := (careful_over depth (careful_deeper hdeeper) (.chain .additive)).onward
  refine (hkeeps c c' hc).bind (fun left m left' m' _ _ hleft hm hle => ?_) fun left m => ?_
  · obtain hloose | ⟨hnil, hnil'⟩ | ⟨token, token', k, k', hnext, hnext', hpartner, hk⟩ := hm.next
    · exact absurd hloose hle.not_gt
    · simp only [next?_eq_none hnil, next?_eq_none hnil']
      exact .ok hleft hm
    simp only [hnext, hnext', ← (p.respells hpartner).1]
    cases hop : token.kind.comparisonOp? with
    | none => exact .ok hleft hm
    | some op =>
      exact (hkeeps k k' hk).bind (fun right b right' b' _ _ hright hb _ =>
        lock_single depth hb (.binary op hleft hright (place hpartner)))
        fun right b => onward_single depth _ b
  · dsimp only
    split
    · next token k hnext =>
      split
      · next op hop =>
        exact ((honward k).bind fun right =>
          onward_single depth (.binary op left right token.position)).next hnext
      · exact le_rfl
    · exact le_rfl

lemma keeps_notExpr : p.Keeps (Reader.notExpr depth deeper) := by
  intro c c' hc
  have hcomparison := keeps_comparison depth hdeeper c c' hc
  have honward := (careful_over depth (careful_deeper hdeeper) .not).onward c
  obtain hloose | ⟨hnil, hnil'⟩ | ⟨token, token', m, m', hnext, hnext', hpartner, hm⟩ := hc.next
  · exact .loose (honward.trans_lt hloose)
  · simp only [Reader.notExpr, next?_eq_none hnil, next?_eq_none hnil']
    exact hcomparison
  simp only [Reader.notExpr, hnext, hnext', ← (p.respells hpartner).1]
  split
  · exact lock_operator depth hdeeper .not hpartner hm .not
  · exact hcomparison

lemma keeps_over (level : Level) : p.Keeps ((Readers.over depth deeper).get level) := by
  -- from the tightest level to the loosest
  have hcareful := careful_over depth (careful_deeper hdeeper)
  have hand : p.Keeps (Reader.andExpr depth deeper) :=
    keeps_leftAssociative .and (hcareful .not) (keeps_notExpr depth hdeeper)
  cases level with
  | chain chain =>
    cases chain with
    | or => exact keeps_leftAssociative .or (hcareful (.chain .and)) hand
    | and => exact hand
    | additive => exact keeps_additive depth hdeeper
    | term =>
      exact keeps_leftAssociative .term (hcareful .unary) (keeps_unary depth hdeeper)
  | not => exact keeps_notExpr depth hdeeper
  | comparison => exact keeps_comparison depth hdeeper
  | unary => exact keeps_unary depth hdeeper
  | primary => exact keeps_primary depth hdeeper

end Level

/-- The induction over the levels that may still be opened. -/
theorem keeps_within (budget depth : Nat) (level : Grammar.Level) :
    p.Keeps ((Readers.within budget depth).get level) := by
  induction budget generalizing depth level with
  | zero =>
    refine @keeps_over p 0 depth none (fun readers hreaders => ?_) level
    cases hreaders
  | succ budget ih =>
    have hinner (level : Grammar.Level) :
        Grammar.Careful level budget ((Readers.within budget (depth + 1)).get level) ∧
          p.Keeps ((Readers.within budget (depth + 1)).get level) :=
      ⟨Grammar.careful_within budget (depth + 1) level, ih (depth + 1) level⟩
    refine @keeps_over p (budget + 1) depth _ (fun readers hreaders => ?_) level
    cases hreaders
    exact ⟨budget, le_rfl, hinner⟩

theorem lock_formula {c c' : Cursor} (hc : p.Abreast c c') (hempty : c.tokens.isEmpty = false)
    (hempty' : c'.tokens.isEmpty = false) :
    p.Lock (Expr.Twin p.Place) (Reader.formula 0 c) (Reader.formula 0 c') := by
  have hkeeps := keeps_within (p := p) maxNesting 0 (.chain .or) c c' hc
  unfold Reader.formula
  rw [hempty, hempty', if_neg (by decide), if_neg (by decide)]
  refine hkeeps.bind (fun e m e' m' _ _ he hm hle => ?_) fun e m => ?_
  · obtain hloose | ⟨hnil, hnil'⟩ | ⟨token, token', _, _, hnext, hnext', hpartner, -⟩ := hm.next
    · exact absurd hloose hle.not_gt
    · simp only [hnil, hnil']
      exact .ok he hm
    · simp only [Cursor.rest_of_next? hnext, Cursor.rest_of_next? hnext',
        ← (p.respells hpartner).1]
      split <;> exact .error (.token rfl rfl (place hpartner))
  · dsimp only
    split
    · exact le_rfl
    · split <;> exact le_rfl

end Pairing

end MarketFormula
