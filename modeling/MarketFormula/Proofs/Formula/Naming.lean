import MarketFormula.Proofs.Formula.Halting

/-!
# Faults name the tokens of the formula

A reader that stops for want of a token gives the end of the formula as the place. Otherwise its
fault is about a token of the formula: the one that does not fit, or the one that opens a level too
many.
-/
namespace MarketFormula

/-- The fault is one of reading these tokens and names one of them, or the end if it lacks one. -/
def FormulaError.Names (tokens : List Token) (finish : Nat) : FormulaError → Prop
  | emptyFormula => tokens = []
  | unexpectedEnd position | expectedAtEnd _ position | missingOperand _ position =>
    position = finish
  | expected _ found | notAnOperand found | chainedComparison found
  | unbalancedParenthesis found | trailing found => found ∈ tokens
  | nestedTooDeeply text position =>
    ∃ token ∈ tokens, text = token.text ∧ position = token.position
  | _ => False

namespace Cursor

variable {c c' : Cursor} {token : Token}

lemma mem_tokens_of_rest {rest : List Token} (h : c.rest = token :: rest) : token ∈ c.tokens := by
  rw [tokens, h]
  exact List.mem_append_right _ (List.mem_cons_self ..)

lemma mem_tokens_of_next? (h : c.next? = some (token, c')) : token ∈ c'.tokens := by
  rw [tokens_of_next? h]
  exact mem_tokens_of_rest (rest_of_next? h)

lemma Reads.tokens_eq {xs : List Token} (h : c.Reads xs c') : c'.tokens = c.tokens := by
  induction xs generalizing c with
  | nil => rw [h]
  | cons x xs ih =>
    obtain ⟨m, hnext, h⟩ := h
    rw [ih h, tokens_of_next? hnext]

end Cursor

/-- What a reader returns, or a fault that names a token where it stopped. -/
def Naming {α : Type} (x : Except Stop α) : Prop :=
  ∀ stop, x = .error stop → stop.error.Names stop.cursor.tokens stop.cursor.finish

namespace Naming

variable {α β : Type} {x : Except Stop α}

lemma ok (a : α) : Naming (.ok a : Except Stop α) := by
  rintro stop ⟨⟩

lemma error {stop : Stop} (h : stop.error.Names stop.cursor.tokens stop.cursor.finish) :
    Naming (.error stop : Except Stop α) := by
  rintro _ ⟨⟩
  exact h

lemma bind {f : α → Except Stop β} (h : Naming x) (hf : ∀ a, x = .ok a → Naming (f a)) :
    Naming (x >>= f) := by
  intro stop hstop
  obtain hx | ⟨a, hx, hstop⟩ := bind_eq_error_iff.mp hstop
  · exact h stop hx
  · exact hf a hx stop hstop

end Naming

namespace Reader

section Combinators

lemma naming_chain {op? : TokenKind → Option BinaryOp} {operand : Reader}
    (hoperand : ∀ c, Naming (operand c)) (rounds : Nat) (left : Expr) (c : Cursor) :
    Naming (chain op? operand rounds left c) := by
  induction rounds generalizing left c with
  | zero => exact .ok _
  | succ rounds ih =>
    rw [chain]
    split
    · split
      · exact (hoperand _).bind fun result _ => ih _ result.2
      · exact .ok _
    · exact .ok _

lemma naming_leftAssociative {op? : TokenKind → Option BinaryOp} {operand : Reader}
    (hoperand : ∀ c, Naming (operand c)) (c : Cursor) :
    Naming (leftAssociative op? operand c) :=
  (hoperand c).bind fun result _ => naming_chain hoperand _ _ result.2

lemma naming_moreArguments {argument : Reader} (hargument : ∀ c, Naming (argument c))
    (rounds : Nat) (c : Cursor) : Naming (moreArguments argument rounds c) := by
  induction rounds generalizing c with
  | zero => exact .ok _
  | succ rounds ih =>
    rw [moreArguments]
    split
    · split
      · refine (hargument _).bind fun result _ => ?_
        exact (ih result.2).bind fun _ _ => .ok _
      · exact .ok _
    · exact .ok _

lemma naming_arguments {argument : Reader} (hargument : ∀ c, Naming (argument c)) (c : Cursor) :
    Naming (arguments argument c) := by
  unfold arguments
  split
  · exact .ok _
  · split
    · exact .ok _
    · refine (hargument c).bind fun result _ => ?_
      exact (naming_moreArguments hargument _ result.2).bind fun _ _ => .ok _

lemma naming_deepen {depth : Nat} {deeper : Option Readers} {opener : Token} {c : Cursor}
    (h : opener ∈ c.tokens) : Naming (deepen depth deeper opener c) := by
  cases deeper with
  | some readers => exact .ok _
  | none => exact .error ⟨opener, h, rfl, rfl⟩

lemma naming_close (depth : Nat) (description : String) (c : Cursor) :
    Naming (close depth description c) := by
  rcases c with ⟨seen, _ | ⟨token, rest⟩, finish⟩
  · exact .error rfl
  · simp only [close, Cursor.expect, Cursor.next?_mk_cons]
    cases token.kind == .rightParen with
    | true => exact .ok _
    | false => exact .error (Cursor.mem_tokens_of_rest rfl)

end Combinators

section Level

variable (depth : Nat) {deeper : Option Readers}
  (hdeeper : ∀ readers, deeper = some readers → ∀ level c, Naming (readers.get level c))

include hdeeper

lemma naming_deeper {opener : Token} {m : Cursor} (h : opener ∈ m.tokens) {α : Type}
    {f : Readers → Except Stop α}
    (hf : ∀ readers, (∀ level c, Naming (readers.get level c)) → Naming (f readers)) :
    Naming (deepen depth deeper opener m >>= f) := by
  refine (naming_deepen h).bind fun readers hreaders => hf readers ?_
  cases hdeep : deeper with
  | none =>
    rw [hdeep] at hreaders
    cases hreaders
  | some readers' =>
    rw [hdeep] at hreaders
    cases hreaders
    exact hdeeper _ hdeep

lemma naming_call {name : Token} {c : Cursor} (h : name ∈ c.tokens) :
    Naming (call depth deeper name c) := by
  refine naming_deeper depth hdeeper h fun inner hinner => ?_
  refine (naming_arguments (hinner (.chain .or)) c).bind fun result _ => ?_
  exact (naming_close depth _ result.2).bind fun _ _ => .ok _

lemma naming_primary (c : Cursor) : Naming (primary depth deeper c) := by
  unfold primary
  split
  · exact .error rfl
  · next token m hnext =>
    have htoken := Cursor.mem_tokens_of_next? hnext
    split
    · exact .ok _
    · split
      · next paren m' hnext' =>
        split
        · exact naming_call depth hdeeper (by rwa [Cursor.tokens_of_next? hnext'])
        · exact .ok _
      · exact .ok _
    · refine naming_deeper depth hdeeper htoken fun inner hinner => ?_
      refine (hinner (.chain .or) m).bind fun result _ => ?_
      exact (naming_close depth _ result.2).bind fun _ _ => .ok _
    · exact .error (Cursor.mem_tokens_of_rest (Cursor.rest_of_next? hnext))

lemma naming_operator (level : Grammar.Level) {operator : Token} {c m : Cursor}
    (hnext : c.next? = some (operator, m)) (node : Expr → Expr) :
    Naming (do
      let inner ← deepen depth deeper operator m
      let (e, c') ← inner.get level m
      return (node e, c')) :=
  naming_deeper depth hdeeper (Cursor.mem_tokens_of_next? hnext) fun _ hinner =>
    (hinner level m).bind fun _ _ => .ok _

lemma naming_unary (c : Cursor) : Naming (unary depth deeper c) := by
  unfold unary
  split
  · next token m hnext =>
    split
    · exact naming_operator depth hdeeper .unary hnext (.unary .neg · token.position)
    · exact naming_primary depth hdeeper c
  · exact naming_primary depth hdeeper c

lemma naming_additive (c : Cursor) : Naming (additive depth deeper c) :=
  naming_leftAssociative (naming_leftAssociative (naming_unary depth hdeeper)) c

lemma naming_comparison (c : Cursor) : Naming (comparison depth deeper c) := by
  refine (naming_additive depth hdeeper c).bind fun left _ => ?_
  dsimp only
  split
  · split
    · refine (naming_additive depth hdeeper _).bind fun right _ => ?_
      split
      · next second behind hrest =>
        split
        · exact .error (Cursor.mem_tokens_of_rest hrest)
        · exact .ok _
      · exact .ok _
    · exact .ok _
  · exact .ok _

lemma naming_notExpr (c : Cursor) : Naming (notExpr depth deeper c) := by
  unfold notExpr
  split
  · next token m hnext =>
    split
    · exact naming_operator depth hdeeper .not hnext (.unary .not · token.position)
    · exact naming_comparison depth hdeeper c
  · exact naming_comparison depth hdeeper c

lemma naming_over (level : Grammar.Level) (c : Cursor) :
    Naming ((Readers.over depth deeper).get level c) := by
  -- from the tightest level to the loosest
  have hnot := naming_notExpr depth hdeeper
  cases level with
  | chain chain =>
    cases chain with
    | or => exact naming_leftAssociative (naming_leftAssociative hnot) c
    | and => exact naming_leftAssociative hnot c
    | additive => exact naming_additive depth hdeeper c
    | term => exact naming_leftAssociative (naming_unary depth hdeeper) c
  | not => exact hnot c
  | comparison => exact naming_comparison depth hdeeper c
  | unary => exact naming_unary depth hdeeper c
  | primary => exact naming_primary depth hdeeper c

end Level

lemma naming_within (budget depth : Nat) (level : Grammar.Level) (c : Cursor) :
    Naming ((Readers.within budget depth).get level c) := by
  -- by induction over the levels that may still be opened
  induction budget generalizing depth level c with
  | zero =>
    refine naming_over depth (fun readers hreaders => ?_) level c
    cases hreaders
  | succ budget ih =>
    refine naming_over depth (fun readers hreaders => ?_) level c
    cases hreaders
    exact ih (depth + 1)

lemma naming_formula (depth : Nat) (c : Cursor) : Naming (formula depth c) := by
  unfold formula
  split
  · next hempty => exact .error (List.isEmpty_iff.mp hempty)
  · refine (naming_within _ depth (.chain .or) c).bind fun result _ => ?_
    dsimp only
    split
    · exact .ok _
    · next token behind hrest =>
      have htoken := Cursor.mem_tokens_of_rest hrest
      split
      · exact .error htoken
      · exact .error htoken

end Reader

end MarketFormula
