import Mathlib.Data.List.Forall2
import MarketFormula.Proofs.Formula.Grammar
import MarketFormula.Proofs.Formula.Tree

/-!
# Places of the nodes of a tree

Every node of the tree of a derivation has the place of a token of the derivation, and so has every
argument of a call that of a token of this argument. Fields and calls have the names of their
tokens.
-/
namespace MarketFormula

def IsPlaceOf (tokens : List Token) (position : Int) : Prop :=
  ∃ token ∈ tokens, (token.position : Int) = position

lemma IsPlaceOf.mono {tokens tokens' : List Token} {position : Int}
    (h : IsPlaceOf tokens position) (hsubset : tokens ⊆ tokens') : IsPlaceOf tokens' position := by
  obtain ⟨token, htoken, hposition⟩ := h
  exact ⟨token, hsubset htoken, hposition⟩

/-- A call in a formula: its name, and the tokens of each of its arguments. -/
structure CallSite where
  name : Token
  arguments : List (List Token)

namespace Grammar.Derivation

/-- The tokens of each argument in a list of arguments. -/
def argumentTokens : {p : Nonterminal} → Derivation p → List (List Token)
  | _, someArguments first rest => first.tokens :: rest.argumentTokens
  | _, more _ _ argument rest => argument.tokens :: rest.argumentTokens
  | _, _ => []

/-- The calls of a derivation, outer ones before those in their arguments. -/
def calls : {p : Nonterminal} → Derivation p → List CallSite
  | _, chain first rest => first.calls ++ rest.calls
  | _, noLink => []
  | _, link _ _ _ operand rest => operand.calls ++ rest.calls
  | _, negation _ _ operand => operand.calls
  | _, positive inner => inner.calls
  | _, comparing left _ _ _ right => left.calls ++ right.calls
  | _, single inner => inner.calls
  | _, opposite _ _ operand => operand.calls
  | _, unsigned inner => inner.calls
  | _, number _ _ => []
  | _, field _ _ => []
  | _, call name _ _ _ _ _ args => ⟨name, args.argumentTokens⟩ :: args.calls
  | _, group _ _ _ _ inner => inner.calls
  | _, noArguments => []
  | _, someArguments first rest => first.calls ++ rest.calls
  | _, noMore => []
  | _, more _ _ argument rest => argument.calls ++ rest.calls

attribute [simp] calls

lemma argumentTokens_subset {p : Nonterminal} (d : Derivation p) :
    ∀ argument ∈ d.argumentTokens, argument ⊆ d.tokens := by
  induction d with
  | someArguments first rest _ ihrest =>
    rintro argument (_ | ⟨_, hargument⟩)
    · exact List.subset_append_left _ _
    · exact List.Subset.trans (ihrest argument hargument) (List.subset_append_right _ _)
  | more comma h first rest _ ihrest =>
    rintro argument (_ | ⟨_, hargument⟩)
    · exact List.Subset.trans (List.subset_append_left _ _) (List.subset_cons_self _ _)
    · exact List.Subset.trans (List.Subset.trans (ihrest argument hargument)
        (List.subset_append_right _ _)) (List.subset_cons_self _ _)
  | _ => exact fun argument hargument => absurd hargument List.not_mem_nil

end Grammar.Derivation

namespace Grammar

/-- The root of what a rule derives has the place of one of the tokens, which for an argument is one
of its own; links leave a root that is there already or give the place of a later one. -/
def Nonterminal.Anchored : (p : Nonterminal) → Derivation p → Prop
  | expr _, d => IsPlaceOf d.tokens (Expr.position d.tree)
  | links _, d => ∀ left : Expr, d.tree left = left ∨ IsPlaceOf d.tokens (d.tree left).position
  | arguments, d | moreArguments, d =>
    List.Forall₂ (fun (e : Expr) tokens => IsPlaceOf tokens e.position) d.tree d.argumentTokens

lemma Derivation.anchored {p : Nonterminal} (d : Derivation p) : p.Anchored d := by
  induction d with
  | chain first rest ihfirst ihrest =>
    obtain hsame | hplace := ihrest first.tree
    · have hroot : (Derivation.chain first rest).tree = first.tree := hsame
      rw [Nonterminal.Anchored, hroot]
      exact ihfirst.mono (List.subset_append_left _ _)
    · exact hplace.mono (List.subset_append_right _ _)
  | noLink => exact fun left => .inl rfl
  | link operator op h operand rest _ ihrest =>
    intro left
    obtain hsame | hplace := ihrest (.binary op left operand.tree operator.position)
    · have hroot : (Derivation.link operator op h operand rest).tree left =
        .binary op left operand.tree operator.position := hsame
      rw [hroot]
      exact .inr ⟨operator, List.mem_cons_self .., rfl⟩
    · exact .inr (hplace.mono fun token htoken => by simp [htoken])
  | negation operator h operand _ => exact ⟨operator, List.mem_cons_self .., rfl⟩
  | positive inner ih => exact ih
  | comparing left operator op h right _ _ => exact ⟨operator, by simp, rfl⟩
  | single inner ih => exact ih
  | opposite operator h operand _ => exact ⟨operator, List.mem_cons_self .., rfl⟩
  | unsigned inner ih => exact ih
  | number token h => exact ⟨token, List.mem_cons_self .., rfl⟩
  | field name h => exact ⟨name, List.mem_cons_self .., rfl⟩
  | call name opener closer hname hopener hcloser args _ => exact ⟨name, List.mem_cons_self .., rfl⟩
  | group opener closer hopener hcloser inner ih =>
    exact IsPlaceOf.mono ih fun token htoken => by simp [htoken]
  | noArguments => exact .nil
  | someArguments first rest ihfirst ihrest => exact .cons ihfirst ihrest
  | noMore => exact .nil
  | more comma h argument rest ihargument ihrest => exact .cons ihargument ihrest

end Grammar

namespace Expr

/-- Trees whose nodes have the places of some tokens. A field or a call has the name that is written
there, and a call is one of a list in which the tokens of its arguments are known. -/
inductive Placed (tokens : List Token) (calls : List CallSite) : Expr → Prop
  | binary {op : BinaryOp} {left right : Expr} {position : Int} (hleft : Placed tokens calls left)
    (hright : Placed tokens calls right) (h : IsPlaceOf tokens position) :
    Placed tokens calls (.binary op left right position)
  | unary {op : UnaryOp} {operand : Expr} {position : Int} (hoperand : Placed tokens calls operand)
    (h : IsPlaceOf tokens position) : Placed tokens calls (.unary op operand position)
  | literal {value : Float} {position : Int} (h : IsPlaceOf tokens position) :
    Placed tokens calls (.literal value position)
  | field {name : Token} (h : name ∈ tokens) (hkind : name.kind = .name) :
    Placed tokens calls (.field name.text name.position)
  | call {site : CallSite} {args : List Expr} (h : site.name ∈ tokens)
    (hkind : site.name.kind = .name) (hsite : site ∈ calls)
    (hinside : ∀ argument ∈ site.arguments, argument ⊆ tokens)
    (hargs : List.Forall₂ (fun e argument => IsPlaceOf argument e.position) args site.arguments)
    (hplaced : ∀ e ∈ args, Placed tokens calls e) :
    Placed tokens calls (.call site.name.text args site.name.position)

variable {tokens : List Token} {calls : List CallSite} {e : Expr}

lemma Placed.position (h : Placed tokens calls e) : IsPlaceOf tokens e.position := by
  cases h with
  | binary _ _ h => exact h
  | unary _ h => exact h
  | literal h => exact h
  | field h _ => exact ⟨_, h, rfl⟩
  | call h _ _ _ _ _ => exact ⟨_, h, rfl⟩

lemma Placed.children (h : Placed tokens calls e) :
    ∀ child ∈ e.children, Placed tokens calls child := by
  cases h with
  | binary hleft hright _ => simp [Expr.children, hleft, hright]
  | unary hoperand _ => simp [Expr.children, hoperand]
  | literal _ => simp [Expr.children]
  | field _ _ => simp [Expr.children]
  | call _ _ _ _ _ hplaced => exact hplaced

lemma of_firstBelow? {P : Expr → Prop} (hchildren : ∀ e, P e → ∀ child ∈ e.children, P child)
    {limit : Int} {rounds : Nat} {stack : List (Expr × Int)} {node : Expr}
    (hstack : ∀ entry ∈ stack, P entry.1) (h : firstBelow? limit rounds stack = some node) :
    P node := by
  induction rounds generalizing stack with
  | zero => cases h
  | succ rounds ih =>
    rcases stack with _ | ⟨⟨e, depth⟩, stack⟩
    · cases h
    · have he := hstack (e, depth) (List.mem_cons_self ..)
      rw [firstBelow?] at h
      split at h
      · cases h
        exact he
      · refine ih (fun entry hentry => ?_) h
        simp only [List.mem_append, List.mem_reverse, List.mem_map] at hentry
        obtain ⟨child, hchild, rfl⟩ | hentry := hentry
        · exact hchildren e he child hchild
        · exact hstack entry (List.mem_cons_of_mem _ hentry)

lemma Placed.of_checkDepth (h : Placed tokens calls e) {limit : Int} {error : FormulaError}
    (herror : checkDepth limit e = .error error) :
    ∃ text position, error = .nestedTooDeeply text position ∧ IsPlaceOf tokens position := by
  unfold checkDepth at herror
  split at herror
  · next node hnode =>
    cases herror
    have hplaced := of_firstBelow? (fun _ => Placed.children) (by simpa using h) hnode
    exact ⟨_, _, rfl, hplaced.position⟩
  · cases herror

end Expr

namespace Grammar

/-- What a rule derives has a property, or has it if what it continues has it. -/
def Nonterminal.All (P : Expr → Prop) : (p : Nonterminal) → p.Tree → Prop
  | expr _, tree => P tree
  | links _, tree => ∀ left : Expr, P left → P (tree left)
  | arguments, trees => ∀ e ∈ (trees : List Expr), P e
  | moreArguments, trees => ∀ e ∈ (trees : List Expr), P e

lemma Derivation.placed {p : Nonterminal} (d : Derivation p) {tokens : List Token}
    {calls : List CallSite} (htokens : d.tokens ⊆ tokens) (hcalls : d.calls ⊆ calls) :
    p.All (Expr.Placed tokens calls) d.tree := by
  -- by induction over the derivation, whose tokens and calls are among those of a larger one
  induction d with
  | chain first rest ihfirst ihrest =>
    simp only [Derivation.tokens, Derivation.calls, List.append_subset] at htokens hcalls
    exact ihrest htokens.2 hcalls.2 _ (ihfirst htokens.1 hcalls.1)
  | noLink => exact fun left hleft => hleft
  | link operator op h operand rest ihoperand ihrest =>
    simp only [Derivation.tokens, Derivation.calls, List.cons_subset, List.append_subset]
      at htokens hcalls
    intro left hleft
    refine ihrest htokens.2.2 hcalls.2 _ (.binary hleft (ihoperand htokens.2.1 hcalls.1) ?_)
    exact ⟨operator, htokens.1, rfl⟩
  | negation operator h operand ih =>
    simp only [Derivation.tokens, List.cons_subset] at htokens
    exact .unary (ih htokens.2 hcalls) ⟨operator, htokens.1, rfl⟩
  | positive inner ih => exact ih htokens hcalls
  | comparing left operator op h right ihleft ihright =>
    simp only [Derivation.tokens, Derivation.calls, List.cons_subset, List.append_subset]
      at htokens hcalls
    exact .binary (ihleft htokens.1 hcalls.1) (ihright htokens.2.2 hcalls.2)
      ⟨operator, htokens.2.1, rfl⟩
  | single inner ih => exact ih htokens hcalls
  | opposite operator h operand ih =>
    simp only [Derivation.tokens, List.cons_subset] at htokens
    exact .unary (ih htokens.2 hcalls) ⟨operator, htokens.1, rfl⟩
  | unsigned inner ih => exact ih htokens hcalls
  | number token h => exact .literal ⟨token, htokens (List.mem_cons_self ..), rfl⟩
  | field name h => exact .field (htokens (List.mem_cons_self ..)) h
  | call name opener closer hname hopener hcloser args ih =>
    simp only [Derivation.tokens, Derivation.calls, List.cons_subset, List.append_subset]
      at htokens hcalls
    have hinside : ∀ argument ∈ args.argumentTokens, argument ⊆ tokens := fun argument hargument =>
      List.Subset.trans (args.argumentTokens_subset argument hargument) htokens.2.2.1
    exact @Expr.Placed.call _ _ ⟨name, args.argumentTokens⟩ _ htokens.1 hname hcalls.1 hinside
      args.anchored (ih htokens.2.2.1 hcalls.2)
  | group opener closer hopener hcloser inner ih =>
    simp only [Derivation.tokens, List.cons_subset, List.append_subset] at htokens
    exact ih htokens.2.1 hcalls
  | noArguments => exact fun e he => absurd he List.not_mem_nil
  | someArguments first rest ihfirst ihrest =>
    simp only [Derivation.tokens, Derivation.calls, List.append_subset] at htokens hcalls
    rintro e (_ | ⟨_, he⟩)
    · exact ihfirst htokens.1 hcalls.1
    · exact ihrest htokens.2 hcalls.2 e he
  | noMore => exact fun e he => absurd he List.not_mem_nil
  | more comma h argument rest ihargument ihrest =>
    simp only [Derivation.tokens, Derivation.calls, List.cons_subset, List.append_subset]
      at htokens hcalls
    rintro e (_ | ⟨_, he⟩)
    · exact ihargument htokens.2.1 hcalls.1
    · exact ihrest htokens.2.2 hcalls.2 e he

end Grammar

end MarketFormula
