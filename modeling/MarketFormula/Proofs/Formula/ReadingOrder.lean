import Mathlib.Data.List.Forall2
import Mathlib.Logic.Relation
import MarketFormula.Proofs.Formula.Acceptance
import MarketFormula.Proofs.Formula.Wording

/-!
# Nodes and tokens in reading order

The tokens of a formula, apart from parentheses and commas, introduce the nodes of its tree, each
token one node: an operator, a number, or the name of a field or a call.
-/
namespace MarketFormula

/-- The ways to write a token of a kind in upper case, for kinds other than numbers and names. -/
def TokenKind.spellings : TokenKind → List String
  | .number | .name => []
  | .and => ["AND", "&&"]
  | .or => ["OR", "||"]
  | .not => ["NOT", "!"]
  | .ge => [">="]
  | .le => ["<="]
  | .eq => ["=="]
  | .ne => ["!="]
  | .gt => [">"]
  | .lt => ["<"]
  | .leftParen => ["("]
  | .rightParen => [")"]
  | .comma => [","]
  | .plus => ["+"]
  | .minus => ["-"]
  | .times => ["*"]
  | .div => ["/"]

/-- Tokens that only separate others introduce no node. -/
def TokenKind.introduces : TokenKind → Bool
  | .leftParen | .rightParen | .comma => false
  | _ => true

def BinaryOp.spellings : BinaryOp → List String
  | .and => ["AND", "&&"]
  | .or => ["OR", "||"]
  | .other _ => []
  | op => [op.symbol]

def UnaryOp.spellings : UnaryOp → List String
  | .not => ["NOT", "!"]
  | .neg => ["-"]
  | .other _ => []

namespace Token

def spelling (cs : List Char) (token : Token) : String :=
  String.ofList ((token.span cs).map Char.toUpper)

/-- A node has the place of a token, and the text writes there what the node stands for. -/
inductive Introduces (cs : List Char) (token : Token) : Expr → Prop
  | binary {op : BinaryOp} {left right : Expr} (h : token.spelling cs ∈ op.spellings) :
    Introduces cs token (.binary op left right token.position)
  | unary {op : UnaryOp} {operand : Expr} (h : token.spelling cs ∈ op.spellings) :
    Introduces cs token (.unary op operand token.position)
  | literal {value : Float} (hkind : token.kind = .number)
    (h : Decimal.read? (String.ofList (token.span cs)) = some value) :
    Introduces cs token (.literal value token.position)
  | field {name : String} (hkind : token.kind = .name) (h : token.spelling cs = name) :
    Introduces cs token (.field name token.position)
  | call {name : String} {args : List Expr} (hkind : token.kind = .name)
    (h : token.spelling cs = name) : Introduces cs token (.call name args token.position)

lemma Introduces.position {cs : List Char} {token : Token} {node : Expr}
    (h : Introduces cs token node) : node.position = token.position := by
  cases h <;> rfl

lemma symbols_spellings :
    ∀ entry ∈ symbols, String.ofList (entry.2.map Char.toUpper) ∈ entry.1.spellings := by
  decide

lemma Lexeme.mem_spellings {cs text : List Char} {kind : TokenKind} (h : Lexeme cs kind text)
    (hnumber : kind ≠ .number) (hname : kind ≠ .name) :
    String.ofList (cs.map Char.toUpper) ∈ kind.spellings := by
  cases h with
  | number h => exact absurd rfl hnumber
  | @name c rest h h' =>
    unfold nameKind at hname ⊢
    split_ifs at hname ⊢ with hand hor hnot
    · rw [hand]
      decide
    · rw [hor]
      decide
    · rw [hnot]
      decide
    · exact absurd rfl hname
  | symbol h => exact symbols_spellings _ h

lemma Lexeme.numeral {cs text : List Char} (h : Lexeme cs .number text) :
    Decimal.Numeral cs ∧ text = cs := by
  generalize hkind : TokenKind.number = kind at h
  cases h with
  | number h => exact ⟨h, rfl⟩
  | name h h' =>
    unfold nameKind at hkind
    split_ifs at hkind
  | symbol h =>
    subst hkind
    simp [symbols] at h

/-- A token stands in a text as it was read from there. -/
def IsFrom (cs : List Char) (token : Token) : Prop :=
  Lexeme (token.span cs) token.kind token.text.toList

namespace IsFrom

variable {cs : List Char} {token : Token}

lemma spelling_eq (h : token.IsFrom cs) : token.spelling cs = token.text := by
  rw [spelling, ← h.text_eq, String.ofList_toList]

lemma introduces_literal (h : token.IsFrom cs) (hkind : token.kind = .number) :
    Introduces cs token (.literal token.value token.position) := by
  unfold IsFrom at h
  rw [hkind] at h
  obtain ⟨hnumeral, htext⟩ := h.numeral
  refine .literal hkind ?_
  rw [Decimal.read?_numeral hnumeral, value, htext]

end IsFrom

end Token

namespace Expr

mutual

def inOrder : Expr → List Expr
  | binary op left right position =>
    left.inOrder ++ binary op left right position :: right.inOrder
  | unary op operand position => unary op operand position :: operand.inOrder
  | call name args position => call name args position :: inOrderAll args
  | e => [e]

def inOrderAll : List Expr → List Expr
  | [] => []
  | e :: es => e.inOrder ++ inOrderAll es

end

lemma mem_inOrderAll {node : Expr} {es : List Expr} :
    node ∈ inOrderAll es ↔ ∃ e ∈ es, node ∈ e.inOrder := by
  induction es with
  | nil => simp [inOrderAll]
  | cons e es ih => simp [inOrderAll, ih]

lemma mem_inOrder_self (e : Expr) : e ∈ e.inOrder := by
  cases e <;> simp [inOrder]

lemma mem_inOrder_of_child {e child node : Expr} (h : child ∈ e.children)
    (hnode : node ∈ child.inOrder) : node ∈ e.inOrder := by
  cases e with
  | binary op left right position =>
    simp only [children, List.mem_cons, List.not_mem_nil, or_false] at h
    rcases h with rfl | rfl <;> simp [inOrder, hnode]
  | unary op operand position =>
    obtain rfl := List.mem_singleton.mp h
    simp [inOrder, hnode]
  | call name args position =>
    exact List.mem_cons_of_mem _ (mem_inOrderAll.mpr ⟨child, h, hnode⟩)
  | _ => cases h

lemma mem_inOrder {e node : Expr}
    (h : Relation.ReflTransGen (fun parent child => child ∈ parent.children) e node) :
    node ∈ e.inOrder := by
  induction h using Relation.ReflTransGen.head_induction_on with
  | refl => exact mem_inOrder_self node
  | head hchild _ ih => exact mem_inOrder_of_child hchild ih

end Expr

namespace Grammar

open Token (Introduces IsFrom)

/-- Tokens of a kind are operators, with these spellings. -/
structure Marks (kind : TokenKind) (spellings : List String) : Prop where
  spellings_eq : spellings = kind.spellings
  introduces : kind.introduces = true
  not_number : kind ≠ .number
  not_name : kind ≠ .name

lemma Marks.of_op? {chain : Chain} {kind : TokenKind} {op : BinaryOp}
    (h : chain.op? kind = some op) : Marks kind op.spellings := by
  cases chain <;> cases kind <;> cases h <;> constructor <;> decide

lemma Marks.of_comparisonOp? {kind : TokenKind} {op : BinaryOp}
    (h : kind.comparisonOp? = some op) : Marks kind op.spellings := by
  cases kind <;> cases h <;> constructor <;> decide

lemma Marks.not : Marks .not UnaryOp.not.spellings := by
  constructor <;> decide

lemma Marks.minus : Marks .minus UnaryOp.neg.spellings := by
  constructor <;> decide

lemma Marks.mem_spellings {cs : List Char} {token : Token} {spellings : List String}
    (h : Marks token.kind spellings) (hfrom : token.IsFrom cs) : token.spelling cs ∈ spellings := by
  rw [h.spellings_eq]
  exact Token.Lexeme.mem_spellings hfrom h.not_number h.not_name

def introducers (tokens : List Token) : List Token :=
  tokens.filter (·.kind.introduces)

lemma introducers_append (xs ys : List Token) :
    introducers (xs ++ ys) = introducers xs ++ introducers ys :=
  List.filter_append _ _

lemma introducers_cons {token : Token} (h : token.kind.introduces = true) (tokens : List Token) :
    introducers (token :: tokens) = token :: introducers tokens :=
  List.filter_cons_of_pos h

lemma introducers_skip {token : Token} (h : token.kind.introduces = false) (tokens : List Token) :
    introducers (token :: tokens) = introducers tokens :=
  List.filter_cons_of_neg (by simp [h])

lemma introducers_enclosed {opener closer : Token} (hopener : opener.kind = .leftParen)
    (hcloser : closer.kind = .rightParen) (tokens : List Token) :
    introducers (opener :: (tokens ++ [closer])) = introducers tokens := by
  rw [introducers_skip (by rw [hopener]; rfl), introducers_append,
    introducers_skip (by rw [hcloser]; rfl)]
  exact List.append_nil _

/-- Nodes in reading order and the tokens that introduce them. -/
abbrev Follow (cs : List Char) (nodes : List Expr) (tokens : List Token) : Prop :=
  List.Forall₂ (fun node token => Introduces cs token node) nodes tokens

/-- The nodes that a rule derives follow its tokens; links add theirs to what is there already. -/
def Nonterminal.InOrder (cs : List Char) : (p : Nonterminal) → Derivation p → Prop
  | expr _, d => Follow cs (Expr.inOrder d.tree) (introducers d.tokens)
  | links _, d => ∀ (left : Expr) (tokens : List Token), Follow cs left.inOrder tokens →
    Follow cs (Expr.inOrder (d.tree left)) (tokens ++ introducers d.tokens)
  | arguments, d | moreArguments, d => Follow cs (Expr.inOrderAll d.tree) (introducers d.tokens)

section Follow

variable {cs : List Char}

lemma follow_binary {op : BinaryOp} {left right : Expr} {operator : Token}
    {before behind : List Token} (hleft : Follow cs left.inOrder before)
    (hright : Follow cs right.inOrder (introducers behind)) (hfrom : operator.IsFrom cs)
    (hop : Marks operator.kind op.spellings) :
    Follow cs (Expr.binary op left right operator.position).inOrder
      (before ++ introducers (operator :: behind)) := by
  rw [introducers_cons hop.introduces]
  exact List.rel_append hleft (.cons (.binary (hop.mem_spellings hfrom)) hright)

lemma follow_unary {op : UnaryOp} {operand : Expr} {operator : Token} {behind : List Token}
    (hoperand : Follow cs operand.inOrder (introducers behind)) (hfrom : operator.IsFrom cs)
    (hop : Marks operator.kind op.spellings) :
    Follow cs (Expr.unary op operand operator.position).inOrder
      (introducers (operator :: behind)) := by
  rw [introducers_cons hop.introduces]
  exact .cons (.unary (hop.mem_spellings hfrom)) hoperand

lemma Derivation.inOrder {p : Nonterminal} (d : Derivation p)
    (hfrom : ∀ token ∈ d.tokens, token.IsFrom cs) : p.InOrder cs d := by
  -- by induction over the derivation, whose parts keep their nodes and their tokens in order
  induction d with
  | chain first rest ihfirst ihrest =>
    simp only [tokens, List.forall_mem_append] at hfrom
    rw [Nonterminal.InOrder, tokens, introducers_append]
    exact ihrest hfrom.2 _ _ (ihfirst hfrom.1)
  | noLink =>
    intro left before hleft
    rw [tokens, introducers, List.filter_nil, List.append_nil]
    exact hleft
  | link operator op h operand rest ihoperand ihrest =>
    simp only [tokens, List.forall_mem_cons, List.forall_mem_append] at hfrom
    intro left before hleft
    have hnode := follow_binary hleft (ihoperand hfrom.2.1) hfrom.1 (.of_op? h)
    have hrest := ihrest hfrom.2.2 _ _ hnode
    rwa [List.append_assoc, ← introducers_append] at hrest
  | negation operator h operand ih =>
    simp only [tokens, List.forall_mem_cons] at hfrom
    exact follow_unary (ih hfrom.2) hfrom.1 (h ▸ .not)
  | positive inner ih => exact ih hfrom
  | comparing left operator op h right ihleft ihright =>
    simp only [tokens, List.forall_mem_cons, List.forall_mem_append] at hfrom
    rw [Nonterminal.InOrder, tokens, introducers_append]
    exact follow_binary (ihleft hfrom.1) (ihright hfrom.2.2) hfrom.2.1 (.of_comparisonOp? h)
  | single inner ih => exact ih hfrom
  | opposite operator h operand ih =>
    simp only [tokens, List.forall_mem_cons] at hfrom
    exact follow_unary (ih hfrom.2) hfrom.1 (h ▸ .minus)
  | unsigned inner ih => exact ih hfrom
  | number token h =>
    rw [Nonterminal.InOrder, tokens, introducers_cons (by rw [h]; rfl)]
    exact .cons ((hfrom token (List.mem_singleton_self _)).introduces_literal h) .nil
  | field name h =>
    rw [Nonterminal.InOrder, tokens, introducers_cons (by rw [h]; rfl)]
    exact .cons (.field h (hfrom name (List.mem_singleton_self _)).spelling_eq) .nil
  | call name opener closer hname hopener hcloser args ih =>
    simp only [tokens, List.forall_mem_cons, List.forall_mem_append] at hfrom
    rw [Nonterminal.InOrder, tokens, introducers_cons (by rw [hname]; rfl),
      introducers_enclosed hopener hcloser]
    exact .cons (.call hname hfrom.1.spelling_eq) (ih hfrom.2.2.1)
  | group opener closer hopener hcloser inner ih =>
    simp only [tokens, List.forall_mem_cons, List.forall_mem_append] at hfrom
    rw [Nonterminal.InOrder, tokens, introducers_enclosed hopener hcloser]
    exact ih hfrom.2.1
  | noArguments => exact .nil
  | someArguments first rest ihfirst ihrest =>
    simp only [tokens, List.forall_mem_append] at hfrom
    rw [Nonterminal.InOrder, tokens, introducers_append]
    exact List.rel_append (ihfirst hfrom.1) (ihrest hfrom.2)
  | noMore => exact .nil
  | more comma h argument rest ihargument ihrest =>
    simp only [tokens, List.forall_mem_cons, List.forall_mem_append] at hfrom
    rw [Nonterminal.InOrder, tokens, introducers_skip (by rw [h]; rfl), introducers_append]
    exact List.rel_append (ihargument hfrom.2.1) (ihrest hfrom.2.2)

lemma Follow.positions {nodes : List Expr} {tokens : List Token} (h : Follow cs nodes tokens) :
    nodes.map Expr.position = tokens.map fun token => (token.position : Int) := by
  induction h with
  | nil => rfl
  | cons hhead _ ih => rw [List.map_cons, List.map_cons, hhead.position, ih]

end Follow

end Grammar

namespace Expr

open Grammar

/-- The nodes of the tree of a formula in reading order are introduced by its tokens that are
neither parentheses nor commas, one by one. So each node has the place of a token that is written as
the node says, in any case and with either spelling of a keyword, and later nodes have later places.
-/
theorem inOrder_introduced {text : String} {e : Expr} (h : parse text = .ok e) :
    ∃ tokens, Token.scan text = .ok tokens ∧
      List.Forall₂ (fun node token => Token.Introduces text.toList token node) e.inOrder
        (tokens.filter (·.kind.introduces)) ∧
      (e.inOrder.map position).Pairwise (· < ·) ∧
      ∀ node, Relation.ReflTransGen (fun parent child => child ∈ parent.children) e node →
        node ∈ e.inOrder := by
  simp only [parse, bind_eq_ok_iff, ofTokens_eq_ok_iff] at h
  obtain ⟨tokens, hscan, tree, ⟨d, rfl, -, rfl⟩, ⟨⟩, -, htree⟩ := h
  cases htree
  have hcovers := Token.covers_of_scan hscan
  have hfollow := d.inOrder fun token htoken => (hcovers.lexeme token htoken).2
  refine ⟨d.tokens, hscan, hfollow, ?_, fun node => mem_inOrder⟩
  rw [Follow.positions hfollow, List.pairwise_map]
  refine (hcovers.ordered.filter _).imp fun hbefore => ?_
  omega

theorem inOrder_introduced_call : ∃ e, parse "not (c && MA(O, 2)) > -.5" = .ok e ∧
    (e.inOrder.map position).Pairwise (· < ·) ∧
    e.inOrder.map position = [0, 5, 7, 10, 13, 16, 20, 22, 23] := by
  have hparse : parse "not (c && MA(O, 2)) > -.5" = .ok
      (.unary .not (.binary .gt (.binary .and (.field "C" 5)
        (.call "MA" [.field "O" 13, .literal (Decimal.ofPlain ['2']) 16] 10) 7)
        (.unary .neg (.literal (Decimal.ofPlain ['.', '5']) 23) 22) 20) 0) := rfl
  obtain ⟨-, -, -, hpositions, -⟩ := inOrder_introduced hparse
  exact ⟨_, hparse, hpositions, rfl⟩

end Expr

end MarketFormula
