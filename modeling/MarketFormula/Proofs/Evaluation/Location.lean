import MarketFormula.Proofs.Evaluation.Faults
import MarketFormula.Proofs.Evaluation.Kind
import MarketFormula.Proofs.Formula.Places
import MarketFormula.Proofs.Formula.Wording

/-!
# Every fault of a formula has its place in the formula

A fault of a text names a character, a token or a name that is written at its place, or the end of
the text.
-/
namespace MarketFormula

open Grammar

/-- The fault is one of evaluating a tree of these tokens, with these calls: it names an unknown
name, or a call whose second argument it is in. -/
def FormulaError.Blames (tokens : List Token) (calls : List CallSite) : FormulaError → Prop
  | unknownField name position | unknownFunction name position | wrongArity name _ _ position =>
    ∃ token ∈ tokens, token.text = name ∧ position = some (token.position : Int)
  | windowPerBar function position | windowBoolean function position
  | windowNotPositive function _ position =>
    ∃ site ∈ calls, site.name.text = function ∧
      ∃ argument, site.arguments[1]? = some argument ∧ argument ⊆ tokens ∧
        IsPlaceOf argument position
  | e => e.kind = .unsupported

namespace Indicator

variable {tokens : List Token} {calls : List CallSite}

lemma blames_of_resolve {name : Token} (hname : name ∈ tokens) {count : Int} {e : FormulaError}
    (h : resolve name.text count (some name.position) = .error e) : e.Blames tokens calls := by
  rw [resolve] at h
  split at h
  · split at h
    · cases h
    · cases h
      exact ⟨name, hname, rfl, rfl⟩
  · cases h
    exact ⟨name, hname, rfl, rfl⟩

lemma blames_of_eval {indicator : Indicator} {n : Nat} {position : Int} {x y : Value}
    {site : CallSite} (hsite : site ∈ calls) (hname : site.name.text = indicator.name)
    {argument : List Token} (hargument : site.arguments[1]? = some argument)
    (hinside : argument ⊆ tokens) (hplace : IsPlaceOf argument position) {e : FormulaError}
    (h : indicator.eval n position x y = .error (.formula e)) : e.Blames tokens calls := by
  cases indicator with
  | cross => cases h
  | windowed function =>
    cases hwindow : y.window (windowed function).name position with
    | ok length =>
      obtain ⟨column, -, hvalue⟩ := exists_column n x hwindow
      rw [hvalue] at h
      cases h
    | error refusal =>
      simp only [eval, hwindow] at h
      cases h
      unfold Value.window at hwindow
      split at hwindow
      · split at hwindow
        · cases hwindow
        · cases hwindow
          exact ⟨site, hsite, hname, argument, hargument, hinside, hplace⟩
      · cases hwindow
        exact ⟨site, hsite, hname, argument, hargument, hinside, hplace⟩
      · cases hwindow
        exact ⟨site, hsite, hname, argument, hargument, hinside, hplace⟩

end Indicator

namespace Expr

variable {frame : Frame} {tokens : List Token} {calls : List CallSite}

lemma blames_of_evalUnary {op : UnaryOp} {n : Nat} {position : Int} {x : Value}
    {error : FormulaError} (h : evalUnary n op position x = .error (.formula error)) : error.Blames tokens calls := by
  cases op <;> cases h
  rfl

lemma blames_of_evalBinary {op : BinaryOp} {n : Nat} {position : Int} {x y : Value}
    {error : FormulaError} (h : evalBinary n op position x y = .error (.formula error)) :
    error.Blames tokens calls := by
  cases op <;> cases h
  rfl

lemma Placed.blames_of_eval {e : Expr} (h : Placed tokens calls e)
    (hnames : ∀ token ∈ tokens, token.kind = .name → Text.upper token.text = token.text)
    {error : FormulaError} (heval : e.eval frame = .error (.formula error)) :
    error.Blames tokens calls := by
  -- by induction over the tree: whatever fails in it names what is written at its place
  induction h with
  | binary _ _ _ ihleft ihright =>
    simp only [eval, bind_eq_error_iff] at heval
    obtain hleft | ⟨x, -, hright | ⟨y, -, hboth⟩⟩ := heval
    · exact ihleft hleft
    · exact ihright hright
    · exact blames_of_evalBinary hboth
  | unary _ _ ih =>
    simp only [eval, bind_eq_error_iff] at heval
    obtain hoperand | ⟨x, -, hboth⟩ := heval
    · exact ih hoperand
    · exact blames_of_evalUnary hboth
  | literal _ =>
    simp only [eval] at heval
    cases heval
  | @field name hname _ =>
    simp only [eval, bind_eq_error_iff] at heval
    obtain hfield | ⟨field, -, hvalue⟩ := heval
    · obtain ⟨error, ⟨⟩, hresolve⟩ := Fault.ofFormula_eq_error_iff.mp hfield
      unfold Field.resolve at hresolve
      split at hresolve
      · cases hresolve
      · cases hresolve
        exact ⟨name, hname, rfl, rfl⟩
    · cases hvalue
  | @call site args hname hkind hsite hinside hargs hplaced ih =>
    have hupper := hnames site.name hname hkind
    obtain ⟨error, ⟨⟩, hresolve⟩ | ⟨e, he, hargument⟩ |
      ⟨indicator, first, second, x, y, hfound, rfl, -, -, hvalue⟩ := cases_of_eval_call_eq_error heval
    · rw [hupper] at hresolve
      exact Indicator.blames_of_resolve hname hresolve
    · exact ih e he hargument
    · rw [hupper, hupper] at hfound
      obtain ⟨_, _, -, hrest, harguments⟩ := List.forall₂_cons_left_iff.mp hargs
      obtain ⟨argument, _, hplace, -, rfl⟩ := List.forall₂_cons_left_iff.mp hrest
      have hargument : site.arguments[1]? = some argument := by rw [harguments]; rfl
      have hsubset := hinside argument (List.mem_of_getElem? hargument)
      exact Indicator.blames_of_eval hsite (Indicator.name_of_ofName? hfound).symm hargument hsubset
        hplace hvalue

end Expr

/-- The place of a fault of a text, by what the fault is about. -/
def FormulaError.IsLocated (text : String) (e : FormulaError) (token : String) (position : Nat) :
    Prop :=
  match e with
  | .unexpectedCharacter .. | .expected .. | .notAnOperand .. | .chainedComparison ..
  | .unbalancedParenthesis .. | .trailing .. | .unknownField .. | .unknownFunction ..
  | .wrongArity .. => IsWritten text token position
  | .emptyFormula => token = "" ∧ position = 0
  | .unexpectedEnd .. | .expectedAtEnd .. | .missingOperand .. =>
    token = "" ∧ position = text.length
  /- levels are counted when they are opened, and again in the tree -/
  | .nestedTooDeeply .. => ∃ tokens, Token.scan text = .ok tokens ∧
    ((Expr.ofTokens tokens text.length = .error e ∧ IsWritten text token position) ∨
      ∃ tree, Expr.ofTokens tokens text.length = .ok tree ∧
        Expr.checkDepth maxTreeDepth tree = .error e ∧ ∃ found ∈ tokens, found.position = position)
  | .windowPerBar .. | .windowBoolean .. | .windowNotPositive .. => ∃ d : Derivation .formula,
    Token.scan text = .ok d.tokens ∧ ∃ site ∈ d.calls, site.name.text = token ∧
      ∃ argument, site.arguments[1]? = some argument ∧
        ∃ found ∈ d.tokens, found ∈ argument ∧ found.position = position
  | .unknownUnary .. | .unknownBinary .. | .unknownNode => False

namespace FormulaError

def Located (text : String) (e : FormulaError) : Prop :=
  ∃ token position, e.token? = some token ∧ e.position? = some ((position : Nat) : Int) ∧
    position ≤ text.length ∧ e.IsLocated text token position

variable {text : String} {tokens : List Token} {e : FormulaError}

lemma located_of_names (hscan : Token.scan text = .ok tokens)
    (h : Expr.ofTokens tokens text.length = .error e) : e.Located text := by
  have hcovers := Token.covers_of_scan hscan
  have hnames := Expr.names_of_ofTokens h
  have hwritten (found : Token) (hfound : found ∈ tokens) : found.position ≤ text.length ∧
      IsWritten text found.text found.position :=
    ⟨(hcovers.position_lt hfound).le, hcovers.isWritten hfound⟩
  cases e with
  | emptyFormula => exact ⟨_, 0, rfl, rfl, Nat.zero_le _, rfl, rfl⟩
  | unexpectedEnd position => exact ⟨_, _, rfl, rfl, hnames.le, rfl, hnames⟩
  | expectedAtEnd description position => exact ⟨_, _, rfl, rfl, hnames.le, rfl, hnames⟩
  | missingOperand previous position => exact ⟨_, _, rfl, rfl, hnames.le, rfl, hnames⟩
  | expected description found => exact ⟨_, _, rfl, rfl, hwritten found hnames⟩
  | notAnOperand found => exact ⟨_, _, rfl, rfl, hwritten found hnames⟩
  | chainedComparison found => exact ⟨_, _, rfl, rfl, hwritten found hnames⟩
  | unbalancedParenthesis found => exact ⟨_, _, rfl, rfl, hwritten found hnames⟩
  | trailing found => exact ⟨_, _, rfl, rfl, hwritten found hnames⟩
  | nestedTooDeeply token position =>
    obtain ⟨found, hfound, rfl, rfl⟩ := hnames
    obtain ⟨hle, hwritten⟩ := hwritten found hfound
    exact ⟨_, _, rfl, rfl, hle, tokens, hscan, .inl ⟨h, hwritten⟩⟩
  | _ => exact hnames.elim

lemma located_of_checkDepth (hscan : Token.scan text = .ok tokens) {tree : Expr}
    (htree : Expr.ofTokens tokens text.length = .ok tree)
    (h : Expr.checkDepth maxTreeDepth tree = .error e) : e.Located text := by
  obtain ⟨d, rfl, -, rfl⟩ := Expr.ofTokens_eq_ok_iff.mp htree
  have hplaced : d.tree.Placed d.tokens d.calls := d.placed (List.Subset.refl _) (List.Subset.refl _)
  obtain ⟨label, position, rfl, found, hfound, rfl⟩ := hplaced.of_checkDepth h
  have hlt := (Token.covers_of_scan hscan).position_lt hfound
  exact ⟨_, _, rfl, rfl, hlt.le, d.tokens, hscan, .inr ⟨_, htree, h, found, hfound, rfl⟩⟩

lemma located_of_parse (h : Expr.parse text = .error e) : e.Located text := by
  simp only [Expr.parse, bind_eq_error_iff] at h
  obtain h | ⟨tokens, hscan, h | ⟨tree, htree, h | ⟨-, -, h⟩⟩⟩ := h
  · obtain ⟨token, position, rfl, hle, hwritten⟩ := Token.isWritten_of_scan_eq_error h
    exact ⟨_, _, rfl, rfl, hle, hwritten⟩
  · exact located_of_names hscan h
  · exact located_of_checkDepth hscan htree h
  · cases h

section Blames

variable {d : Derivation .formula} (hscan : Token.scan text = .ok d.tokens)

include hscan

lemma exists_written {name : String} {position? : Option Int}
    (h : ∃ token ∈ d.tokens, token.text = name ∧ position? = some (token.position : Int)) :
    ∃ position : Nat, position? = some (position : Int) ∧ position ≤ text.length ∧
      IsWritten text name position := by
  have hcovers := Token.covers_of_scan hscan
  obtain ⟨token, htoken, rfl, hposition⟩ := h
  exact ⟨_, hposition, (hcovers.position_lt htoken).le, hcovers.isWritten htoken⟩

lemma exists_argument {function : String} {position : Int}
    (h : ∃ site ∈ d.calls, site.name.text = function ∧
      ∃ argument, site.arguments[1]? = some argument ∧ argument ⊆ d.tokens ∧
        IsPlaceOf argument position) :
    ∃ place : Nat, position = place ∧ place ≤ text.length ∧
      ∃ site ∈ d.calls, site.name.text = function ∧
        ∃ argument, site.arguments[1]? = some argument ∧
          ∃ found ∈ d.tokens, found ∈ argument ∧ found.position = place := by
  have hcovers := Token.covers_of_scan hscan
  obtain ⟨site, hsite, hfunction, argument, hargument, hinside, found, hfound, rfl⟩ := h
  exact ⟨_, rfl, (hcovers.position_lt (hinside hfound)).le, site, hsite, hfunction, argument,
    hargument, found, hinside hfound, hfound, rfl⟩

lemma located_of_blames (h : e.Blames d.tokens d.calls) (hkind : e.kind ≠ .unsupported) :
    e.Located text ∧ e ≠ .emptyFormula := by
  cases e with
  | unknownField name position? =>
    obtain ⟨position, rfl, hle, hwritten⟩ := exists_written hscan h
    exact ⟨⟨_, _, rfl, rfl, hle, hwritten⟩, by simp⟩
  | unknownFunction name position? =>
    obtain ⟨position, rfl, hle, hwritten⟩ := exists_written hscan h
    exact ⟨⟨_, _, rfl, rfl, hle, hwritten⟩, by simp⟩
  | wrongArity name expected received position? =>
    obtain ⟨position, rfl, hle, hwritten⟩ := exists_written hscan h
    exact ⟨⟨_, _, rfl, rfl, hle, hwritten⟩, by simp⟩
  | windowPerBar function position =>
    obtain ⟨place, rfl, hle, hsite⟩ := exists_argument hscan h
    exact ⟨⟨_, _, rfl, rfl, hle, d, hscan, hsite⟩, by simp⟩
  | windowBoolean function position =>
    obtain ⟨place, rfl, hle, hsite⟩ := exists_argument hscan h
    exact ⟨⟨_, _, rfl, rfl, hle, d, hscan, hsite⟩, by simp⟩
  | windowNotPositive function window position =>
    obtain ⟨place, rfl, hle, hsite⟩ := exists_argument hscan h
    exact ⟨⟨_, _, rfl, rfl, hle, d, hscan, hsite⟩, by simp⟩
  | unknownUnary op position => exact absurd rfl hkind
  | unknownBinary op position => exact absurd rfl hkind
  | unknownNode => exact absurd rfl hkind
  | _ => cases h

end Blames

lemma located_of_eval {tree : Expr} (hparse : Expr.parse text = .ok tree) {frame : Frame}
    (h : tree.eval frame = .error (.formula e)) : e.Located text ∧ e ≠ .emptyFormula := by
  obtain ⟨_, ⟨⟩, hkind, -, -⟩ := Expr.documented_of_eval (Expr.supported_of_parse hparse) h
  simp only [Expr.parse, bind_eq_ok_iff, Expr.ofTokens_eq_ok_iff] at hparse
  obtain ⟨tokens, hscan, _, ⟨d, rfl, -, rfl⟩, ⟨⟩, -, ⟨⟩⟩ := hparse
  have hplaced : d.tree.Placed d.tokens d.calls := d.placed (List.Subset.refl _) (List.Subset.refl _)
  have hblames := hplaced.blames_of_eval (fun _ => (Token.covers_of_scan hscan).upper_text) h
  refine located_of_blames hscan hblames fun hunsupported => ?_
  simp [hunsupported] at hkind

end FormulaError

namespace Series

/-- Every fault of evaluating a text over bars is one of the text and has its place there: what it
names is written at its position, which is inside the text, unless it is about the end of the text
or the height of the tree; a window that is refused is at a token of the second argument of a call
of the function named. The fault is that of an empty formula exactly if the text is blank. -/
theorem evaluate_located (text : String) (s : Series Float) (fault : Fault)
    (h : s.evaluate (.text text) = .error fault) :
    ∃ e token position, fault = .formula e ∧ e.token? = some token ∧
      e.position? = some ((position : Nat) : Int) ∧ position ≤ text.length ∧
      e.IsLocated text token position ∧
      (e = .emptyFormula ↔ ∀ c ∈ text.toList, Text.isBlank c = true) := by
  obtain ⟨frame, hframe⟩ := s.exists_reads_float
  rw [← Expr.parse_eq_emptyFormula_iff]
  obtain ⟨e, rfl, ⟨hread, -⟩ | ⟨tree, hread, heval⟩⟩ := exists_of_evaluate_eq_error hframe rfl h
  · obtain ⟨_, ⟨⟩, hparse⟩ := Fault.ofFormula_eq_error_iff.mp hread
    obtain ⟨token, position, htoken, hposition, hle, hlocated⟩ := FormulaError.located_of_parse hparse
    refine ⟨e, token, position, rfl, htoken, hposition, hle, hlocated, ?_⟩
    rw [hparse, Except.error.injEq]
  · have hparse : Expr.parse text = .ok tree := Fault.ofFormula_eq_ok_iff.mp hread
    obtain ⟨⟨token, position, htoken, hposition, hle, hlocated⟩, hne⟩ :=
      FormulaError.located_of_eval hparse heval
    refine ⟨e, token, position, rfl, htoken, hposition, hle, hlocated, ?_⟩
    simp [hparse, hne]

theorem evaluate_located_parenthesis :
    let s : Series Float := [⟨⟨1, 1, 1, 1, 10⟩, "2024-01-02"⟩]
    let e : FormulaError := .windowBoolean "MA" 13
    s.evaluate (.text "C > ma(O, (2 > 1))") = .error (.formula e) ∧
      e.IsLocated "C > ma(O, (2 > 1))" "MA" 13 := by
  intro s e
  have hfault : s.evaluate (.text "C > ma(O, (2 > 1))") = .error (.formula e) := rfl
  obtain ⟨_, _, _, ⟨⟩, ⟨⟩, hposition, -, hlocated, -⟩ := evaluate_located _ s _ hfault
  cases hposition
  exact ⟨hfault, hlocated⟩

end Series

end MarketFormula
