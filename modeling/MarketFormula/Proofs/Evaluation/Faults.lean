import MarketFormula.Proofs.Evaluation.Call
import MarketFormula.Proofs.Formula.Numeral
import MarketFormula.Proofs.Rules.Check

/-!
# The faults of a formula

A formula that is a text either has a value or one of the faults that formulas are meant to have,
each with its place: it is malformed, uses an unknown name, or gives an indicator the wrong
arguments.
-/
namespace MarketFormula

/-- Faults that formulas are meant to have. A wrong number of arguments is not the one expected. -/
structure FormulaError.Documented (e : FormulaError) : Prop where
  kind : e.kind ∈ [.malformed, .unknownField, .unknownFunction, .argumentCount, .argumentType]
  position : ∃ position, e.position? = some position
  arity : ∀ name expected received position,
    e = .wrongArity name expected received position → received ≠ expected

namespace FormulaError

lemma documented_of_kind {e : FormulaError} {position : Int}
    (hkind : e.kind ∈ [.malformed, .unknownField, .unknownFunction, .argumentType])
    (hposition : e.position? = some position) : e.Documented where
  kind := by
    simp only [List.mem_cons] at hkind ⊢
    tauto
  position := ⟨position, hposition⟩
  arity := by
    rintro name expected received position rfl
    simp [FormulaError.kind] at hkind

lemma documented_of_malformed {e : FormulaError} (h : e.kind = .malformed) : e.Documented := by
  have hposition : ∃ position, e.position? = some position := by
    cases e <;> first | exact ⟨_, rfl⟩ | cases h
  obtain ⟨position, hposition⟩ := hposition
  exact documented_of_kind (by simp [h]) hposition

end FormulaError

namespace Field

lemma documented_of_resolve {name : String} {position : Int} {e : FormulaError}
    (h : resolve name (some position) = .error e) : e.Documented := by
  rw [resolve] at h
  split at h
  · cases h
  · cases h
    exact FormulaError.documented_of_kind (by simp [FormulaError.kind]) rfl

end Field

namespace Value

variable {y : Value} {function : String} {position : Int}

lemma documented_of_window {e : FormulaError} (h : y.window function position = .error e) :
    e.Documented := by
  unfold window at h
  split at h
  · split at h
    · cases h
    · cases h
      exact FormulaError.documented_of_kind (by simp [FormulaError.kind]) rfl
  · cases h
    exact FormulaError.documented_of_kind (by simp [FormulaError.kind]) rfl
  · cases h
    exact FormulaError.documented_of_kind (by simp [FormulaError.kind]) rfl

lemma of_window {length : Nat} (h : y.window function position = .ok length) :
    0 < length ∧ ∃ x, y = .scalar (.number x) ∧ x.isFinite = true := by
  unfold window at h
  split at h
  · next x =>
    split at h
    · next n hnatural =>
      cases h
      have hfinite : (x.isFinite && !Decimal.isSigned x) = true := by
        by_contra hnot
        rw [Decimal.natural?, if_neg hnot] at hnatural
        cases hnatural
      exact ⟨Nat.succ_pos n, x, rfl, (Bool.and_eq_true_iff.mp hfinite).1⟩
    · cases h
  · cases h
  · cases h

end Value

lemma Windowed.compute_natCast {function : Windowed} {n : Nat} (hpos : 0 < n)
    (hn : function.isClipped = true → n < 0x8000000000000000) (xs : List Float) :
    function.compute n xs = function.values n xs := by
  have hbelow : ¬ (n : Int) < 1 := by omega
  have hfits : (function.isClipped && !xs.isEmpty &&
      decide ((0x8000000000000000 : Int) ≤ n)) = false := by
    cases hclipped : function.isClipped with
    | false => rfl
    | true =>
      have hlarge : ¬ (0x8000000000000000 : Int) ≤ n := by
        have hlt := hn hclipped
        omega
      rw [decide_eq_false hlarge, Bool.and_false]
  rw [compute, if_neg hbelow, if_neg (Bool.eq_false_iff.mp hfits), Int.toNat_natCast]

lemma Windowed.compute_eq_values (function : Windowed) {length n : Nat} (hlength : 0 < length)
    (hn : n + 1 < 0x8000000000000000) (xs : List Float) :
    function.compute (if function.isClipped then min length (n + 1) else length : Nat) xs =
      function.values (if function.isClipped then min length (n + 1) else length) xs := by
  refine compute_natCast ?_ (fun hclipped => ?_) xs
  · split <;> omega
  · rw [if_pos hclipped]
    omega

namespace Indicator

lemma documented_of_resolve {name : String} {count position : Int} {e : FormulaError}
    (h : resolve name count (some position) = .error e) : e.Documented := by
  rw [resolve] at h
  split at h
  · split at h
    · cases h
    · next hcount =>
      cases h
      refine ⟨by simp [FormulaError.kind], ⟨position, rfl⟩, ?_⟩
      rintro _ _ _ _ ⟨⟩
      exact hcount
  · cases h
    exact FormulaError.documented_of_kind (by simp [FormulaError.kind]) rfl

lemma exists_column (n : Nat) (x : Value) {function : Windowed} {position : Int} {y : Value}
    {length : Nat} (hwindow : y.window (windowed function).name position = .ok length) :
    ∃ column, function.values (if function.isClipped then min length (n + 1) else length)
        (x.toNumeric n) = .ok column ∧
      (windowed function).eval n position x y = .ok (.numeric column) := by
  have hclipped : (if function.isClipped then min length (n + 1) else length) ≤
      Decimal.maxInteger := by
    have hlength := Value.window_le hwindow
    split <;> omega
  obtain ⟨column, hcolumn⟩ := function.exists_values hclipped (x.toNumeric n)
  refine ⟨column, hcolumn, ?_⟩
  simp only [eval, hwindow, Fault.ofFormula, Fault.ofData, Except.mapError, bind, Except.bind,
    hcolumn]
  rfl

lemma documented_of_eval {indicator : Indicator} {n : Nat} {position : Int} {x y : Value}
    {fault : Fault} (h : indicator.eval n position x y = .error fault) :
    ∃ e, fault = .formula e ∧ e.Documented := by
  cases indicator with
  | cross => cases h
  | windowed function =>
    cases hwindow : y.window (windowed function).name position with
    | error e =>
      simp only [eval, hwindow] at h
      cases h
      exact ⟨e, rfl, Value.documented_of_window hwindow⟩
    | ok length =>
      obtain ⟨column, -, hvalue⟩ := exists_column n x hwindow
      rw [hvalue] at h
      cases h

end Indicator

namespace Expr

/-- Trees of operators of the language. -/
inductive Supported : Expr → Prop
  | binary {op : BinaryOp} {left right : Expr} {position : Int} (h : op ∈ BinaryOp.known)
    (hleft : Supported left) (hright : Supported right) :
    Supported (.binary op left right position)
  | unary {op : UnaryOp} {operand : Expr} {position : Int} (h : op = .not ∨ op = .neg)
    (hoperand : Supported operand) : Supported (.unary op operand position)
  | literal (value : Float) (position : Int) : Supported (.literal value position)
  | field (name : String) (position : Int) : Supported (.field name position)
  | call {name : String} {args : List Expr} {position : Int} (h : ∀ e ∈ args, Supported e) :
    Supported (.call name args position)

end Expr

namespace Grammar

/-- What a rule derives is supported, or is if it continues a supported expression. -/
def Nonterminal.Supports : (p : Nonterminal) → p.Tree → Prop
  | expr _, tree => Expr.Supported tree
  | links _, tree => ∀ left : Expr, left.Supported → Expr.Supported (tree left)
  | arguments, trees => ∀ e ∈ (trees : List Expr), e.Supported
  | moreArguments, trees => ∀ e ∈ (trees : List Expr), e.Supported

lemma Chain.mem_known {chain : Chain} {kind : TokenKind} {op : BinaryOp}
    (h : chain.op? kind = some op) : op ∈ BinaryOp.known := by
  cases chain <;> cases kind <;> cases h <;> decide

lemma mem_known_of_comparisonOp? {kind : TokenKind} {op : BinaryOp}
    (h : kind.comparisonOp? = some op) : op ∈ BinaryOp.known := by
  cases kind <;> cases h <;> decide

lemma Derivation.supports {p : Nonterminal} (d : Derivation p) : p.Supports d.tree := by
  induction d with
  | chain first rest ihfirst ihrest => exact ihrest _ ihfirst
  | noLink => exact fun left hleft => hleft
  | link operator op h operand rest ihoperand ihrest =>
    intro left hleft
    exact ihrest _ (.binary (Chain.mem_known h) hleft ihoperand)
  | negation operator h operand ih => exact .unary (.inl rfl) ih
  | positive inner ih => exact ih
  | comparing left operator op h right ihleft ihright =>
    exact .binary (mem_known_of_comparisonOp? h) ihleft ihright
  | single inner ih => exact ih
  | opposite operator h operand ih => exact .unary (.inr rfl) ih
  | unsigned inner ih => exact ih
  | number token h => exact .literal _ _
  | field name h => exact .field _ _
  | call name opener closer hname hopener hcloser args ih => exact .call ih
  | group opener closer hopener hcloser inner ih => exact ih
  | noArguments => exact fun e he => absurd he List.not_mem_nil
  | someArguments first rest ihfirst ihrest =>
    rintro e (_ | ⟨_, he⟩)
    · exact ihfirst
    · exact ihrest e he
  | noMore => exact fun e he => absurd he List.not_mem_nil
  | more comma h argument rest ihargument ihrest =>
    rintro e (_ | ⟨_, he⟩)
    · exact ihargument
    · exact ihrest e he

end Grammar

namespace Expr

variable {frame : Frame}

lemma supported_of_parse {text : String} {e : Expr} (h : parse text = .ok e) : e.Supported := by
  simp only [parse, bind_eq_ok_iff, ofTokens_eq_ok_iff] at h
  obtain ⟨tokens, -, tree, ⟨d, -, -, rfl⟩, ⟨⟩, -, htree⟩ := h
  cases htree
  exact d.supports

lemma exists_evalUnary {op : UnaryOp} (h : op = .not ∨ op = .neg) (n : Nat) (position : Int)
    (x : Value) : ∃ v, evalUnary n op position x = .ok v := by
  rcases h with rfl | rfl
  · exact ⟨_, rfl⟩
  · exact ⟨_, rfl⟩

lemma exists_evalBinary {op : BinaryOp} (h : op ∈ BinaryOp.known) (n : Nat) (position : Int)
    (x y : Value) : ∃ v, evalBinary n op position x y = .ok v := by
  cases op with
  | other symbol => simp [BinaryOp.known] at h
  | _ => exact ⟨_, rfl⟩

lemma documented_of_eval {e : Expr} (hsupported : e.Supported) {fault : Fault}
    (h : e.eval frame = .error fault) : ∃ error, fault = .formula error ∧ error.Documented := by
  -- by induction over the tree: whatever fails in it fails in a documented way
  induction hsupported generalizing fault with
  | binary hop _ _ ihleft ihright =>
    simp only [eval, bind_eq_error_iff] at h
    obtain h | ⟨x, -, h | ⟨y, -, h⟩⟩ := h
    · exact ihleft h
    · exact ihright h
    · obtain ⟨v, hv⟩ := exists_evalBinary hop frame.length _ x y
      rw [hv] at h
      cases h
  | unary hop _ ih =>
    simp only [eval, bind_eq_error_iff] at h
    obtain h | ⟨x, -, h⟩ := h
    · exact ih h
    · obtain ⟨v, hv⟩ := exists_evalUnary hop frame.length _ x
      rw [hv] at h
      cases h
  | literal value position =>
    simp only [eval] at h
    cases h
  | field name position =>
    simp only [eval, bind_eq_error_iff] at h
    obtain h | ⟨field, -, h⟩ := h
    · obtain ⟨error, rfl, hfield⟩ := Fault.ofFormula_eq_error_iff.mp h
      exact ⟨error, rfl, Field.documented_of_resolve hfield⟩
    · cases h
  | @call name args position _ ih =>
    obtain ⟨error, rfl, hresolve⟩ | ⟨e, he, heval⟩ | ⟨indicator, _, _, x, y, -, -, -, -, hvalue⟩ :=
      cases_of_eval_call_eq_error h
    · exact ⟨error, rfl, Indicator.documented_of_resolve hresolve⟩
    · exact ih e he heval
    · exact Indicator.documented_of_eval hvalue

end Expr

namespace Series

lemma documented_of_evaluate {s : Series Float} {text : String} {fault : Fault}
    (h : s.evaluate (.text text) = .error fault) :
    ∃ error, fault = .formula error ∧ error.Documented := by
  obtain ⟨frame, hframe⟩ := s.exists_reads_float
  obtain ⟨error, rfl, ⟨-, hkind⟩ | ⟨e, he, heval⟩⟩ := exists_of_evaluate_eq_error hframe rfl h
  · exact ⟨error, rfl, FormulaError.documented_of_malformed hkind⟩
  · have hparse : Expr.parse text = .ok e := Fault.ofFormula_eq_ok_iff.mp he
    exact Expr.documented_of_eval (Expr.supported_of_parse hparse) heval

/-- Over numbers a text has a trigger, a signal and a check of every rule with it as formula, or one
of the documented faults. Its numbers are number texts of their values, and a window that is
accepted is one that the indicator accepts as well, so that checking it there would change nothing.
-/
theorem evaluate_documented (text : String) (s : Series Float) :
    ((∃ result, s.evaluate (.text text) = .ok result) ∨
      ∃ e, s.evaluate (.text text) = .error (.formula e) ∧ e.Documented) ∧
    ((∃ signals, s.signal (.text text) = .ok signals) ∨
      ∃ e, s.signal (.text text) = .error (.formula e) ∧ e.Documented) ∧
    (∀ (rule : Rule) (fetch : Source) (count : Int), rule.formula = .text text →
      ∃ check, rule.check fetch count = .ok check ∧ check.rule = rule ∧
        ∀ e, check.outcome = .formulaFault e → e.Documented) ∧
    (∀ tokens, Token.scan text = .ok tokens → ∀ token ∈ tokens, token.kind = .number →
      Decimal.read? token.text = some token.value) ∧
    ∀ (function : Windowed) (position : Int) (x y : Value) (window : Nat),
      y.window (Indicator.windowed function).name position = .ok window →
      s.length + 1 < 0x8000000000000000 →
        (∃ z, y = .scalar (.number z) ∧ z.isFinite = true) ∧
        ∃ column,
          function.compute
            (if function.isClipped then min window (s.length + 1) else window : Nat)
            (x.toNumeric s.length) = .ok column ∧
          (Indicator.windowed function).eval s.length position x y = .ok (.numeric column) := by
  refine ⟨?_, ?_, fun rule fetch count hformula => ?_,
    fun tokens htokens token htoken hkind => Token.read?_of_scan htokens htoken hkind,
    fun function position x y window hwindow hlength => ?_⟩
  · cases hresult : s.evaluate (.text text) with
    | ok result => exact .inl ⟨result, rfl⟩
    | error fault =>
      obtain ⟨error, rfl, herror⟩ := documented_of_evaluate hresult
      exact .inr ⟨error, rfl, herror⟩
  · cases hsignals : s.signal (.text text) with
    | ok signals => exact .inl ⟨signals, rfl⟩
    | error fault =>
      obtain ⟨frame, hframe⟩ := s.exists_reads_float
      have hevaluate := (signal_eq_error_iff hframe text fault).mp hsignals
      obtain ⟨error, rfl, herror⟩ := documented_of_evaluate hevaluate
      exact .inr ⟨error, rfl, herror⟩
  · obtain ⟨check, hcheck⟩ := rule.exists_check (by rw [hformula]; rfl) fetch count
    obtain ⟨hrule, hcases⟩ := Rule.check_cases hcheck
    refine ⟨check, hcheck, hrule, fun e he => ?_⟩
    rw [hformula, he] at hcases
    obtain ⟨_, -, ⟨⟩⟩ | ⟨series, -, ⟨_, -, ⟨⟩⟩ | ⟨_, hfault, ⟨⟩⟩⟩ := hcases
    obtain ⟨error, hsame, herror⟩ := documented_of_evaluate hfault
    cases hsame
    exact herror
  · obtain ⟨hpos, hnumber⟩ := Value.of_window hwindow
    obtain ⟨column, hcolumn, hvalue⟩ := Indicator.exists_column s.length x hwindow
    refine ⟨hnumber, column, ?_, hvalue⟩
    rw [function.compute_eq_values hpos hlength, hcolumn]

theorem evaluate_documented_average :
    let s : Series Float := [⟨⟨1, 1, 1, 1, 10⟩, "2024-01-02"⟩]
    (∃ e, s.evaluate (.text "MA(C, 0/0)") = .error (.formula e) ∧ e.Documented ∧
      e.position? = some 7) ∧
    (Value.scalar (.number 2)).window "MA" 6 = .ok 2 ∧
    ∃ column, Windowed.ma.compute 2 [1] = .ok column ∧
      (Indicator.windowed .ma).eval 1 6 (.numeric [1]) (.scalar (.number 2)) =
        .ok (.numeric column) := by
  intro s
  have hfault : s.evaluate (.text "MA(C, 0/0)") =
    .error (.formula (.windowNotPositive "MA" Decimal.nan 7)) := rfl
  have hwindow : (Value.scalar (.number 2)).window "MA" 6 = .ok 2 := rfl
  obtain ⟨houtcome, -, -, -, hguard⟩ := evaluate_documented "MA(C, 0/0)" s
  refine ⟨?_, hwindow, (hguard .ma 6 (.numeric [1]) _ 2 hwindow (by decide)).2⟩
  obtain ⟨result, hresult⟩ | ⟨e, he, hdocumented⟩ := houtcome
  · cases hfault.symm.trans hresult
  · cases hfault.symm.trans he
    exact ⟨_, hfault, hdocumented, rfl⟩

end Series

end MarketFormula
