import MarketFormula.Proofs.Formula.Soundness
import MarketFormula.Proofs.Result

/-!
# Where readers stop

A reader that fails has read the first tokens of some derivation of its level, and its fault is at
the token that follows them or at the end of the formula.
-/
namespace MarketFormula

/-- Faults at tokens that open one level too many. -/
def FormulaError.isTooDeep : FormulaError → Bool
  | nestedTooDeeply .. => true
  | _ => false

/-- The fault is at the next token, or at the end of the formula if there is none. -/
def Stop.IsAtCursor (stop : Stop) : Prop :=
  match stop.cursor.rest with
  | token :: _ => stop.error.token? = some token.text ∧
      stop.error.position? = some (token.position : Int)
  | [] => stop.error.token? = some "" ∧ stop.error.position? = some (stop.cursor.finish : Int)

lemma Meets.of_eq_ok {α : Type} {P : α → Prop} {x : Except Stop α} {a : α} (h : Meets P x)
    (hx : x = .ok a) : P a := by
  subst hx
  exact h

namespace Grammar

/-- A reader for a rule stopped behind tokens that some derivation of the rule starts with. -/
def Halted (p : Nonterminal) (budget : Nat) (c : Cursor) (stop : Stop) : Prop :=
  ∃ xs, c.Reads xs stop.cursor ∧ (stop.error.isTooDeep = false →
    stop.IsAtCursor ∧ ∃ d : Derivation p, xs <+: d.tokens ∧ d.nesting ≤ budget)

def Halts (level : Level) (budget : Nat) (reader : Reader) : Prop :=
  ∀ c stop, reader c = .error stop → Halted (.expr level) budget c stop

/-- A reader that reads derivations only, also where it stops. -/
structure Careful (level : Level) (budget : Nat) (reader : Reader) : Prop where
  sound : Sound level budget reader
  halts : Halts level budget reader

lemma Halted.embed {p q : Nonterminal} {less budget : Nat} {c m : Cursor} {us : List Token}
    {stop : Stop} (h : Halted p less m stop) (hreads : c.Reads us m)
    (wrap : Derivation p → Derivation q) (htokens : ∀ d, us ++ d.tokens <+: (wrap d).tokens)
    (hnesting : ∀ d, d.nesting ≤ less → (wrap d).nesting ≤ budget) : Halted q budget c stop := by
  obtain ⟨xs, hxs, h⟩ := h
  refine ⟨us ++ xs, hreads.append hxs, fun hdepth => ?_⟩
  obtain ⟨hat, d, hfront, hn⟩ := h hdepth
  exact ⟨hat, wrap d, ((List.prefix_append_right_inj us).mpr hfront).trans (htokens d),
    hnesting d hn⟩

section Combinators

variable {budget : Nat}

lemma halted_chain {chain : Chain} {operand : Reader} (hoperand : Sound chain.operand budget operand)
    (hhalts : Halts chain.operand budget operand) (rounds : Nat) (left : Expr) (c : Cursor)
    (stop : Stop) (h : Reader.chain chain.op? operand rounds left c = .error stop) :
    Halted (.links chain) budget c stop := by
  induction rounds generalizing left c with
  | zero => cases h
  | succ rounds ih =>
    simp only [Reader.chain] at h
    cases hnext : c.next? with
    | none => simp [hnext] at h
    | some step =>
      obtain ⟨token, m⟩ := step
      cases hop : chain.op? token.kind with
      | none => simp [hnext, hop] at h
      | some op =>
        simp only [hnext, hop] at h
        obtain h | ⟨⟨right, m'⟩, hright, h⟩ := bind_eq_error_iff.mp h
        · exact (hhalts m stop h).embed (.cons hnext (.nil m)) (.link token op hop · .noLink)
            (by simp) (by simp [Derivation.nesting])
        · obtain ⟨d, -, hreads, hn⟩ := (hoperand m).of_eq_ok hright
          exact (ih _ m' h).embed (.cons hnext hreads) (.link token op hop d)
            (by simp) fun _ hd => Nat.max_le.mpr ⟨hn, hd⟩

lemma halts_leftAssociative {chain : Chain} {operand : Reader}
    (hoperand : Sound chain.operand budget operand) (hhalts : Halts chain.operand budget operand) :
    Halts (.chain chain) budget (Reader.leftAssociative chain.op? operand) := by
  intro c stop h
  obtain h | ⟨⟨first, m⟩, hfirst, h⟩ := bind_eq_error_iff.mp h
  · exact (hhalts c stop h).embed (.nil c) (.chain · .noLink) (by simp) (by simp [Derivation.nesting])
  · obtain ⟨d, -, hreads, hn⟩ := (hoperand c).of_eq_ok hfirst
    exact (halted_chain hoperand hhalts _ _ m stop h).embed hreads (.chain d) (by simp)
      fun _ hd => Nat.max_le.mpr ⟨hn, hd⟩

lemma halted_moreArguments {argument : Reader} (hargument : Sound (.chain .or) budget argument)
    (hhalts : Halts (.chain .or) budget argument) (rounds : Nat) (c : Cursor) (stop : Stop)
    (h : Reader.moreArguments argument rounds c = .error stop) :
    Halted .moreArguments budget c stop := by
  induction rounds generalizing c with
  | zero => cases h
  | succ rounds ih =>
    simp only [Reader.moreArguments] at h
    cases hnext : c.next? with
    | none => simp [hnext] at h
    | some step =>
      obtain ⟨token, m⟩ := step
      simp only [hnext] at h
      split at h
      · next hcomma =>
        obtain h | ⟨⟨arg, m'⟩, harg, h⟩ := bind_eq_error_iff.mp h
        · exact (hhalts m stop h).embed (.cons hnext (.nil m)) (.more token hcomma · .noMore)
            (by simp) (by simp [Derivation.nesting])
        · obtain ⟨d, -, hreads, hn⟩ := (hargument m).of_eq_ok harg
          obtain h | ⟨⟨args, m''⟩, -, h⟩ := bind_eq_error_iff.mp h
          · exact (ih m' h).embed (.cons hnext hreads) (.more token hcomma d)
              (by simp) fun _ hd => Nat.max_le.mpr ⟨hn, hd⟩
          · cases h
      · cases h

lemma halted_arguments {argument : Reader} (hargument : Sound (.chain .or) budget argument)
    (hhalts : Halts (.chain .or) budget argument) (c : Cursor) (stop : Stop)
    (h : Reader.arguments argument c = .error stop) : Halted .arguments budget c stop := by
  unfold Reader.arguments at h
  split at h
  · cases h
  · split at h
    · cases h
    · obtain h | ⟨⟨arg, m⟩, harg, h⟩ := bind_eq_error_iff.mp h
      · exact (hhalts c stop h).embed (.nil c) (.someArguments · .noMore) (by simp)
          (by simp [Derivation.nesting])
      · obtain ⟨d, -, hreads, hn⟩ := (hargument c).of_eq_ok harg
        obtain h | ⟨⟨args, m'⟩, -, h⟩ := bind_eq_error_iff.mp h
        · exact (halted_moreArguments hargument hhalts _ m stop h).embed hreads (.someArguments d)
            (by simp) fun _ hd => Nat.max_le.mpr ⟨hn, hd⟩
        · cases h

lemma halted_deepen {p : Nonterminal} {depth : Nat} {deeper : Option Readers} {opener : Token}
    {c m : Cursor} {xs : List Token} {stop : Stop} (hreads : c.Reads xs m)
    (h : Reader.deepen depth deeper opener m = .error stop) : Halted p budget c stop := by
  cases deeper with
  | some readers => cases h
  | none =>
    cases h
    exact ⟨xs, hreads, fun hdepth => by cases hdepth⟩

lemma halted_close {p : Nonterminal} {depth : Nat} {description : String} {c m : Cursor}
    {xs : List Token} {stop : Stop} (hreads : c.Reads xs m) (d : Derivation p)
    (htokens : xs <+: d.tokens) (hnesting : d.nesting ≤ budget)
    (h : Reader.close depth description m = .error stop) : Halted p budget c stop := by
  unfold Reader.close Cursor.expect at h
  rcases m with ⟨seen, rest, finish⟩
  cases rest with
  | nil =>
    cases h
    exact ⟨xs, hreads, fun _ => ⟨⟨rfl, rfl⟩, d, htokens, hnesting⟩⟩
  | cons token rest =>
    rw [Cursor.next?_mk_cons] at h
    dsimp only at h
    split at h
    · cases h
    · next hexpect =>
      split at hexpect
      · cases hexpect
      · cases hexpect
        cases h
        exact ⟨xs, hreads, fun _ => ⟨⟨rfl, rfl⟩, d, htokens, hnesting⟩⟩

end Combinators

section Level

variable {budget : Nat} (depth : Nat) {deeper : Option Readers}
  (hdeeper : ∀ readers, deeper = some readers → ∃ less, less + 1 ≤ budget ∧
    ∀ level, Careful level less (readers.get level))

include hdeeper

omit depth in
lemma sound_deeper (readers : Readers) (h : deeper = some readers) : ∃ less, less + 1 ≤ budget ∧
    ∀ level, Sound level less (readers.get level) := by
  obtain ⟨less, hless, hlevel⟩ := hdeeper readers h
  exact ⟨less, hless, fun level => (hlevel level).sound⟩

lemma halted_call {name opener : Token} (hname : name.kind = .name)
    (hopener : opener.kind = .leftParen) {c m m' : Cursor} (hnext : c.next? = some (name, m))
    (hnext' : m.next? = some (opener, m')) (stop : Stop)
    (h : Reader.call depth deeper name m' = .error stop) :
    Halted (.expr .primary) budget c stop := by
  have hopened : c.Reads [name, opener] m' := .cons hnext (.cons hnext' (.nil m'))
  let closer : Token := ⟨.rightParen, ")", 0⟩
  obtain h | ⟨inner, hinner, h⟩ := bind_eq_error_iff.mp h
  · exact halted_deepen hopened h
  · obtain ⟨less, hless, hlevel⟩ := hdeeper inner ((meets_deepen depth deeper name m').of_eq_ok hinner)
    obtain ⟨hsound, hhalts⟩ := hlevel (.chain .or)
    obtain h | ⟨⟨args, c'⟩, hargs, h⟩ := bind_eq_error_iff.mp h
    · exact (halted_arguments hsound hhalts m' stop h).embed hopened
        (.call name opener closer hname hopener rfl) (by simp)
        (fun d hd => by simp only [Derivation.nesting]; omega)
    · obtain ⟨d, -, hreads, hn⟩ := (sound_arguments hsound m').of_eq_ok hargs
      obtain h | ⟨c'', -, h⟩ := bind_eq_error_iff.mp h
      · exact halted_close (hopened.append hreads) (.call name opener closer hname hopener rfl d)
          (by simp) (by simp only [Derivation.nesting]; omega) h
      · cases h

lemma halted_group {opener : Token} (hopener : opener.kind = .leftParen) {c m : Cursor}
    (hnext : c.next? = some (opener, m)) (stop : Stop)
    (h : (do
      let inner ← Reader.deepen depth deeper opener m
      let (e, c') ← inner.orExpr m
      let c'' ← Reader.close depth "')'" c'
      return (e, c'')) = .error stop) :
    Halted (.expr .primary) budget c stop := by
  have hopened : c.Reads [opener] m := .cons hnext (.nil m)
  let closer : Token := ⟨.rightParen, ")", 0⟩
  obtain h | ⟨inner, hinner, h⟩ := bind_eq_error_iff.mp h
  · exact halted_deepen hopened h
  · obtain ⟨less, hless, hlevel⟩ := hdeeper inner ((meets_deepen ..).of_eq_ok hinner)
    obtain ⟨hsound, hhalts⟩ := hlevel (.chain .or)
    obtain h | ⟨⟨e, c'⟩, he, h⟩ := bind_eq_error_iff.mp h
    · exact (hhalts m stop h).embed hopened (.group opener closer hopener rfl) (by simp)
        fun _ hd => (Nat.succ_le_succ hd).trans hless
    · obtain ⟨d, -, hreads, hn⟩ := (hsound m).of_eq_ok he
      obtain h | ⟨c'', -, h⟩ := bind_eq_error_iff.mp h
      · exact halted_close (hopened.append hreads) (.group opener closer hopener rfl d) (by simp)
          ((Nat.succ_le_succ hn).trans hless) h
      · cases h

lemma halts_primary : Halts .primary budget (Reader.primary depth deeper) := by
  intro c stop h
  let operand : Token := ⟨.name, "C", 0⟩
  unfold Reader.primary at h
  rcases c with ⟨seen, rest, finish⟩
  cases rest with
  | nil =>
    cases h
    exact ⟨[], .nil _, fun _ => ⟨⟨rfl, rfl⟩, .field operand rfl, List.nil_prefix, Nat.zero_le _⟩⟩
  | cons token rest =>
    have hnext : (Cursor.mk seen (token :: rest) finish).next? =
        some (token, ⟨token :: seen, rest, finish⟩) := rfl
    rw [hnext] at h
    dsimp only at h
    split at h
    · cases h
    · next hkind =>
      split at h
      · next opener m hnext' =>
        split at h
        · next hopener => exact halted_call depth hdeeper hkind hopener hnext hnext' stop h
        · cases h
      · cases h
    · next hkind =>
      exact halted_group depth hdeeper hkind hnext stop h
    · cases h
      exact ⟨[], .nil _, fun _ => ⟨⟨rfl, rfl⟩, .field operand rfl, List.nil_prefix, Nat.zero_le _⟩⟩

lemma halted_operator {level : Level} {operator : Token} {c m : Cursor}
    (hnext : c.next? = some (operator, m)) (wrap : Derivation (.expr level) → Derivation (.expr level))
    (htokens : ∀ d, (wrap d).tokens = operator :: d.tokens)
    (hnesting : ∀ d, (wrap d).nesting = d.nesting + 1) (node : Expr → Expr) {stop : Stop}
    (h : (do
      let inner ← Reader.deepen depth deeper operator m
      let (e, c') ← inner.get level m
      return (node e, c')) = .error stop) :
    Halted (.expr level) budget c stop := by
  have hopened : c.Reads [operator] m := .cons hnext (.nil m)
  obtain h | ⟨inner, hinner, h⟩ := bind_eq_error_iff.mp h
  · exact halted_deepen hopened h
  · obtain ⟨less, hless, hlevel⟩ := hdeeper inner ((meets_deepen ..).of_eq_ok hinner)
    obtain h | ⟨⟨e, c'⟩, -, h⟩ := bind_eq_error_iff.mp h
    · refine ((hlevel level).halts m stop h).embed hopened wrap (fun d => ?_) fun d hd => ?_
      · rw [htokens]
        exact List.prefix_rfl
      · rw [hnesting]
        exact (Nat.succ_le_succ hd).trans hless
    · cases h

lemma halts_unary : Halts .unary budget (Reader.unary depth deeper) := by
  intro c stop h
  have hprimary (h : Reader.primary depth deeper c = .error stop) :
      Halted (.expr .unary) budget c stop :=
    (halts_primary depth hdeeper c stop h).embed (.nil c) .unsigned (by simp) fun _ hd => hd
  unfold Reader.unary at h
  split at h
  · next token m hnext =>
    split at h
    · next hminus =>
      exact halted_operator depth hdeeper hnext (.opposite token hminus) (fun _ => rfl)
        (fun _ => rfl) (.unary .neg · token.position) h
    · exact hprimary h
  · exact hprimary h

lemma halts_additive : Halts (.chain .additive) budget (Reader.additive depth deeper) := by
  have hunary := sound_unary depth (sound_deeper hdeeper)
  exact halts_leftAssociative (sound_leftAssociative hunary)
    (halts_leftAssociative hunary (halts_unary depth hdeeper))

lemma halts_comparison : Halts .comparison budget (Reader.comparison depth deeper) := by
  intro c stop h
  have hsound := sound_additive depth (sound_deeper hdeeper)
  have hhalts := halts_additive depth hdeeper
  obtain h | ⟨⟨left, m⟩, hleft, h⟩ := bind_eq_error_iff.mp h
  · exact (hhalts c stop h).embed (.nil c) .single (by simp) fun _ hd => hd
  obtain ⟨d, -, hreads, hn⟩ := (hsound c).of_eq_ok hleft
  dsimp only at h
  split at h
  · next token m' hnext =>
    split at h
    · next op hop =>
      obtain h | ⟨⟨right, c'⟩, hright, h⟩ := bind_eq_error_iff.mp h
      · exact (hhalts m' stop h).embed (hreads.append (.cons hnext (.nil m')))
          (.comparing d token op hop) (by simp) fun _ hd => Nat.max_le.mpr ⟨hn, hd⟩
      obtain ⟨d', -, hreads', hn'⟩ := (hsound m').of_eq_ok hright
      dsimp only at h
      split at h
      · next second behind hrest =>
        split at h
        · cases h
          refine ⟨_, hreads.append (.cons hnext hreads'), fun _ => ⟨?_, .comparing d token op hop d',
            List.prefix_rfl, Nat.max_le.mpr ⟨hn, hn'⟩⟩⟩
          rw [Stop.IsAtCursor, hrest]
          exact ⟨rfl, rfl⟩
        · cases h
      · cases h
    · cases h
  · cases h

lemma halts_notExpr : Halts .not budget (Reader.notExpr depth deeper) := by
  intro c stop h
  have hcomparison (h : Reader.comparison depth deeper c = .error stop) :
      Halted (.expr .not) budget c stop :=
    (halts_comparison depth hdeeper c stop h).embed (.nil c) .positive (by simp) fun _ hd => hd
  unfold Reader.notExpr at h
  split at h
  · next token m hnext =>
    split at h
    · next hnot =>
      exact halted_operator depth hdeeper hnext (.negation token hnot) (fun _ => rfl)
        (fun _ => rfl) (.unary .not · token.position) h
    · exact hcomparison h
  · exact hcomparison h

lemma careful_over (level : Level) : Careful level budget ((Readers.over depth deeper).get level) := by
  -- from the tightest level to the loosest
  have hsound := sound_over depth (sound_deeper hdeeper)
  have hand : Halts (.chain .and) budget (Reader.andExpr depth deeper) :=
    halts_leftAssociative (hsound .not) (halts_notExpr depth hdeeper)
  refine ⟨hsound level, ?_⟩
  cases level with
  | chain chain =>
    cases chain with
    | or => exact halts_leftAssociative (hsound (.chain .and)) hand
    | and => exact hand
    | additive => exact halts_additive depth hdeeper
    | term => exact halts_leftAssociative (hsound .unary) (halts_unary depth hdeeper)
  | not => exact halts_notExpr depth hdeeper
  | comparison => exact halts_comparison depth hdeeper
  | unary => exact halts_unary depth hdeeper
  | primary => exact halts_primary depth hdeeper

end Level

/-- The induction over the levels that may still be opened. -/
theorem careful_within (budget depth : Nat) (level : Level) :
    Careful level budget ((Readers.within budget depth).get level) := by
  induction budget generalizing depth level with
  | zero =>
    refine careful_over depth (fun readers hreaders => ?_) level
    cases hreaders
  | succ budget ih =>
    refine careful_over depth (fun readers hreaders => ?_) level
    cases hreaders
    exact ⟨budget, le_rfl, ih (depth + 1)⟩

theorem halted_formula {tokens : List Token} (htokens : tokens ≠ []) {finish : Nat} {stop : Stop}
    (h : Reader.formula 0 (.start tokens finish) = .error stop) :
    Halted .formula maxNesting (.start tokens finish) stop := by
  have hempty : (Cursor.start tokens finish).tokens.isEmpty = false := by
    simpa [Cursor.start, Cursor.tokens] using htokens
  have hcareful := careful_within maxNesting 0 (.chain .or)
  unfold Reader.formula at h
  rw [hempty, if_neg (by decide)] at h
  obtain h | ⟨⟨e, c'⟩, he, h⟩ := bind_eq_error_iff.mp h
  · exact hcareful.halts _ stop h
  obtain ⟨d, -, hreads, hn⟩ := (hcareful.sound _).of_eq_ok he
  have hbehind (stop : Stop) (hcursor : stop.cursor = c') (hat : stop.IsAtCursor) :
      Halted .formula maxNesting (.start tokens finish) stop := by
    subst hcursor
    exact ⟨_, hreads, fun _ => ⟨hat, d, List.prefix_rfl, hn⟩⟩
  dsimp only at h
  split at h
  · cases h
  · next token behind hrest =>
    split at h
    all_goals
      cases h
      refine hbehind _ rfl ?_
      rw [Stop.IsAtCursor, hrest]
      exact ⟨rfl, rfl⟩

end Grammar

end MarketFormula
