import MarketFormula.Proofs.Formula.Lockstep
import MarketFormula.Proofs.Formula.Naming
import MarketFormula.Proofs.Formula.Shift
import MarketFormula.Proofs.Formula.Unambiguity

/-!
# Parsing with a counter of open levels

The language can be read by mutually recursive functions that carry a counter of open levels. With
enough fuel every run ends as the reader does and has balanced its counter.
-/
namespace MarketFormula

open Grammar

/-- A parser at work: its place in the tokens and its count of the nesting levels that are open. -/
structure ParseState where
  cursor : Cursor
  depth : Nat
  deriving DecidableEq

namespace ParseState

/-- A run with some fuel: a result or where it stopped, nothing if the fuel was not enough. -/
abbrev Run := ExceptT Stop Option

def stop (s : ParseState) (e : FormulaError) : Stop :=
  ⟨e, s.cursor, s.depth⟩

/-- Counts one more level, also where it is one too many. -/
def enter (s : ParseState) (opener : Token) : Except Stop ParseState :=
  let entered := { s with depth := s.depth + 1 }
  if maxNesting < entered.depth then
    .error (entered.stop (.nestedTooDeeply opener.text opener.position))
  else .ok entered

def leave (s : ParseState) : ParseState :=
  { s with depth := s.depth - 1 }

def expectClosing (s : ParseState) (description : String) : Except Stop ParseState :=
  match s.cursor.expect (· == .rightParen) description with
  | .ok (_, m) => .ok { s with cursor := m }
  | .error e => .error (s.stop e)

mutual

def expr : (fuel : Nat) → Level → ParseState → Run (Expr × ParseState)
  | 0, _, _ => ExceptT.mk none
  | fuel + 1, .chain chain, s => do
    let (first, s) ← expr fuel chain.operand s
    links fuel chain first s
  | fuel + 1, .not, s =>
    match s.cursor.next? with
    | some (token, m) =>
      if token.kind = .not then do
        let s ← enter { s with cursor := m } token
        let (e, s) ← expr fuel .not s
        return (.unary .not e token.position, s.leave)
      else expr fuel .comparison s
    | none => expr fuel .comparison s
  | fuel + 1, .comparison, s => do
    let (left, s) ← expr fuel (.chain .additive) s
    match s.cursor.next? with
    | some (token, m) =>
      match token.kind.comparisonOp? with
      | some op => do
        let (right, s) ← expr fuel (.chain .additive) { s with cursor := m }
        match s.cursor.rest with
        | second :: _ =>
          if second.kind.isComparison then throw (s.stop (.chainedComparison second))
          else return (.binary op left right token.position, s)
        | [] => return (.binary op left right token.position, s)
      | none => return (left, s)
    | none => return (left, s)
  | fuel + 1, .unary, s =>
    match s.cursor.next? with
    | some (token, m) =>
      if token.kind = .minus then do
        let s ← enter { s with cursor := m } token
        let (e, s) ← expr fuel .unary s
        return (.unary .neg e token.position, s.leave)
      else expr fuel .primary s
    | none => expr fuel .primary s
  | fuel + 1, .primary, s =>
    match s.cursor.next? with
    | none => throw (s.stop (.missingOperand s.cursor.seen.head? s.cursor.finish))
    | some (token, m) =>
      match token.kind with
      | .number => return (.literal token.value token.position, { s with cursor := m })
      | .name =>
        match m.next? with
        | some (paren, m') =>
          if paren.kind = .leftParen then call fuel token { s with cursor := m' }
          else return (.field token.text token.position, { s with cursor := m })
        | none => return (.field token.text token.position, { s with cursor := m })
      | .leftParen => do
        let s ← enter { s with cursor := m } token
        let (e, s) ← expr fuel (.chain .or) s
        let s ← s.expectClosing "')'"
        return (e, s.leave)
      | _ => throw (s.stop (.notAnOperand token))

def links : (fuel : Nat) → Chain → (left : Expr) → ParseState → Run (Expr × ParseState)
  | 0, _, _, _ => ExceptT.mk none
  | fuel + 1, chain, left, s =>
    match s.cursor.next? with
    | some (token, m) =>
      match chain.op? token.kind with
      | some op => do
        let (right, s) ← expr fuel chain.operand { s with cursor := m }
        links fuel chain (.binary op left right token.position) s
      | none => return (left, s)
    | none => return (left, s)

def call : (fuel : Nat) → (name : Token) → ParseState → Run (Expr × ParseState)
  | 0, _, _ => ExceptT.mk none
  | fuel + 1, name, s => do
    let s ← s.enter name
    let (args, s) ← arguments fuel s
    let s ← s.expectClosing ("')' to close " ++ name.text ++ "(")
    return (.call name.text args name.position, s.leave)

def arguments : (fuel : Nat) → ParseState → Run (List Expr × ParseState)
  | 0, _ => ExceptT.mk none
  | fuel + 1, s =>
    match s.cursor.rest with
    | [] => return ([], s)
    | token :: _ =>
      if token.kind = .rightParen then return ([], s)
      else do
        let (arg, s) ← expr fuel (.chain .or) s
        let (args, s) ← moreArguments fuel s
        return (arg :: args, s)

def moreArguments : (fuel : Nat) → ParseState → Run (List Expr × ParseState)
  | 0, _ => ExceptT.mk none
  | fuel + 1, s =>
    match s.cursor.next? with
    | some (token, m) =>
      if token.kind = .comma then do
        let (arg, s) ← expr fuel (.chain .or) { s with cursor := m }
        let (args, s) ← moreArguments fuel s
        return (arg :: args, s)
      else return ([], s)
    | none => return ([], s)

end

end ParseState

namespace Cursor

lemma length_tokens (c : Cursor) : c.tokens.length = c.index + c.rest.length := by
  simp [tokens, index]

namespace Reads

variable {c c' : Cursor} {xs : List Token}

lemma index_eq (h : c.Reads xs c') : c'.index = c.index + xs.length := by
  have hlength := congrArg List.length h.tokens_eq
  have hrest := congrArg List.length h.rest_eq
  rw [length_tokens, length_tokens] at hlength
  rw [List.length_append] at hrest
  omega

lemma index_le (h : c.Reads xs c') : c'.index ≤ c.tokens.length := by
  rw [← h.tokens_eq, length_tokens]
  exact Nat.le_add_right ..

end Reads

lemma rest_eq_nil {c : Cursor} (h : c.next? = none) : c.rest = [] := by
  rcases c with ⟨seen, _ | ⟨token, rest⟩, finish⟩
  · rfl
  · cases h

end Cursor

namespace ParseState

/-- With enough fuel a run comes to this result. -/
def Ends {α : Type} (run : Nat → Run α) (result : Except Stop α) : Prop :=
  ∃ enough, ∀ fuel, enough ≤ fuel → run fuel = ExceptT.mk (some result)

/-- A reader's result with this many levels open if it succeeds. -/
def counted {α : Type} (depth : Nat) (x : Except Stop (α × Cursor)) :
    Except Stop (α × ParseState) :=
  x.map fun result => (result.1, ⟨result.2, depth⟩)

namespace Ends

variable {α β : Type} {depth inner : Nat}

lemma of_eq {run : Run α} {result : Except Stop α} (h : run = ExceptT.mk (some result)) :
    Ends (fun _ => run) result :=
  ⟨0, fun _ _ => h⟩

lemma unique {run : Nat → Run α} {result result' : Except Stop α} (h : Ends run result)
    (h' : Ends run result') : result = result' := by
  obtain ⟨enough, h⟩ := h
  obtain ⟨enough', h'⟩ := h'
  have heq := (h _ (Nat.le_max_left enough enough')).symm.trans (h' _ (Nat.le_max_right ..))
  exact Option.some.inj heq

lemma step {run : Nat → Run α} {result : Except Stop α}
    (h : Ends (fun fuel => run (fuel + 1)) result) : Ends run result := by
  obtain ⟨enough, h⟩ := h
  refine ⟨enough + 1, fun fuel hfuel => ?_⟩
  cases fuel with
  | zero => cases hfuel
  | succ fuel => exact h fuel (Nat.le_of_succ_le_succ hfuel)

lemma bind {x : Except Stop (α × Cursor)} {f : α × Cursor → Except Stop (β × Cursor)}
    {run : Nat → Run (α × ParseState)} {rest : Nat → α × ParseState → Run (β × ParseState)}
    (h : Ends run (counted inner x))
    (hrest : ∀ a c, x = .ok (a, c) →
      Ends (fun fuel => rest fuel (a, ⟨c, inner⟩)) (counted depth (f (a, c)))) :
    Ends (fun fuel => run fuel >>= rest fuel) (counted depth (x >>= f)) := by
  obtain ⟨enough, h⟩ := h
  cases x with
  | ok result =>
    obtain ⟨enough', hrest⟩ := hrest result.1 result.2 rfl
    refine ⟨max enough enough', fun fuel hfuel => ?_⟩
    obtain ⟨hle, hle'⟩ := Nat.max_le.mp hfuel
    dsimp only
    rw [h fuel hle]
    exact hrest fuel hle'
  | error stop =>
    refine ⟨enough, fun fuel hfuel => ?_⟩
    dsimp only
    rw [h fuel hfuel]
    rfl

lemma expectClosing {description : String} {c : Cursor} {f : Cursor → Except Stop (α × Cursor)}
    {rest : Nat → ParseState → Run (α × ParseState)}
    (h : ∀ m, Ends (fun fuel => rest fuel ⟨m, depth + 1⟩) (counted depth (f m))) :
    Ends (fun fuel => do rest fuel (← (ParseState.mk c (depth + 1)).expectClosing description))
      (counted depth (Reader.close depth description c >>= f)) := by
  unfold ParseState.expectClosing Reader.close
  dsimp only
  cases c.expect (· == .rightParen) description with
  | ok step => exact h step.2
  | error e => exact of_eq rfl

end Ends

section Combinators

variable {depth : Nat}

/-- The runs of a level end as a reader does. -/
def Agrees (depth : Nat) (level : Level) (reader : Reader) : Prop :=
  ∀ c, Ends (expr · level ⟨c, depth⟩) (counted depth (reader c))

lemma ends_links {budget : Nat} {chain : Chain} {operand : Reader}
    (hcareful : Careful chain.operand budget operand) (hagrees : Agrees depth chain.operand operand)
    {rounds : Nat} (left : Expr) {c : Cursor} (hrounds : c.rest.length ≤ rounds) :
    Ends (links · chain left ⟨c, depth⟩)
      (counted depth (Reader.chain chain.op? operand rounds left c)) := by
  -- the loop stops by itself before the rounds of the reader are over
  induction rounds using Nat.strong_induction_on generalizing left c with
  | _ rounds ih =>
    refine .step ?_
    simp only [links]
    cases hnext : c.next? with
    | none =>
      rw [Pairing.chain_of_nil rounds left (Cursor.rest_eq_nil hnext)]
      exact .of_eq rfl
    | some step =>
      obtain ⟨token, m⟩ := step
      cases hop : chain.op? token.kind with
      | none =>
        rw [Pairing.chain_of_none rounds left hnext hop]
        simp only [hop]
        exact .of_eq rfl
      | some op =>
        obtain ⟨less, hless, rfl, hchain⟩ := Pairing.chain_of_some left hrounds hnext hop
        rw [hchain]
        simp only [hop]
        refine (hagrees m).bind fun right m' hright => ?_
        exact ih less (Nat.lt_succ_self _) _ ((hcareful.length_le hright).trans hless)

lemma agrees_leftAssociative {budget : Nat} {chain : Chain} {operand : Reader}
    (hcareful : Careful chain.operand budget operand)
    (hagrees : Agrees depth chain.operand operand) :
    Agrees depth (.chain chain) (Reader.leftAssociative chain.op? operand) := by
  intro c
  refine .step ?_
  simp only [expr]
  exact (hagrees c).bind fun first m _ => ends_links hcareful hagrees first le_rfl

lemma ends_moreArguments {budget : Nat} {argument : Reader}
    (hcareful : Careful (.chain .or) budget argument) (hagrees : Agrees depth (.chain .or) argument)
    {rounds : Nat} {c : Cursor} (hrounds : c.rest.length ≤ rounds) :
    Ends (moreArguments · ⟨c, depth⟩) (counted depth (Reader.moreArguments argument rounds c)) := by
  induction rounds using Nat.strong_induction_on generalizing c with
  | _ rounds ih =>
    refine .step ?_
    simp only [moreArguments]
    cases hnext : c.next? with
    | none =>
      rw [Pairing.moreArguments_of_nil rounds (Cursor.rest_eq_nil hnext)]
      exact .of_eq rfl
    | some step =>
      obtain ⟨token, m⟩ := step
      dsimp only
      split
      · next hcomma =>
        obtain ⟨less, hless, rfl, hmore⟩ := Pairing.moreArguments_of_comma hrounds hnext hcomma
        rw [hmore]
        refine (hagrees m).bind fun arg m' harg => ?_
        refine (ih less (Nat.lt_succ_self _) ((hcareful.length_le harg).trans hless)).bind ?_
        exact fun _ _ _ => .of_eq rfl
      · next hcomma =>
        rw [Pairing.moreArguments_of_ne rounds hnext hcomma]
        exact .of_eq rfl

lemma ends_arguments {budget : Nat} {argument : Reader}
    (hcareful : Careful (.chain .or) budget argument) (hagrees : Agrees depth (.chain .or) argument)
    (c : Cursor) :
    Ends (arguments · ⟨c, depth⟩) (counted depth (Reader.arguments argument c)) := by
  refine .step ?_
  simp only [arguments]
  unfold Reader.arguments
  cases c.rest with
  | nil => exact .of_eq rfl
  | cons token rest =>
    dsimp only
    split
    · exact .of_eq rfl
    · refine (hagrees c).bind fun arg m _ => ?_
      exact (ends_moreArguments hcareful hagrees le_rfl).bind fun _ _ _ => .of_eq rfl

end Combinators

/-- What lies beneath the readers of a depth: no level may be opened only where all levels are open,
and runs with one more level open agree with the readers of the next level. -/
structure Beneath (budget depth : Nat) (deeper : Option Readers) : Prop where
  full : deeper = none → depth = maxNesting
  more : ∀ readers, deeper = some readers → depth < maxNesting ∧ ∃ less, less + 1 ≤ budget ∧
    ∀ level, Careful level less (readers.get level) ∧ Agrees (depth + 1) level (readers.get level)

section Level

variable {budget depth : Nat} {deeper : Option Readers} (hbeneath : Beneath budget depth deeper)

include hbeneath

lemma careful_level (level : Level) :
    Careful level budget ((Readers.over depth deeper).get level) := by
  refine careful_over depth (fun readers hreaders => ?_) level
  obtain ⟨-, less, hless, hlevel⟩ := hbeneath.more readers hreaders
  exact ⟨less, hless, fun level => (hlevel level).1⟩

lemma ends_enter {α : Type} {opener : Token} {c : Cursor}
    {f : Readers → Except Stop (α × Cursor)} {rest : Nat → ParseState → Run (α × ParseState)}
    (h : ∀ readers less, (∀ level, Careful level less (readers.get level) ∧
      Agrees (depth + 1) level (readers.get level)) →
        Ends (fun fuel => rest fuel ⟨c, depth + 1⟩) (counted depth (f readers))) :
    Ends (fun fuel => do rest fuel (← enter ⟨c, depth⟩ opener))
      (counted depth (Reader.deepen depth deeper opener c >>= f)) := by
  cases hdeeper : deeper with
  | none =>
    have hfull : maxNesting < depth + 1 := by
      rw [hbeneath.full hdeeper]
      exact Nat.lt_succ_self _
    simp only [enter, if_pos hfull]
    exact .of_eq rfl
  | some readers =>
    obtain ⟨hroom, less, -, hlevel⟩ := hbeneath.more readers hdeeper
    simp only [enter, if_neg (Nat.not_lt.mpr (Nat.succ_le_of_lt hroom))]
    exact h readers less hlevel

lemma ends_call (name : Token) (c : Cursor) :
    Ends (call · name ⟨c, depth⟩) (counted depth (Reader.call depth deeper name c)) := by
  refine .step ?_
  simp only [call]
  refine ends_enter hbeneath fun inner less hlevel => ?_
  obtain ⟨hcareful, hagrees⟩ := hlevel (.chain .or)
  refine (ends_arguments hcareful hagrees c).bind fun args m _ => ?_
  exact .expectClosing fun m' => .of_eq rfl

lemma agrees_primary : Agrees depth .primary (Reader.primary depth deeper) := by
  intro c
  refine .step ?_
  simp only [expr]
  unfold Reader.primary
  cases c.next? with
  | none => exact .of_eq rfl
  | some step =>
    obtain ⟨token, m⟩ := step
    dsimp only
    cases token.kind with
    | name =>
      dsimp only
      cases m.next? with
      | none => exact .of_eq rfl
      | some step =>
        obtain ⟨paren, m'⟩ := step
        dsimp only
        split
        · exact ends_call hbeneath token m'
        · exact .of_eq rfl
    | leftParen =>
      refine ends_enter hbeneath fun inner less hlevel => ?_
      refine ((hlevel (.chain .or)).2 m).bind fun e m' _ => ?_
      exact .expectClosing fun m'' => .of_eq rfl
    | _ => exact .of_eq rfl

lemma ends_operator (level : Level) (operator : Token) (node : Expr → Expr) (c : Cursor) :
    Ends
      (fun fuel => do
        let s ← enter ⟨c, depth⟩ operator
        let (e, s) ← expr fuel level s
        return (node e, s.leave))
      (counted depth (do
        let inner ← Reader.deepen depth deeper operator c
        let (e, m) ← inner.get level c
        return (node e, m))) := by
  refine ends_enter hbeneath fun inner less hlevel => ?_
  exact ((hlevel level).2 c).bind fun e m _ => .of_eq rfl

lemma agrees_unary : Agrees depth .unary (Reader.unary depth deeper) := by
  intro c
  refine .step ?_
  simp only [expr]
  unfold Reader.unary
  cases c.next? with
  | none => exact agrees_primary hbeneath c
  | some step =>
    obtain ⟨token, m⟩ := step
    dsimp only
    split
    · exact ends_operator hbeneath .unary token (.unary .neg · token.position) m
    · exact agrees_primary hbeneath c

lemma agrees_additive : Agrees depth (.chain .additive) (Reader.additive depth deeper) :=
  agrees_leftAssociative (careful_level hbeneath (.chain .term))
    (agrees_leftAssociative (careful_level hbeneath .unary) (agrees_unary hbeneath))

lemma agrees_comparison : Agrees depth .comparison (Reader.comparison depth deeper) := by
  have hadditive := agrees_additive hbeneath
  intro c
  refine .step ?_
  simp only [expr]
  refine (hadditive c).bind fun left m _ => ?_
  dsimp only
  cases m.next? with
  | none => exact .of_eq rfl
  | some step =>
    obtain ⟨token, behind⟩ := step
    dsimp only
    cases token.kind.comparisonOp? with
    | none => exact .of_eq rfl
    | some op =>
      refine (hadditive behind).bind fun right m' _ => ?_
      dsimp only
      cases m'.rest with
      | nil => exact .of_eq rfl
      | cons second rest =>
        dsimp only
        split <;> exact .of_eq rfl

lemma agrees_not : Agrees depth .not (Reader.notExpr depth deeper) := by
  intro c
  refine .step ?_
  simp only [expr]
  unfold Reader.notExpr
  cases c.next? with
  | none => exact agrees_comparison hbeneath c
  | some step =>
    obtain ⟨token, m⟩ := step
    dsimp only
    split
    · exact ends_operator hbeneath .not token (.unary .not · token.position) m
    · exact agrees_comparison hbeneath c

lemma agrees_over (level : Level) : Agrees depth level ((Readers.over depth deeper).get level) := by
  -- from the tightest level to the loosest
  have hcareful := careful_level hbeneath
  have hand : Agrees depth (.chain .and) (Reader.andExpr depth deeper) :=
    agrees_leftAssociative (hcareful .not) (agrees_not hbeneath)
  cases level with
  | chain chain =>
    cases chain with
    | or => exact agrees_leftAssociative (hcareful (.chain .and)) hand
    | and => exact hand
    | additive => exact agrees_additive hbeneath
    | term => exact agrees_leftAssociative (hcareful .unary) (agrees_unary hbeneath)
  | not => exact agrees_not hbeneath
  | comparison => exact agrees_comparison hbeneath
  | unary => exact agrees_unary hbeneath
  | primary => exact agrees_primary hbeneath

end Level

lemma agrees_within {budget depth : Nat} (h : depth + budget = maxNesting) (level : Level) :
    Agrees depth level ((Readers.within budget depth).get level) := by
  -- by induction over the levels that may still be opened
  induction budget generalizing depth level with
  | zero =>
    have hbeneath : Beneath 0 depth none := by
      refine ⟨fun _ => h, ?_⟩
      rintro readers ⟨⟩
    exact agrees_over hbeneath level
  | succ budget ih =>
    have hbeneath : Beneath (budget + 1) depth (some (.within budget (depth + 1))) := by
      refine ⟨?_, ?_⟩
      · rintro ⟨⟩
      · rintro readers ⟨⟩
        have hcareful := careful_within budget (depth + 1)
        exact ⟨by omega, budget, le_rfl, fun level => ⟨hcareful level, ih (by omega) level⟩⟩
    exact agrees_over hbeneath level

/-- Every run ends, namely as the reader does that is built for the number of levels open. -/
theorem agrees_atDepth {depth : Nat} (h : depth ≤ maxNesting) (level : Level) :
    Agrees depth level ((Readers.atDepth depth).get level) :=
  agrees_within (Nat.add_sub_cancel' h) level

/-- A run succeeds. It has moved forward and has as many levels open as before. With another number
of levels open it gets to the same place, unless it opens too many. -/
structure Succeeds (level : Level) (s : ParseState) (e : Expr) (c : Cursor) : Prop where
  ends : Ends (expr · level s) (.ok (e, ⟨c, s.depth⟩))
  tokens_eq : c.tokens = s.cursor.tokens
  index_lt : s.cursor.index < c.index
  index_le : c.index ≤ s.cursor.tokens.length
  elsewhere : ∀ depth ≤ maxNesting,
    Ends (expr · level ⟨s.cursor, depth⟩) (.ok (e, ⟨c, depth⟩)) ∨
      ∃ stop, Ends (expr · level ⟨s.cursor, depth⟩) (.error stop) ∧
        stop.error.detail = "Formula nested too deeply"

/-- A run fails. It has not moved back, and the levels that it opened are still counted. -/
structure Fails (level : Level) (s : ParseState) (stop : Stop) : Prop where
  ends : Ends (expr · level s) (.error stop)
  tokens_eq : stop.cursor.tokens = s.cursor.tokens
  le_index : s.cursor.index ≤ stop.cursor.index
  index_le : stop.cursor.index ≤ s.cursor.tokens.length
  le_depth : s.depth ≤ stop.depth
  depth_le : stop.depth ≤ maxNesting + 1

section Outcome

variable {level : Level} {s : ParseState} (h : s.depth ≤ maxNesting)

include h

lemma succeeds {e : Expr} {c : Cursor}
    (hread : (Readers.atDepth s.depth).get level s.cursor = .ok (e, c)) :
    Succeeds level s e c := by
  obtain ⟨d, -, hreads, -⟩ := (sound_within _ _ level s.cursor).of_eq_ok hread
  -- No derivation is empty, so the cursor has moved.
  obtain ⟨token, tail, htokens, -⟩ := d.exists_cons
  have hindex : c.index = s.cursor.index + d.tokens.length := hreads.index_eq
  rw [htokens, List.length_cons] at hindex
  have hends := agrees_atDepth h level s.cursor
  rw [hread] at hends
  refine ⟨hends, hreads.tokens_eq, by omega, hreads.index_le, fun depth hdepth => ?_⟩
  have hshifted := Reader.shifted_atDepth h hdepth level s.cursor
  have hends' := agrees_atDepth hdepth level s.cursor
  rw [hread] at hshifted
  obtain hok | ⟨stop, herror, htooDeep, -⟩ := hshifted.of_ok
  · rw [hok] at hends'
    exact .inl hends'
  · rw [herror] at hends'
    exact .inr ⟨stop, hends', FormulaError.detail_of_isTooDeep htooDeep⟩

lemma fails {stop : Stop}
    (hread : (Readers.atDepth s.depth).get level s.cursor = .error stop) :
    Fails level s stop := by
  obtain ⟨xs, hreads, -⟩ := (careful_within _ _ level).halts s.cursor stop hread
  have hindex := hreads.index_eq
  have hends := agrees_atDepth h level s.cursor
  -- The reader beside itself: its fault counts levels from `s.depth` on.
  have hshifted := Reader.shifted_atDepth h h level s.cursor
  rw [hread] at hends hshifted
  obtain ⟨hle, hle'⟩ := hshifted.bounds_of_error h
  exact ⟨hends, hreads.tokens_eq, by omega, hreads.index_le, hle, hle'⟩

end Outcome

/-- Every run ends, and it ends as the reader does that is built for the number of levels open. -/
theorem expr_balanced (level : Level) (s : ParseState) (h : s.depth ≤ maxNesting) :
    Ends (expr · level s) (counted s.depth ((Readers.atDepth s.depth).get level s.cursor)) ∧
      ((∃ e c, Succeeds level s e c) ∨ ∃ stop, Fails level s stop) := by
  refine ⟨agrees_atDepth h level s.cursor, ?_⟩
  cases hread : (Readers.atDepth s.depth).get level s.cursor with
  | ok result => exact .inl ⟨result.1, result.2, succeeds h hread⟩
  | error stop => exact .inr ⟨stop, fails h hread⟩

/-- A minus sign in front of an operand in parentheses. -/
def oppositeGroup : Cursor :=
  .start [⟨.minus, "-", 0⟩, ⟨.leftParen, "(", 1⟩, ⟨.name, "C", 2⟩, ⟨.rightParen, ")", 3⟩] 4

/-- Two levels are opened. With two of them left the run succeeds, with one left it fails. -/
theorem expr_balanced_oppositeGroup :
    (62 ≤ maxNesting ∧ ∃ c, Succeeds .unary ⟨oppositeGroup, 62⟩ (.unary .neg (.field "C" 2) 0) c) ∧
      63 ≤ maxNesting ∧ ∃ stop, Fails .unary ⟨oppositeGroup, 63⟩ stop ∧
        stop.error = .nestedTooDeeply "(" 1 ∧ stop.depth = 65 := by
  have hroom : counted 62 ((Readers.atDepth 62).get .unary oppositeGroup) =
      .ok (.unary .neg (.field "C" 2) 0, ⟨⟨oppositeGroup.tokens.reverse, [], 4⟩, 62⟩) := rfl
  have hfull : counted 63 ((Readers.atDepth 63).get .unary oppositeGroup) =
      .error ⟨.nestedTooDeeply "(" 1,
        ⟨[⟨.leftParen, "(", 1⟩, ⟨.minus, "-", 0⟩], [⟨.name, "C", 2⟩, ⟨.rightParen, ")", 3⟩], 4⟩, 65⟩ :=
    rfl
  constructor
  · obtain ⟨hends, ⟨e, c, hsucceeds⟩ | ⟨stop, hfails⟩⟩ :=
      expr_balanced .unary ⟨oppositeGroup, 62⟩ (by decide)
    · cases hsucceeds.ends.unique (hroom ▸ hends)
      exact ⟨by decide, _, hsucceeds⟩
    · cases hfails.ends.unique (hroom ▸ hends)
  · obtain ⟨hends, ⟨e, c, hsucceeds⟩ | ⟨stop, hfails⟩⟩ :=
      expr_balanced .unary ⟨oppositeGroup, 63⟩ (by decide)
    · cases hsucceeds.ends.unique (hfull ▸ hends)
    · cases hfails.ends.unique (hfull ▸ hends)
      exact ⟨by decide, _, hfails, rfl, rfl⟩

end ParseState

end MarketFormula
