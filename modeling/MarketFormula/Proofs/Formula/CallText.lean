import MarketFormula.Evaluation.Vocabulary
import MarketFormula.Proofs.Formula.Respelling

/-!
# The text of a call

The tokens of the formula inside a call are those of the formula alone, further to the right. The
number has no part in whether the text is a formula.
-/
namespace MarketFormula

open Grammar

namespace Token

/-- The token of a text that starts `k` characters further to the right. -/
def moved (k : Nat) (token : Token) : Token :=
  { token with position := token.position + k }

/-- The character is in no lexeme, except at its front. -/
def EndsLexemes (c : Char) : Prop :=
  ∀ lexeme, IsLexeme lexeme → c ∉ lexeme.tail

lemma endsLexemes_of {c : Char} (hnumber : isNumberChar c = false) (hname : isNameChar c = false)
    (hsymbol : ∀ entry ∈ symbols, c ∉ entry.2.tail) : EndsLexemes c := by
  rintro lexeme ⟨kind, text, hlexeme⟩ hc
  cases hlexeme with
  | number h =>
    obtain hdigit | rfl := h.mem_cases (List.mem_of_mem_tail hc)
    · simp [isNumberChar, hdigit] at hnumber
    · cases hnumber
  | name h h' =>
    rw [List.tail_cons] at hc
    rw [h' c hc] at hname
    cases hname
  | symbol h => exact hsymbol _ h hc

lemma endsLexemes_opener : EndsLexemes '(' := endsLexemes_of rfl rfl (by decide)

lemma endsLexemes_comma : EndsLexemes ',' := endsLexemes_of rfl rfl (by decide)

lemma endsLexemes_closer : EndsLexemes ')' := endsLexemes_of rfl rfl (by decide)

section Followed

variable {c : Char} (hc : EndsLexemes c)

include hc

lemma front_of_endsLexemes {lexeme cs behind : List Char} (h : IsLexeme lexeme) (hcs : cs ≠ [])
    (hfront : lexeme <+: cs ++ c :: behind) : lexeme <+: cs := by
  rcases Nat.le_total lexeme.length cs.length with hle | hle
  · exact List.prefix_of_prefix_length_le hfront (List.prefix_append _ _) hle
  · obtain ⟨beyond, rfl⟩ := List.prefix_of_prefix_length_le (List.prefix_append _ _) hfront hle
    cases beyond with
    | nil => simp
    | cons d beyond =>
      obtain ⟨_, hrest⟩ := (List.prefix_append_right_inj cs).mp hfront
      obtain rfl : d = c := (List.cons.inj hrest).1
      obtain ⟨first, rest, rfl⟩ := List.exists_cons_of_ne_nil hcs
      exact absurd (by simp) (hc _ h)

lemma IsLongest.followed {lexeme cs behind : List Char} (h : IsLongest lexeme (lexeme ++ cs))
    (hlexeme : lexeme ≠ []) : IsLongest lexeme (lexeme ++ (cs ++ c :: behind)) := by
  refine ⟨List.prefix_append _ _, fun other hfront hother => h.2 other ?_ hother⟩
  rw [← List.append_assoc] at hfront
  exact front_of_endsLexemes hc hother (by simp [hlexeme]) hfront

lemma Scans.followed {position start finish k : Nat} {cs behind rest : List Char}
    {tokens later : List Token} (h : Scans position cs tokens []) (hstart : start = position + k)
    (hfinish : finish = start + cs.length) (hlater : Scans finish (c :: behind) later rest) :
    Scans start (cs ++ c :: behind) (tokens.map (moved k) ++ later) rest := by
  -- by induction over the tokens of the text that stands inside the other one
  subst hstart hfinish
  generalize hnone : [] = left at h
  induction h with
  | done position cs =>
    subst hnone
    exact hlater
  | @blank position d cs left tokens hblank _ ih =>
    refine .blank hblank ?_
    rw [Nat.add_right_comm]
    refine ih ?_ hnone
    rwa [List.length_cons, Nat.add_comm cs.length, ← Nat.add_assoc, Nat.add_right_comm position]
      at hlater
  | @lexeme position lexeme cs left text kind tokens hlongest hlexeme _ ih =>
    rw [List.append_assoc]
    refine .lexeme (hlongest.followed hc hlexeme.ne_nil) hlexeme ?_
    rw [Nat.add_right_comm]
    refine ih ?_ hnone
    rwa [List.length_append, ← Nat.add_assoc, Nat.add_right_comm position] at hlater

end Followed

lemma scans_sign {c : Char} {cs rest : List Char} {kind : TokenKind} {position : Nat}
    {tokens : List Token} (hc : lexeme? (c :: cs) = some (kind, [c], 1))
    (h : Scans (position + 1) cs tokens rest) :
    Scans position (c :: cs) (⟨kind, String.ofList [c], position⟩ :: tokens) rest := by
  obtain ⟨lexeme, hlongest, hlexeme, hlength⟩ := lexeme?_eq_some_iff.mp hc
  obtain ⟨d, rfl⟩ := List.length_eq_one_iff.mp hlength
  obtain ⟨rfl, -⟩ := List.cons_prefix_cons.mp hlongest.1
  exact .lexeme hlongest hlexeme h

lemma scans_number {digits : String} (hdigits : ∀ c ∈ digits.toList, Text.isDigit c = true)
    (hne : digits.toList ≠ []) (position : Nat) :
    Scans position digits.toList [⟨.number, digits, position⟩] [] := by
  have hlongest : IsLongest digits.toList (digits.toList ++ []) := by
    rw [List.append_nil]
    exact ⟨List.prefix_rfl, fun other hfront _ => hfront.length_le⟩
  have hscans : Scans position (digits.toList ++ []) _ [] :=
    .lexeme hlongest (.number (.whole hdigits hne)) (.done _ _)
  rwa [List.append_nil, String.ofList_toList] at hscans

lemma scans_name (indicator : Indicator) :
    Scans 0 indicator.name.toList [⟨.name, indicator.name, 0⟩] [] := by
  apply scans_of_scan
  rcases indicator with function | _
  · cases function <;> decide +kernel
  · decide +kernel

lemma forall₂_respells_moved (k : Nat) (tokens : List Token) :
    List.Forall₂ Respells tokens (tokens.map (moved k)) := by
  rw [List.forall₂_map_right_iff, List.forall₂_same]
  exact fun _ _ => ⟨rfl, fun _ => rfl⟩

end Token

namespace Indicator

def callText (indicator : Indicator) (argument digits : String) : String :=
  indicator.name ++ "(" ++ argument ++ ", " ++ digits ++ ")"

def argumentPlace (indicator : Indicator) : Nat :=
  indicator.name.length + 1

def numberPlace (indicator : Indicator) (argument : String) : Nat :=
  indicator.argumentPlace + argument.length + 2

def callTokens (indicator : Indicator) (argument digits : String) (inside : List Token) :
    List Token :=
  ⟨.name, indicator.name, 0⟩ :: ⟨.leftParen, "(", indicator.name.length⟩ ::
    (inside.map (Token.moved indicator.argumentPlace) ++
      [⟨.comma, ",", indicator.argumentPlace + argument.length⟩,
        ⟨.number, digits, indicator.numberPlace argument⟩,
        ⟨.rightParen, ")", indicator.numberPlace argument + digits.length⟩])

lemma scan_callText (indicator : Indicator) {argument digits : String} {inside : List Token}
    (hscan : Token.scan argument = .ok inside)
    (hdigits : ∀ c ∈ digits.toList, Text.isDigit c = true) (hne : digits.toList ≠ []) :
    Token.scan (indicator.callText argument digits) =
      .ok (indicator.callTokens argument digits inside) := by
  apply Token.scan_eq_ok_of_scans
  have hcloser : Token.Scans (indicator.numberPlace argument + digits.length) [')']
      [⟨.rightParen, ")", indicator.numberPlace argument + digits.length⟩] [] :=
    Token.scans_sign rfl (.done _ _)
  have hnumber := (Token.scans_number hdigits hne (indicator.numberPlace argument)).followed
    Token.endsLexemes_closer (k := 0) rfl (by rw [String.length_toList, Nat.add_zero]) hcloser
  have hcomma : Token.Scans (indicator.argumentPlace + argument.length)
      (',' :: ' ' :: (digits.toList ++ [')'])) _ [] :=
    Token.scans_sign rfl (.blank rfl hnumber)
  have hargument : Token.Scans indicator.argumentPlace (argument.toList ++ ',' :: _) _ [] :=
    (Token.scans_of_scan hscan).followed Token.endsLexemes_comma (Nat.zero_add _).symm
      (by rw [String.length_toList]) hcomma
  have hopener : Token.Scans indicator.name.length ('(' :: _) _ [] :=
    Token.scans_sign rfl hargument
  have hname := (Token.scans_name indicator).followed Token.endsLexemes_opener (k := 0) rfl
    (by rw [String.length_toList, Nat.zero_add]) hopener
  have htext : (indicator.callText argument digits).toList = indicator.name.toList ++
      '(' :: (argument.toList ++ ',' :: ' ' :: (digits.toList ++ [')'])) := by
    simp [callText]
  rw [htext]
  exact hname

end Indicator

namespace Grammar.Derivation

/-- An operand stands for itself at every level. -/
def ofPrimary (d : Derivation (.expr .primary)) : Derivation .formula :=
  let sum : Derivation (.expr (.chain .additive)) := .chain (.chain (.unsigned d) .noLink) .noLink
  .chain (.chain (.positive (.single sum)) .noLink) .noLink

section Operand

variable (d : Derivation (.expr .primary))

lemma tokens_ofPrimary : d.ofPrimary.tokens = d.tokens := by
  simp [ofPrimary]

lemma nesting_ofPrimary : d.ofPrimary.nesting = d.nesting := by
  simp [ofPrimary, nesting]

end Operand

/-- The derivation of a call of an indicator with two arguments, the second of which is a number. -/
def ofCall (indicator : Indicator) (argument digits : String) (inside : Derivation .formula) :
    Derivation .formula :=
  let number : Derivation (.expr .primary) :=
    .number ⟨.number, digits, indicator.numberPlace argument⟩ rfl
  ofPrimary (.call ⟨.name, indicator.name, 0⟩ ⟨.leftParen, "(", indicator.name.length⟩
    ⟨.rightParen, ")", indicator.numberPlace argument + digits.length⟩ rfl rfl rfl
    (.someArguments inside (.more ⟨.comma, ",", indicator.argumentPlace + argument.length⟩ rfl
      number.ofPrimary .noMore)))

section Call

variable (indicator : Indicator) (argument digits : String) (inside : Derivation .formula)

lemma tree_ofCall : (ofCall indicator argument digits inside).tree =
    .call indicator.name [inside.tree, .literal (Decimal.ofPlain digits.toList)
      (indicator.numberPlace argument)] 0 := rfl

lemma nesting_ofCall : (ofCall indicator argument digits inside).nesting = inside.nesting + 1 := by
  simp [ofCall, nesting_ofPrimary, nesting]

lemma tokens_ofCall {tokens : List Token}
    (h : inside.tokens = tokens.map (Token.moved indicator.argumentPlace)) :
    (ofCall indicator argument digits inside).tokens =
      indicator.callTokens argument digits tokens := by
  simp [ofCall, tokens_ofPrimary, Indicator.callTokens, h]

end Call

end Grammar.Derivation

namespace Expr

lemma parse_eq_ok_iff_of_scan {text : String} (d : Derivation .formula)
    (hscan : Token.scan text = .ok d.tokens) (e : Expr) :
    parse text = .ok e ↔ d.tree = e ∧ d.nesting ≤ maxNesting ∧ e.height ≤ maxTreeDepth := by
  simp only [parse, bind_eq_ok_iff, ofTokens_eq_ok_iff]
  constructor
  · rintro ⟨tokens, hscan', tree, ⟨d', htokens, hnesting, rfl⟩, ⟨⟩, hcheck, ⟨⟩⟩
    cases hscan.symm.trans hscan'
    obtain ⟨rfl, -⟩ := unique d d' [] [] .nil .nil (congrArg (· ++ []) htokens.symm)
    exact ⟨rfl, hnesting, (checkDepth_eq_ok_iff _).mp hcheck⟩
  · rintro ⟨rfl, hnesting, hheight⟩
    exact ⟨_, hscan, d.tree, ⟨d, rfl, hnesting, rfl⟩, (), (checkDepth_eq_ok_iff _).mpr hheight, rfl⟩

lemma exists_moved {tokens : List Token} {length : Nat} {x : Expr}
    (hx : ofTokens tokens length = .ok x) (k : Nat) : ∃ place, ∃ d : Derivation .formula,
      d.tokens = tokens.map (Token.moved k) ∧ x.Twin place d.tree := by
  obtain ⟨_, x', hsame, hmoved, htwin⟩ | ⟨_, _, herror, -⟩ :=
    ofTokens_respelled (Token.forall₂_respells_moved k tokens) length length
  · cases hsame.symm.trans hx
    obtain ⟨d, htokens, -, rfl⟩ := ofTokens_eq_ok_iff.mp hmoved
    exact ⟨_, d, htokens, htwin⟩
  · cases herror.symm.trans hx

theorem parse_callText_iff (indicator : Indicator) {argument : String} {x : Expr}
    (hx : parse argument = .ok x) : ∃ place x' nesting, x.Twin place x' ∧
      ∀ digits : String, (∀ c ∈ digits.toList, Text.isDigit c = true) → digits.toList ≠ [] → ∀ e,
        parse (indicator.callText argument digits) = .ok e ↔
          .call indicator.name [x', .literal (Decimal.ofPlain digits.toList)
            (indicator.numberPlace argument)] 0 = e ∧
          nesting ≤ maxNesting ∧ x'.height < maxTreeDepth := by
  simp only [parse, bind_eq_ok_iff] at hx
  obtain ⟨tokens, hscan, _, htree, -, -, ⟨⟩⟩ := hx
  obtain ⟨place, d, htokens, htwin⟩ := exists_moved htree indicator.argumentPlace
  refine ⟨place, d.tree, d.nesting + 1, htwin, fun digits hdigits hne e => ?_⟩
  let call := Derivation.ofCall indicator argument digits d
  have hcall : Token.scan (indicator.callText argument digits) = .ok call.tokens := by
    rw [Derivation.tokens_ofCall _ _ _ _ htokens]
    exact indicator.scan_callText hscan hdigits hne
  have hpos := d.tree.height_pos
  rw [parse_eq_ok_iff_of_scan call hcall, Derivation.nesting_ofCall, Derivation.tree_ofCall]
  constructor
  · rintro ⟨rfl, hnesting, hheight⟩
    simp only [height, heightAll] at hheight
    exact ⟨rfl, hnesting, by omega⟩
  · rintro ⟨rfl, hnesting, hheight⟩
    refine ⟨rfl, hnesting, ?_⟩
    simp only [height, heightAll]
    omega

end Expr

end MarketFormula
