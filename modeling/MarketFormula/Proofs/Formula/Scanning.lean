import MarketFormula.Proofs.Formula.Lexeme

/-!
# Splitting a formula loses nothing

The tokens of a formula are read from the longest lexemes at their places, and there are only
blanks before, between and behind them.
-/
namespace MarketFormula.Token

open Text

/-- Tokens that are taken from a text which starts at `position`, and what is left of it. -/
inductive Scans : (position : Nat) → List Char → List Token → List Char → Prop
  | done (position : Nat) (cs : List Char) : Scans position cs [] cs
  | blank {position : Nat} {c : Char} {cs rest : List Char} {tokens : List Token}
    (h : isBlank c = true) (hrest : Scans (position + 1) cs tokens rest) :
    Scans position (c :: cs) tokens rest
  | lexeme {position : Nat} {lexeme cs rest text : List Char} {kind : TokenKind}
    {tokens : List Token} (hlongest : IsLongest lexeme (lexeme ++ cs))
    (hlexeme : Lexeme lexeme kind text)
    (hrest : Scans (position + lexeme.length) cs tokens rest) :
    Scans position (lexeme ++ cs) (⟨kind, String.ofList text, position⟩ :: tokens) rest

/-- A place with neither a blank nor a lexeme. -/
def IsStuck (cs : List Char) : Prop :=
  ∃ c rest, cs = c :: rest ∧ isBlank c = false ∧ ∀ lexeme, lexeme <+: cs → ¬ IsLexeme lexeme

lemma scanFrom_blank {c : Char} (h : isBlank c = true) (position : Nat) (cs : List Char) :
    scanFrom position 0 (c :: cs) = scanFrom (position + 1) 0 cs := by
  rw [scanFrom, if_pos h]

lemma scanFrom_lexeme {lexeme cs text : List Char} {kind : TokenKind}
    (hlongest : IsLongest lexeme (lexeme ++ cs)) (hlexeme : Lexeme lexeme kind text)
    (position : Nat) :
    scanFrom position 0 (lexeme ++ cs) =
      (scanFrom (position + lexeme.length) 0 cs).map (⟨kind, String.ofList text, position⟩ :: ·) := by
  have hsome : lexeme? (lexeme ++ cs) = some (kind, text, lexeme.length) :=
    lexeme?_eq_some_iff.mpr ⟨lexeme, hlongest, hlexeme, rfl⟩
  obtain ⟨c, tail, rfl⟩ := List.exists_cons_of_ne_nil hlexeme.ne_nil
  have hblank := hlexeme.not_blank c (List.mem_cons_self ..)
  rw [List.cons_append] at hsome ⊢
  have hrest : scanFrom (position + 1) tail.length (tail ++ cs) =
      scanFrom (position + (tail.length + 1)) 0 cs := by
    rw [scanFrom_skip, List.drop_left, Nat.add_right_comm, Nat.add_assoc]
  rw [scanFrom, hblank, if_neg (by decide), hsome]
  simp only [List.length_cons, Nat.add_sub_cancel, hrest]
  cases scanFrom (position + (tail.length + 1)) 0 cs <;> rfl

lemma scanFrom_stuck {cs : List Char} (h : IsStuck cs) (position : Nat) :
    scanFrom position 0 cs =
      .error (.unexpectedCharacter (String.ofList (firstHeld cs)) position) := by
  obtain ⟨c, rest, rfl, hblank, hnone⟩ := h
  rw [scanFrom, hblank, if_neg (by decide), lexeme?_eq_none_iff.mpr hnone]

lemma exists_scans (position : Nat) (cs : List Char) :
    ∃ tokens rest, Scans position cs tokens rest ∧ (rest = [] ∨ IsStuck rest) := by
  induction hn : cs.length using Nat.strong_induction_on generalizing position cs with
  | _ n ih =>
    subst hn
    cases cs with
    | nil => exact ⟨[], [], .done _ _, .inl rfl⟩
    | cons c tail =>
      cases hblank : isBlank c with
      | true =>
        obtain ⟨tokens, rest, hscans, hend⟩ := ih _ (Nat.lt_succ_self _) (position + 1) tail rfl
        exact ⟨tokens, rest, .blank hblank hscans, hend⟩
      | false =>
        cases hlexeme? : lexeme? (c :: tail) with
        | none =>
          exact ⟨[], c :: tail, .done _ _,
            .inr ⟨c, tail, rfl, hblank, lexeme?_eq_none_iff.mp hlexeme?⟩⟩
        | some result =>
          obtain ⟨lexeme, hlongest, hlexeme, -⟩ := lexeme?_eq_some_iff.mp hlexeme?
          obtain ⟨behind, hcs⟩ := hlongest.1
          have hpos := List.length_pos_of_ne_nil hlexeme.ne_nil
          have hlt : behind.length < (c :: tail).length := by
            rw [← hcs, List.length_append]
            omega
          obtain ⟨tokens, rest, hscans, hend⟩ := ih _ hlt (position + lexeme.length) behind rfl
          rw [← hcs] at hlongest ⊢
          exact ⟨_, rest, .lexeme hlongest hlexeme hscans, hend⟩

lemma scanFrom_of_scans {position : Nat} {cs rest : List Char} {tokens : List Token}
    (h : Scans position cs tokens rest) :
    scanFrom position 0 cs =
      (scanFrom (position + (cs.length - rest.length)) 0 rest).map (tokens ++ ·) ∧
      rest.length ≤ cs.length := by
  induction h with
  | done position cs =>
    rw [Nat.sub_self, Nat.add_zero]
    exact ⟨by cases scanFrom position 0 cs <;> rfl, le_rfl⟩
  | @blank position c cs rest tokens hblank _ ih =>
    obtain ⟨hscan, hlength⟩ := ih
    rw [scanFrom_blank hblank, hscan, List.length_cons, Nat.add_assoc, ← Nat.add_sub_assoc hlength,
      Nat.add_comm 1]
    exact ⟨rfl, Nat.le_succ_of_le hlength⟩
  | @lexeme position lexeme cs rest text kind tokens hlongest hlexeme _ ih =>
    obtain ⟨hscan, hlength⟩ := ih
    rw [scanFrom_lexeme hlongest hlexeme, hscan, List.length_append, Nat.add_assoc,
      ← Nat.add_sub_assoc hlength]
    refine ⟨?_, by omega⟩
    cases scanFrom (position + (lexeme.length + cs.length - rest.length)) 0 rest <;> rfl

lemma scan_eq_ok_of_scans {text : String} {tokens : List Token}
    (h : Scans 0 text.toList tokens []) : scan text = .ok tokens := by
  rw [scan, (scanFrom_of_scans h).1, scanFrom]
  simp [Except.map]

lemma scan_eq_error_of_scans {text : String} {tokens : List Token} {rest : List Char}
    (h : Scans 0 text.toList tokens rest) (hstuck : IsStuck rest) :
    scan text = .error (.unexpectedCharacter (String.ofList (firstHeld rest))
      (text.toList.length - rest.length)) := by
  rw [scan, (scanFrom_of_scans h).1, scanFrom_stuck hstuck, Nat.zero_add]
  rfl

lemma scans_of_scan {text : String} {tokens : List Token} (h : scan text = .ok tokens) :
    Scans 0 text.toList tokens [] := by
  obtain ⟨tokens', rest, hscans, rfl | hstuck⟩ := exists_scans 0 text.toList
  · cases h.symm.trans (scan_eq_ok_of_scans hscans)
    exact hscans
  · cases h.symm.trans (scan_eq_error_of_scans hscans hstuck)

/-- The place behind a token, which has as many characters as its lexeme. -/
def finish (token : Token) : Nat :=
  token.position + token.text.length

def span (token : Token) (cs : List Char) : List Char :=
  (cs.drop token.position).take token.text.length

/-- Tokens that account for the characters of a text from `start` up to `limit`: each is read from
the longest lexeme at its place, they follow one another, and all else is blank. -/
structure Covers (cs : List Char) (start limit : Nat) (tokens : List Token) : Prop where
  inside : ∀ token ∈ tokens, start ≤ token.position ∧ token.finish ≤ limit
  lexeme : ∀ token ∈ tokens, IsLongest (token.span cs) (cs.drop token.position) ∧
    Lexeme (token.span cs) token.kind token.text.toList
  ordered : tokens.Pairwise fun token later =>
    token.position < later.position ∧ token.finish ≤ later.position
  blank : ∀ i c, start ≤ i → i < limit → cs[i]? = some c →
    isBlank c = true ∨ ∃ token ∈ tokens, token.position ≤ i ∧ i < token.finish

namespace Covers

variable {cs : List Char} {start limit : Nat} {tokens : List Token}

lemma nil (cs : List Char) (n : Nat) : Covers cs n n [] where
  inside := by simp
  lexeme := by simp
  ordered := .nil
  blank := by omega

lemma skip {c : Char} (hc : cs[start]? = some c) (hblank : isBlank c = true)
    (h : Covers cs (start + 1) limit tokens) : Covers cs start limit tokens where
  inside token htoken := by
    have := h.inside token htoken
    omega
  lexeme := h.lexeme
  ordered := h.ordered
  blank i d hstart hlimit hd := by
    rcases Nat.eq_or_lt_of_le hstart with rfl | hlt
    · cases hc.symm.trans hd
      exact .inl hblank
    · exact h.blank i d hlt hlimit hd

lemma cons {token : Token} (hposition : token.position = start)
    (hlongest : IsLongest (token.span cs) (cs.drop token.position))
    (hlexeme : Lexeme (token.span cs) token.kind token.text.toList) (hlimit : token.finish ≤ limit)
    (h : Covers cs token.finish limit tokens) : Covers cs start limit (token :: tokens) where
  inside later hlater := by
    rcases List.mem_cons.mp hlater with rfl | hlater
    · exact ⟨hposition.ge, hlimit⟩
    · have := h.inside later hlater
      simp only [finish] at this ⊢
      omega
  lexeme later hlater := by
    rcases List.mem_cons.mp hlater with rfl | hlater
    · exact ⟨hlongest, hlexeme⟩
    · exact h.lexeme later hlater
  ordered := by
    refine .cons (fun later hlater => ?_) h.ordered
    have hbehind := (h.inside later hlater).1
    have htext : 0 < token.text.toList.length := by
      rw [hlexeme.length_text]
      exact List.length_pos_of_ne_nil hlexeme.ne_nil
    rw [String.length_toList] at htext
    simp only [finish] at hbehind ⊢
    omega
  blank i c hstart hlt hc := by
    by_cases hi : i < token.finish
    · exact .inr ⟨token, List.mem_cons_self .., by omega, hi⟩
    · obtain hblank | ⟨later, hlater, hinside⟩ := h.blank i c (by omega) hlt hc
      · exact .inl hblank
      · exact .inr ⟨later, List.mem_cons_of_mem _ hlater, hinside⟩

end Covers

lemma covers_of_scans {whole cs rest : List Char} {position : Nat} {tokens : List Token}
    (h : Scans position cs tokens rest) (hcs : whole.drop position = cs)
    (hlength : position + cs.length = whole.length) :
    Covers whole position (whole.length - rest.length) tokens ∧
      whole.drop (whole.length - rest.length) = rest ∧ rest.length ≤ cs.length := by
  -- by induction over the tokens: what is left of the text is what they do not account for
  induction h with
  | done position cs =>
    obtain rfl : position = whole.length - cs.length := by omega
    exact ⟨.nil _ _, hcs, le_rfl⟩
  | @blank position c cs rest tokens hblank _ ih =>
    have htail : whole.drop (position + 1) = cs := by
      rw [← List.drop_drop, hcs, List.drop_succ_cons, List.drop_zero]
    have hc : whole[position]? = some c := by
      rw [← Nat.add_zero position, ← List.getElem?_drop, hcs, List.getElem?_cons_zero]
    rw [List.length_cons] at hlength
    obtain ⟨hcovers, hrest, hle⟩ := ih htail (by omega)
    exact ⟨hcovers.skip hc hblank, hrest, Nat.le_succ_of_le hle⟩
  | @lexeme position lexeme cs rest text kind tokens hlongest hlexeme _ ih =>
    have htail : whole.drop (position + lexeme.length) = cs := by
      rw [← List.drop_drop, hcs, List.drop_left]
    rw [List.length_append] at hlength
    obtain ⟨hcovers, hrest, hle⟩ := ih htail (by omega)
    have htext : (String.ofList text).length = lexeme.length := by
      rw [String.length_ofList, hlexeme.length_text]
    have hspan : span ⟨kind, String.ofList text, position⟩ whole = lexeme := by
      simp only [span, htext, hcs, List.take_left]
    have hfinish : finish ⟨kind, String.ofList text, position⟩ = position + lexeme.length := by
      simp only [finish, htext]
    refine ⟨.cons rfl ?_ ?_ ?_ ?_, hrest, by rw [List.length_append]; omega⟩
    · rw [hspan, hcs]
      exact hlongest
    · rw [hspan, String.toList_ofList]
      exact hlexeme
    · rw [hfinish]
      omega
    · rw [hfinish]
      exact hcovers

lemma covers_of_scan {text : String} {tokens : List Token} (h : scan text = .ok tokens) :
    Covers text.toList 0 text.length tokens := by
  obtain ⟨hcovers, -, -⟩ :=
    covers_of_scans (scans_of_scan h) (List.drop_zero ..) (Nat.zero_add _)
  rwa [List.length_nil, Nat.sub_zero, String.length_toList] at hcovers

/-- A formula is split into tokens that account for all of its characters, or there is a first place
behind tokens that account for all before it where there is neither a blank nor a lexeme, and the
fault names this place and the character there. -/
theorem scan_covers (text : String) :
    (∃ tokens, scan text = .ok tokens ∧ Covers text.toList 0 text.length tokens) ∨
      ∃ position tokens c, Covers text.toList 0 position tokens ∧
        text.toList[position]? = some c ∧ isBlank c = false ∧
        (∀ lexeme, lexeme <+: text.toList.drop position → ¬ IsLexeme lexeme) ∧
        scan text = .error (.unexpectedCharacter
          (String.ofList (firstHeld (text.toList.drop position))) position) ∧
        (c ≠ holdMark → firstHeld (text.toList.drop position) = [c]) := by
  obtain ⟨tokens, rest, hscans, hend⟩ := exists_scans 0 text.toList
  obtain ⟨hcovers, hrest, hle⟩ :=
    covers_of_scans hscans (List.drop_zero ..) (Nat.zero_add _)
  rcases hend with rfl | hstuck
  · rw [List.length_nil, Nat.sub_zero, String.length_toList] at hcovers
    exact .inl ⟨tokens, scan_eq_ok_of_scans hscans, hcovers⟩
  · have herror := scan_eq_error_of_scans hscans hstuck
    obtain ⟨c, behind, hcons, hblank, hnone⟩ := hstuck
    have hc : text.toList[text.toList.length - rest.length]? = some c := by
      rw [← Nat.add_zero (text.toList.length - _), ← List.getElem?_drop, hrest, hcons,
        List.getElem?_cons_zero]
    refine .inr ⟨_, tokens, c, hcovers, hc, hblank, ?_, ?_, fun hmark => ?_⟩
    · rw [hrest]
      exact hnone
    · rw [hrest]
      exact herror
    · rw [hrest, hcons]
      cases behind <;> simp [firstHeld, marked?_of_ne hmark]

example : scan "1..2 !== 3" = .error (.unexpectedCharacter "=" 7) := by
  decide +kernel

end MarketFormula.Token
