import Mathlib.Data.List.Forall2
import MarketFormula.Proofs.Formula.Scanning

/-!
# Other ways to write the tokens of a formula

Names and keywords may be written in any case, each keyword has a sign that stands for it, and
blanks may be added anywhere between two lexemes.
-/
namespace MarketFormula

open Text

def TokenKind.keyword? : TokenKind → Option (List Char × List Char)
  | .and => some (['A', 'N', 'D'], ['&', '&'])
  | .or => some (['O', 'R'], ['|', '|'])
  | .not => some (['N', 'O', 'T'], ['!'])
  | _ => none

namespace Token

/-- The ways in which a token may be written. -/
inductive Spells (token : Token) : List Char → Prop
  | name {cs : List Char} (hkind : token.kind = .name)
    (h : cs.map Char.toUpper = token.text.toList) : Spells token cs
  | word {cs word sign : List Char} (hkind : token.kind.keyword? = some (word, sign))
    (h : cs.map Char.toUpper = word) : Spells token cs
  | sign {word sign : List Char} (hkind : token.kind.keyword? = some (word, sign)) :
    Spells token sign
  | exactly (hname : token.kind ≠ .name) (hkind : token.kind.keyword? = none) :
    Spells token token.text.toList

def StartsBlank (cs : List Char) : Prop :=
  ∀ c ∈ cs.head?, isBlank c = true

/-- A text that writes tokens one after another, with at least one blank between neighbours and any
blanks at both ends. -/
inductive Writes : List Token → List Char → Prop
  | nil {blanks : List Char} (h : ∀ c ∈ blanks, isBlank c = true) : Writes [] blanks
  | cons {token : Token} {tokens : List Token} {blanks cs rest : List Char}
    (hblanks : ∀ c ∈ blanks, isBlank c = true) (hcs : Spells token cs) (hgap : StartsBlank rest)
    (hrest : Writes tokens rest) : Writes (token :: tokens) (blanks ++ (cs ++ rest))

/-- Tokens that are read in the same way: of one kind, and of one text if they are numbers or
names. -/
def Respells (token token' : Token) : Prop :=
  token.kind = token'.kind ∧
    (token.kind = .number ∨ token.kind = .name → token.text = token'.text)

section Casing

variable {c d : Char}

lemma toNat_toUpper (c : Char) :
    c.toUpper.toNat = if 97 ≤ c.toNat ∧ c.toNat ≤ 122 then c.toNat - 32 else c.toNat := by
  have hlower : ('a'.val ≤ c.val ∧ c.val ≤ 'z'.val) ↔ 97 ≤ c.toNat ∧ c.toNat ≤ 122 := by
    simp only [UInt32.le_iff_toNat_le]
    rfl
  unfold Char.toUpper
  split
  · next h =>
    rw [if_pos (hlower.mp h)]
    have hval : c.val.toNat = c.toNat := rfl
    have hrange := hlower.mp h
    change (c.val + ('A'.val - 'a'.val)).toNat = _
    rw [UInt32.toNat_add, show ('A'.val - 'a'.val).toNat = 2 ^ 32 - 32 from rfl]
    omega
  · next h => rw [if_neg (mt hlower.mpr h)]

lemma isNameStart_toUpper (c : Char) : isNameStart c.toUpper = isNameStart c := by
  rw [Bool.eq_iff_iff, isNameStart_iff, isNameStart_iff, toNat_toUpper]
  split_ifs <;> omega

lemma isNameChar_toUpper (c : Char) : isNameChar c.toUpper = isNameChar c := by
  rw [Bool.eq_iff_iff, isNameChar_iff, isNameChar_iff, isNameStart_toUpper, isNameStart_iff,
    toNat_toUpper]
  split_ifs <;> omega

lemma lexeme_of_map_toUpper {cs upper : List Char} (h : cs.map Char.toUpper = upper)
    (hupper : ∃ c rest, upper = c :: rest ∧ isNameStart c = true ∧
      ∀ d ∈ rest, isNameChar d = true) : Lexeme cs (nameKind upper) upper := by
  subst h
  obtain ⟨_, _, hcons, hstart, hrest⟩ := hupper
  obtain ⟨c, rest, rfl, rfl, rfl⟩ := List.map_eq_cons_iff.mp hcons
  refine .name (by rwa [isNameStart_toUpper] at hstart) fun d hd => ?_
  rw [← isNameChar_toUpper]
  exact hrest _ (List.mem_map_of_mem hd)

end Casing

def IsRead (token : Token) : Prop :=
  ∃ lexeme, Lexeme lexeme token.kind token.text.toList

lemma IsRead.name {token : Token} (h : token.IsRead) (hkind : token.kind = .name) :
    nameKind token.text.toList = .name ∧ ∃ c rest, token.text.toList = c :: rest ∧
      isNameStart c = true ∧ ∀ d ∈ rest, isNameChar d = true := by
  obtain ⟨lexeme, h⟩ := h
  generalize token.text.toList = text at h
  rw [hkind] at h
  generalize hname : TokenKind.name = kind at h
  cases h with
  | number => cases hname
  | @name c rest hstart hrest =>
    refine ⟨rfl, c.toUpper, rest.map Char.toUpper, rfl, ?_, fun d hd => ?_⟩
    · rwa [isNameStart_toUpper]
    · obtain ⟨d', hd', rfl⟩ := List.mem_map.mp hd
      rw [isNameChar_toUpper]
      exact hrest d' hd'
  | symbol hmem =>
    subst hname
    simp [symbols] at hmem

lemma kind_of_nameKind (upper : List Char) :
    nameKind upper = .name ∨ ∃ word, (nameKind upper).keyword? = some word := by
  unfold nameKind
  split_ifs
  · exact .inr ⟨_, rfl⟩
  · exact .inr ⟨_, rfl⟩
  · exact .inr ⟨_, rfl⟩
  · exact .inl rfl

lemma IsRead.exactly {token : Token} (h : token.IsRead) (hname : token.kind ≠ .name)
    (hkeyword : token.kind.keyword? = none) :
    Lexeme token.text.toList token.kind token.text.toList := by
  obtain ⟨lexeme, h⟩ := h
  generalize token.text.toList = text at *
  generalize token.kind = kind at *
  cases h with
  | number h => exact .number h
  | name hstart hrest =>
    obtain hkind | ⟨word, hword⟩ := kind_of_nameKind ((_ :: _).map Char.toUpper)
    · exact absurd hkind hname
    · cases hword.symm.trans hkeyword
  | symbol hmem => exact .symbol hmem

lemma lexeme_of_keyword? {kind : TokenKind} {word sign : List Char}
    (h : kind.keyword? = some (word, sign)) : nameKind word = kind ∧ (kind, sign) ∈ symbols ∧
      ∃ c rest, word = c :: rest ∧ isNameStart c = true ∧ ∀ d ∈ rest, isNameChar d = true := by
  cases kind <;> cases h <;> exact ⟨rfl, by decide, _, _, rfl, rfl, List.all_eq_true.mp rfl⟩

lemma Spells.exists_lexeme {token : Token} {cs : List Char} (h : Spells token cs)
    (hread : token.IsRead) : ∃ text, Lexeme cs token.kind text ∧
      (token.kind = .number ∨ token.kind = .name → text = token.text.toList) := by
  cases h with
  | name hkind h =>
    obtain ⟨hname, hupper⟩ := hread.name hkind
    have hlexeme := lexeme_of_map_toUpper h hupper
    rw [hname, ← hkind] at hlexeme
    exact ⟨_, hlexeme, fun _ => rfl⟩
  | word hkind h =>
    obtain ⟨hword, -, hupper⟩ := lexeme_of_keyword? hkind
    have hlexeme := lexeme_of_map_toUpper h hupper
    rw [hword] at hlexeme
    refine ⟨_, hlexeme, ?_⟩
    rintro (hnumber | hname)
    · rw [hnumber] at hkind; cases hkind
    · rw [hname] at hkind; cases hkind
  | sign hkind =>
    obtain ⟨-, hmem, -⟩ := lexeme_of_keyword? hkind
    refine ⟨_, .symbol hmem, ?_⟩
    rintro (hnumber | hname)
    · rw [hnumber] at hkind; cases hkind
    · rw [hname] at hkind; cases hkind
  | exactly hname hkind => exact ⟨_, hread.exactly hname hkind, fun _ => rfl⟩

lemma front_of_startsBlank {lexeme cs rest : List Char} (h : IsLexeme lexeme)
    (hrest : StartsBlank rest) (hfront : lexeme <+: cs ++ rest) : lexeme <+: cs := by
  rcases Nat.le_total lexeme.length cs.length with hle | hle
  · exact List.prefix_of_prefix_length_le hfront (List.prefix_append _ _) hle
  · obtain ⟨beyond, rfl⟩ := List.prefix_of_prefix_length_le (List.prefix_append _ _) hfront hle
    cases beyond with
    | nil => simp
    | cons c beyond =>
      obtain ⟨kind, text, hlexeme⟩ := h
      obtain ⟨tail, hrest'⟩ := (List.prefix_append_right_inj cs).mp hfront
      have hblank := hrest c (by simp [← hrest'])
      have hnot := hlexeme.not_blank c (by simp)
      cases hblank.symm.trans hnot

lemma scans_blanks {blanks cs rest : List Char} {position : Nat} {tokens : List Token}
    (hblanks : ∀ c ∈ blanks, isBlank c = true)
    (h : Scans (position + blanks.length) cs tokens rest) :
    Scans position (blanks ++ cs) tokens rest := by
  induction blanks generalizing position with
  | nil => exact h
  | cons c blanks ih =>
    refine .blank (hblanks c (List.mem_cons_self ..))
      (ih (fun d hd => hblanks d (List.mem_cons_of_mem _ hd)) ?_)
    rwa [List.length_cons, Nat.add_comm blanks.length, ← Nat.add_assoc] at h

lemma Writes.exists_scans {tokens : List Token} {cs : List Char} (h : Writes tokens cs)
    (hread : ∀ token ∈ tokens, token.IsRead) (position : Nat) :
    ∃ tokens', Scans position cs tokens' [] ∧ List.Forall₂ Respells tokens tokens' := by
  induction h generalizing position with
  | @nil blanks hblanks =>
    refine ⟨[], ?_, .nil⟩
    have hscans := scans_blanks hblanks (Scans.done (position + blanks.length) [])
    rwa [List.append_nil] at hscans
  | @cons token tokens blanks cs rest hblanks hcs hgap _ ih =>
    obtain ⟨text, hlexeme, htext⟩ := hcs.exists_lexeme (hread token (List.mem_cons_self ..))
    obtain ⟨tokens', hscans, hrespells⟩ :=
      ih (fun later hlater => hread later (List.mem_cons_of_mem _ hlater))
        (position + blanks.length + cs.length)
    have hlongest : IsLongest cs (cs ++ rest) :=
      ⟨List.prefix_append _ _, fun other hfront hother =>
        (front_of_startsBlank hother hgap hfront).length_le⟩
    refine ⟨_, scans_blanks hblanks (.lexeme hlongest hlexeme hscans), .cons ⟨rfl, ?_⟩ hrespells⟩
    intro hkind
    rw [htext hkind, String.ofList_toList]

end Token

end MarketFormula
