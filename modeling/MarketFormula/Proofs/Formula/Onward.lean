import MarketFormula.Proofs.Formula.Halting

/-!
# Readers go onward

No reader goes back: it leaves at most as many tokens as it was given, whether it succeeds or stops.
-/
namespace MarketFormula

def remaining {α : Type} : Except Stop (α × Cursor) → Nat
  | .ok (_, c) => c.rest.length
  | .error stop => stop.cursor.rest.length

/-- A result of reading on from a cursor. -/
def Onward {α : Type} (c : Cursor) (x : Except Stop (α × Cursor)) : Prop :=
  remaining x ≤ c.rest.length

namespace Onward

variable {α β : Type} {c m : Cursor}

lemma bind {x : Except Stop (α × Cursor)} {f : α × Cursor → Except Stop (β × Cursor)}
    (h : Onward c x) (hf : ∀ a m, Onward m (f (a, m))) : Onward c (x >>= f) := by
  cases x with
  | ok result => exact (hf result.1 result.2).trans h
  | error stop => exact h

lemma next {token : Token} {x : Except Stop (α × Cursor)} (h : Onward m x)
    (hnext : c.next? = some (token, m)) : Onward c x := by
  have hlength := congrArg List.length (Cursor.rest_of_next? hnext)
  rw [List.length_cons] at hlength
  simp only [Onward] at *
  omega

lemma close (depth : Nat) (description : String) (c : Cursor) (a : α) :
    Onward c (do
      let c' ← Reader.close depth description c
      return (a, c')) := by
  unfold Reader.close Cursor.expect
  cases hnext : c.next? with
  | none => exact le_rfl
  | some step =>
    obtain ⟨token, m⟩ := step
    dsimp only
    split
    · next hexpect =>
      split at hexpect
      · cases hexpect
        exact .next le_rfl hnext
      · cases hexpect
    · exact le_rfl

lemma of_reads {p : Grammar.Nonterminal} {budget : Nat} {x : Except Stop (α × Cursor)}
    (hok : ∀ a m, x = .ok (a, m) → ∃ xs, c.Reads xs m)
    (herror : ∀ stop, x = .error stop → Grammar.Halted p budget c stop) : Onward c x := by
  cases x with
  | ok result =>
    obtain ⟨xs, hreads⟩ := hok result.1 result.2 rfl
    exact hreads.length_rest_le
  | error stop =>
    obtain ⟨xs, hreads, -⟩ := herror stop rfl
    exact hreads.length_rest_le

end Onward

namespace Grammar

namespace Careful

variable {budget : Nat}

lemma onward {level : Level} {reader : Reader} (h : Careful level budget reader) (c : Cursor) :
    Onward c (reader c) := by
  refine .of_reads (fun e m hx => ?_) (h.halts c)
  obtain ⟨d, -, hreads, -⟩ := (h.sound c).of_eq_ok hx
  exact ⟨_, hreads⟩

lemma length_le {level : Level} {reader : Reader} (h : Careful level budget reader) {c m : Cursor}
    {e : Expr} (hx : reader c = .ok (e, m)) : m.rest.length ≤ c.rest.length := by
  have honward := h.onward c
  rwa [hx] at honward

lemma onward_chain {chain : Chain} {operand : Reader} (h : Careful chain.operand budget operand)
    (rounds : Nat) (left : Expr) (c : Cursor) :
    Onward c (Reader.chain chain.op? operand rounds left c) := by
  refine .of_reads (fun e m hx => ?_) (halted_chain h.sound h.halts rounds left c)
  obtain ⟨d, -, hreads, -⟩ := (sound_chain h.sound rounds left c).of_eq_ok hx
  exact ⟨_, hreads⟩

lemma onward_moreArguments {argument : Reader} (h : Careful (.chain .or) budget argument)
    (rounds : Nat) (c : Cursor) : Onward c (Reader.moreArguments argument rounds c) := by
  refine .of_reads (fun e m hx => ?_) (halted_moreArguments h.sound h.halts rounds c)
  obtain ⟨d, -, hreads, -⟩ := (sound_moreArguments h.sound rounds c).of_eq_ok hx
  exact ⟨_, hreads⟩

lemma onward_arguments {argument : Reader} (h : Careful (.chain .or) budget argument) (c : Cursor) :
    Onward c (Reader.arguments argument c) := by
  refine .of_reads (fun e m hx => ?_) (halted_arguments h.sound h.halts c)
  obtain ⟨d, -, hreads, -⟩ := (sound_arguments h.sound c).of_eq_ok hx
  exact ⟨_, hreads⟩

end Careful

lemma onward_call {budget : Nat} (depth : Nat) {deeper : Option Readers}
    (hdeeper : ∀ readers, deeper = some readers → ∃ less, less + 1 ≤ budget ∧
      ∀ level, Careful level less (readers.get level)) (name : Token) (c : Cursor) :
    Onward c (Reader.call depth deeper name c) := by
  unfold Reader.call Reader.deepen
  cases deeper with
  | none => exact le_rfl
  | some inner =>
    obtain ⟨less, -, hlevel⟩ := hdeeper inner rfl
    exact ((hlevel (.chain .or)).onward_arguments c).bind fun args m => .close depth _ m _

lemma onward_single (depth : Nat) (e : Expr) (c : Cursor) : Onward c
    (match c.rest with
    | second :: _ =>
      if second.kind.isComparison then .error ⟨.chainedComparison second, c, depth⟩ else .ok (e, c)
    | [] => .ok (e, c)) := by
  split
  · split <;> exact le_rfl
  · exact le_rfl

end Grammar

end MarketFormula
