/-!
# Doubles as dyadic rationals

The magnitude of a finite double is `mantissa * 2 ^ exponent`. Its exact integer value, if it has
one, is read off this form.
-/
namespace MarketFormula.Decimal

def nan : Float := 0.0 / 0.0

def infinity : Float := 1.0 / 0.0

/-- The sign bit, which tells the two zeros apart. -/
def isSigned (x : Float) : Bool :=
  x.toBits.toNat / 0x8000000000000000 == 1

/-- `2 ^ e` for a positive `e`, and one otherwise. -/
def twoPow (e : Int) : Nat :=
  Nat.pow 2 e.toNat

theorem twoPow_pos (e : Int) : 0 < twoPow e :=
  Nat.pow_pos (by decide)

theorem twoPow_of_nonpos {e : Int} (h : e ≤ 0) : twoPow e = 1 := by
  have : e.toNat = 0 := by omega
  rw [twoPow, this]

/-- The magnitude of a finite double, `mantissa * 2 ^ exponent`. -/
structure Dyadic where
  mantissa : Nat
  exponent : Int
  /-- The next double below is half as far away as the next one above. -/
  narrowBelow : Bool
  deriving DecidableEq, Repr

def Dyadic.ofFloat (x : Float) : Dyadic :=
  let bits := x.toBits.toNat
  let fraction : Nat := bits % 0x10000000000000
  let power : Nat := bits / 0x10000000000000 % 0x800
  if power = 0 then ⟨fraction, -1074, false⟩
  else ⟨0x10000000000000 + fraction, power - 1075, fraction = 0 && 1 < power⟩

def Dyadic.toNat? (d : Dyadic) : Option Nat :=
  if 0 ≤ d.exponent then some (d.mantissa * twoPow d.exponent)
  else if d.mantissa % twoPow (-d.exponent) = 0 then some (d.mantissa / twoPow (-d.exponent))
  else none

theorem Dyadic.toNat?_eq_some_iff (d : Dyadic) (n : Nat) :
    d.toNat? = some n ↔ n * twoPow (-d.exponent) = d.mantissa * twoPow d.exponent := by
  unfold toNat?
  by_cases h : 0 ≤ d.exponent
  · rw [if_pos h, twoPow_of_nonpos (by omega : -d.exponent ≤ 0), Option.some.injEq, Nat.mul_one]
    exact eq_comm
  · rw [if_neg h, twoPow_of_nonpos (by omega : d.exponent ≤ 0), Nat.mul_one]
    split
    · next hmod =>
      rw [Option.some.injEq]
      constructor
      · rintro rfl
        exact Nat.div_mul_cancel (Nat.dvd_of_mod_eq_zero hmod)
      · intro hmul
        rw [← hmul]
        exact Nat.mul_div_cancel _ (twoPow_pos _)
    · next hmod =>
      simp only [reduceCtorEq, false_iff]
      intro hmul
      exact hmod (hmul ▸ Nat.mul_mod_left _ _)

def Dyadic.floor (d : Dyadic) : Nat :=
  d.mantissa * twoPow d.exponent / twoPow (-d.exponent)

def truncate (x : Float) : Int :=
  let n : Int := (Dyadic.ofFloat x).floor
  if isSigned x then -n else n

/-- The natural number that a finite double of positive sign stands for, if it is one. -/
def natural? (x : Float) : Option Nat :=
  if x.isFinite && !isSigned x then (Dyadic.ofFloat x).toNat? else none

end MarketFormula.Decimal
