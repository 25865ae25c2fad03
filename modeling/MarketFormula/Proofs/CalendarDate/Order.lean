import Mathlib.Data.String.Basic
import MarketFormula.CalendarDate
import MarketFormula.Proofs.Result

/-!
# The order of days and the order of their texts

The text of a day has two digits each for month and day, but as many digits for the year as it
takes. Among years of four digits, the order of the texts is that of the days.
-/
namespace MarketFormula.CalendarDate

def AtMost (d d' : CalendarDate) : Prop :=
  d.year < d'.year ∨
    d.year = d'.year ∧ (d.month < d'.month ∨ d.month = d'.month ∧ d.day ≤ d'.day)

instance (d d' : CalendarDate) : Decidable (d.AtMost d') :=
  inferInstanceAs (Decidable (_ ∨ _))

def HasFourDigits (d : CalendarDate) : Prop :=
  1000 ≤ d.year ∧ d.year < 10000

/-- Month and day can be written with two digits. -/
def InRange (d : CalendarDate) : Prop :=
  d.month ≤ 12 ∧ d.day ≤ 31

instance (d : CalendarDate) : Decidable d.InRange :=
  inferInstanceAs (Decidable (_ ∧ _))

section Reading

variable {d : CalendarDate}

lemma daysInMonth_le (year month : Nat) : daysInMonth year month ≤ 31 := by
  unfold daysInMonth
  split
  · split <;> omega
  all_goals omega

lemma inRange_of_rangeFault? (h : d.rangeFault? = none) : d.InRange := by
  have hdays := daysInMonth_le d.year d.month
  unfold rangeFault? at h
  split at h
  · cases h
  · split at h
    · cases h
    · exact ⟨by omega, by omega⟩

lemma inRange_of_standard? {cs : List Char} (h : standard? cs = some d) : d.InRange := by
  simp only [standard?, Option.bind_eq_bind, Option.bind_eq_some_iff] at h
  obtain ⟨⟨date, time⟩, -, h⟩ := h
  split at h
  · next hrange =>
    cases h
    simp only [Bool.and_eq_true, Option.isNone_iff_eq_none] at hrange
    exact inRange_of_rangeFault? hrange.1.1.1
  · cases h

lemma inRange_of_ofYearLast {first second year : Nat} (h : ofYearLast first second year = .ok d) :
    d.InRange := by
  unfold ofYearLast at h
  dsimp only at h
  split at h
  · cases h
  · next hrange =>
    split at h
    · cases h
    · cases h
      unfold monthFirst
      split
      · exact ⟨by dsimp only; omega, by dsimp only; omega⟩
      · exact ⟨by dsimp only; omega, by dsimp only; omega⟩

lemma inRange_of_ofMonthYear {month year : Nat} (h : ofMonthYear month year = .ok d) :
    d.InRange := by
  unfold ofMonthYear at h
  split at h
  · cases h
  · split at h
    · cases h
    · cases h
      exact ⟨by dsimp only; omega, by dsimp only; omega⟩

lemma inRange_of_yearLast? {cs : List Char} (h : yearLast? cs = some (.ok d)) : d.InRange := by
  unfold yearLast? at h
  cases hparts : yearLastParts? cs with
  | some parts =>
    rw [hparts] at h
    exact inRange_of_ofYearLast (Option.some.inj h)
  | none =>
    rw [hparts] at h
    obtain ⟨parts, -, hdate⟩ := Option.map_eq_some_iff.mp h
    exact inRange_of_ofMonthYear hdate

lemma inRange_of_loose? {s : String} (h : loose? s = some (.ok d)) : d.InRange := by
  simp only [loose?, Option.bind_eq_bind, Option.bind_eq_some_iff] at h
  obtain ⟨⟨date, time⟩, -, h⟩ := h
  dsimp only at h
  split at h
  · cases h
  · next hfault =>
    split at h
    · cases h
    · cases h
      unfold looseFault? at hfault
      split at hfault
      · cases hfault
      · cases hrange : d.rangeFault? with
        | none => exact inRange_of_rangeFault? hrange
        | some fault =>
          rw [hrange] at hfault
          cases hfault

lemma inRange_ofDayNumber (n : Int) : (ofDayNumber n).InRange := by
  have hcycle : ((n + 719468 - (n + 719468).fdiv 146097 * 146097).toNat : Int) < 146097 := by
    rw [Int.fdiv_eq_ediv_of_nonneg _ (by decide)]
    omega
  unfold ofDayNumber InRange
  dsimp only
  generalize (n + 719468 - (n + 719468).fdiv 146097 * 146097).toNat = day at hcycle ⊢
  generalize hyears : (day - day / 1460 + day / 36524 - day / 146096) / 365 = years
  have hday : day - (365 * years + years / 4 - years / 100) ≤ 366 := by omega
  generalize day - (365 * years + years / 4 - years / 100) = dayOfYear at hday ⊢
  split <;> omega

lemma inRange_of_ofText {s : String} (h : ofText s = .ok d) : d.InRange := by
  unfold ofText at h
  split at h
  · cases h
  · split at h
    · cases h
    · split at h
      · next hstandard =>
        split at h
        · cases h
        · cases h
          exact inRange_of_standard? hstandard
      · split at h
        · cases h
        · split at h
          · next result hresult =>
            subst h
            cases hyear : yearLast? s.toList with
            | some date =>
              rw [hyear] at hresult
              cases hresult
              exact inRange_of_yearLast? hyear
            | none =>
              rw [hyear] at hresult
              exact inRange_of_loose? hresult
          · cases h

lemma inRange_of_ofNanoseconds {n : Int} {written : String} (h : ofNanoseconds n written = .ok d) :
    d.InRange := by
  unfold ofNanoseconds at h
  split at h
  · cases h
  · split at h
    · cases h
    · cases h
      exact inRange_ofDayNumber _

lemma inRange_of_ofDatum {value : Datum} (h : ofDatum value = .ok d) : d.InRange := by
  cases value with
  | int n => exact inRange_of_ofNanoseconds h
  | float x =>
    simp only [ofDatum] at h
    split at h
    · cases h
    · split at h
      · cases h
      · exact inRange_of_ofNanoseconds h
  | text s => exact inRange_of_ofText h
  | _ => cases h

end Reading

section Writing

lemma digitChar_lt_iff : ∀ a < 10, ∀ b < 10,
    (a.digitChar < b.digitChar ↔ a < b) ∧ (a.digitChar = b.digitChar ↔ a = b) := by
  decide

lemma toDigits_of_lt {n : Nat} (h : n < 100) (h' : 10 ≤ n) :
    Nat.toDigits 10 n = [(n / 10).digitChar, (n % 10).digitChar] := by
  rw [Nat.toDigits_of_base_le (by decide) h', Nat.toDigits_of_lt_base (by omega)]
  rfl

lemma padded_two {n : Nat} (h : n < 100) :
    (padded 2 n).toList = [(n / 10).digitChar, (n % 10).digitChar] := by
  rw [padded, String.toList_ofList]
  rcases Nat.lt_or_ge n 10 with hn | hn
  · rw [Nat.toDigits_of_lt_base hn, Nat.div_eq_of_lt hn, Nat.mod_eq_of_lt hn]
    rfl
  · rw [toDigits_of_lt h hn]
    rfl

lemma toList_year {n : Nat} (h : 1000 ≤ n) (h' : n < 10000) : (toString n).toList =
    [(n / 1000).digitChar, (n / 100 % 10).digitChar, (n / 10 % 10).digitChar,
      (n % 10).digitChar] := by
  have hdigits : (toString n).toList = Nat.toDigits 10 n := by
    simp [toString, Nat.repr]
  have hhundreds : n / 10 / 10 = n / 100 := Nat.div_div_eq_div_mul ..
  have hthousands : n / 100 / 10 = n / 1000 := Nat.div_div_eq_div_mul ..
  rw [hdigits, Nat.toDigits_of_base_le (by decide) (by omega),
    Nat.toDigits_of_base_le (by decide) (by omega), toDigits_of_lt (by omega) (by omega),
    hhundreds, hthousands]
  rfl

variable {d d' : CalendarDate}

lemma toList_render (hyear : d.HasFourDigits) (hrange : d.InRange) : d.render.toList =
    [(d.year / 1000).digitChar, (d.year / 100 % 10).digitChar, (d.year / 10 % 10).digitChar,
      (d.year % 10).digitChar, '-', (d.month / 10).digitChar, (d.month % 10).digitChar, '-',
      (d.day / 10).digitChar, (d.day % 10).digitChar] := by
  obtain ⟨hmonth, hday⟩ := hrange
  simp only [render, String.toList_append, toList_year hyear.1 hyear.2,
    padded_two (show d.month < 100 by omega), padded_two (show d.day < 100 by omega)]
  rfl

theorem atMost_of_render_le (hyear : d.HasFourDigits) (hyear' : d'.HasFourDigits)
    (hrange : d.InRange) (hrange' : d'.InRange) (h : d.render ≤ d'.render) : d.AtMost d' := by
  have hnot : ¬ d'.render.toList < d.render.toList := by
    rwa [← String.lt_iff_toList_lt, not_lt]
  rw [toList_render hyear hrange, toList_render hyear' hrange'] at hnot
  obtain ⟨hlow, hhigh⟩ := hyear
  obtain ⟨hlow', hhigh'⟩ := hyear'
  obtain ⟨hmonth, hday⟩ := hrange
  obtain ⟨hmonth', hday'⟩ := hrange'
  simp (disch := omega) only [List.cons_lt_cons_iff, (digitChar_lt_iff _ _ _ _).1,
    (digitChar_lt_iff _ _ _ _).2, lt_irrefl, and_false, or_false, false_or, true_and] at hnot
  unfold AtMost
  omega

end Writing

end MarketFormula.CalendarDate
