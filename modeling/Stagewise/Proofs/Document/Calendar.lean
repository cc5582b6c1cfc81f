import Mathlib.Tactic.IntervalCases
import Stagewise.Timestamp
/-!
# Days and their numbers

The day with a given number has that number, and it is a day of the calendar when its year can be
represented.

Years are counted from March and grouped into eras of four hundred. An era has 146097 days; a year
of it begins after 365 days for each year before it, one more for every fourth of them and one less
for every hundredth.
-/

namespace Stagewise.Day

/-! ### Years of an era -/

/-- The days of an era before its year `y`. -/
def daysBefore (y : Int) : Int := 365 * y + y / 4 - y / 100

/-- The year of an era in which its day `n` lies. -/
def yearOfEra (n : Int) : Int := (n - n / 1460 + n / 36524 - n / 146096) / 365

section

variable {n y : Int} (h₀ : 0 ≤ n) (h₁ : n < 146097) (hy : yearOfEra n = y)
include h₀ h₁ hy

theorem yearOfEra_bounds : 0 ≤ y ∧ y ≤ 399 := by
  unfold yearOfEra at hy
  omega

/-- Four years have more than 1460 days, so no more leap years are passed than days are taken off
for them. -/
theorem fourths_le : y / 4 ≤ n / 1460 := by
  unfold yearOfEra at hy
  by_contra h
  omega

theorem le_fourths : n / 1460 ≤ y / 4 + 1 := by
  unfold yearOfEra at hy
  omega

theorem centuries_le : y / 100 ≤ n / 36524 - n / 146096 := by
  have := fourths_le h₀ h₁ hy
  unfold yearOfEra at hy
  -- The last day of an era is taken off the century that it would begin.
  by_cases hlast : n = 146096
  · omega
  · have : n / 146096 = 0 := by omega
    omega

theorem daysBefore_le : daysBefore y ≤ n := by
  have := fourths_le h₀ h₁ hy
  unfold yearOfEra at hy
  unfold daysBefore
  omega

theorem le_daysBefore : n ≤ daysBefore y + 365 := by
  have := le_fourths h₀ h₁ hy
  have := centuries_le h₀ h₁ hy
  unfold yearOfEra at hy
  unfold daysBefore
  omega

/-- Only a year that ends with a leap day has a day behind its 365 days. -/
theorem isLeap_of_last (hlast : n = daysBefore y + 365) (era : Int) :
    isLeap (y + era * 400 + 1) = true := by
  have := le_fourths h₀ h₁ hy
  have := centuries_le h₀ h₁ hy
  unfold yearOfEra at hy
  unfold daysBefore at hlast
  have hfour : n / 1460 = y / 4 + 1 := by omega
  have hthird : y % 4 = 3 := by omega
  have hcentury : y % 100 = 99 → y = 399 := by
    intro h
    have : n / 36524 = y / 100 + 1 := by omega
    have : n / 146096 = 1 := by omega
    omega
  simp only [isLeap, Bool.and_eq_true, Bool.or_eq_true, beq_iff_eq, bne_iff_ne, ne_eq]
  omega

end

/-! ### Months of a year -/

/-- The day `d` of the year `y` of an era, which begins in March. -/
def ofMarch (era y d : Int) : Day :=
  let mp := (5 * d + 2) / 153
  let month := if mp < 10 then mp + 3 else mp - 9
  ⟨y + era * 400 + (if month ≤ 2 then 1 else 0), month.toNat, (d - (153 * mp + 2) / 5 + 1).toNat⟩

section

variable {era y d : Int} (hd₀ : 0 ≤ d) (hd₁ : d ≤ 365)
include hd₀ hd₁

theorem number_ofMarch (hy₀ : 0 ≤ y) (hy₁ : y ≤ 399) :
    (ofMarch era y d).number = era * 146097 + daysBefore y + d - 719468 := by
  simp only [ofMarch, number, daysBefore]
  by_cases hm : (5 * d + 2) / 153 < 10
  · have hlate : ¬((5 * d + 2) / 153 + 3 ≤ 2) := by omega
    have hlate' : ¬(((5 * d + 2) / 153 + 3).toNat ≤ 2) := by omega
    have hlate'' : 2 < ((5 * d + 2) / 153 + 3).toNat := by omega
    simp only [hm, hlate, hlate', hlate'', if_true, if_false]
    omega
  · have hearly : (5 * d + 2) / 153 - 9 ≤ 2 := by omega
    have hearly' : ((5 * d + 2) / 153 - 9).toNat ≤ 2 := by omega
    have hearly'' : ¬(2 < ((5 * d + 2) / 153 - 9).toNat) := by omega
    simp only [hm, hearly, hearly', hearly'', if_true, if_false]
    omega

theorem month_ofMarch : 1 ≤ (ofMarch era y d).month ∧ (ofMarch era y d).month ≤ 12 := by
  simp only [ofMarch]
  omega

theorem day_ofMarch (hleap : d = 365 → isLeap (y + era * 400 + 1) = true) :
    1 ≤ (ofMarch era y d).day ∧
      (ofMarch era y d).day ≤ daysIn (ofMarch era y d).year (ofMarch era y d).month := by
  simp only [ofMarch]
  have hmp₀ : 0 ≤ (5 * d + 2) / 153 := by omega
  have hmp₁ : (5 * d + 2) / 153 ≤ 11 := by omega
  generalize hm : (5 * d + 2) / 153 = mp at *
  by_cases hfebruary : mp = 11
  · subst hfebruary
    by_cases hlast : d = 365
    · simp [daysIn, hleap hlast, hlast]
    · have : d - 337 + 1 ≤ 28 := by omega
      simp only [daysIn]
      norm_num
      split <;> omega
  · have hmp₂ : mp ≤ 10 := by omega
    interval_cases mp <;> simp [daysIn] <;> omega

end

/-! ### Days and numbers -/

theorem exists_ofMarch (n : Int) : ∃ era y d, ofNumber n = ofMarch era y d ∧
    n = era * 146097 + daysBefore y + d - 719468 ∧ (0 ≤ y ∧ y ≤ 399) ∧ (0 ≤ d ∧ d ≤ 365) ∧
    (d = 365 → isLeap (y + era * 400 + 1) = true) := by
  set era := (n + 719468) / 146097 with hera
  set ofEra := n + 719468 - era * 146097 with hofEra
  have h₀ : 0 ≤ ofEra := by omega
  have h₁ : ofEra < 146097 := by omega
  have hfirst := daysBefore_le h₀ h₁ rfl
  have hlast := le_daysBefore h₀ h₁ rfl
  refine ⟨era, yearOfEra ofEra, ofEra - daysBefore (yearOfEra ofEra), rfl, by omega,
    yearOfEra_bounds h₀ h₁ rfl, by omega, fun h => ?_⟩
  exact isLeap_of_last h₀ h₁ rfl (by omega) era

theorem number_ofNumber (n : Int) : (ofNumber n).number = n := by
  obtain ⟨era, y, d, hday, hn, ⟨hy₀, hy₁⟩, ⟨hd₀, hd₁⟩, -⟩ := exists_ofMarch n
  rw [hday, number_ofMarch hd₀ hd₁ hy₀ hy₁, ← hn]

/-- The days from the first to the last of the years that points in time can lie in are days of the
calendar. -/
theorem exists?_ofNumber {n : Int} (hfirst : number ⟨-262143, 1, 1⟩ ≤ n)
    (hlast : n ≤ number ⟨262142, 12, 31⟩) : (ofNumber n).exists? = true := by
  have h₀ : number ⟨-262143, 1, 1⟩ = -96465292 := by decide
  have h₁ : number ⟨262142, 12, 31⟩ = 95026236 := by decide
  obtain ⟨era, y, d, hday, hn, ⟨hy₀, hy₁⟩, ⟨hd₀, hd₁⟩, hleap⟩ := exists_ofMarch n
  have hmonth := @month_ofMarch era y d hd₀ hd₁
  have hofMonth := day_ofMarch hd₀ hd₁ hleap
  have hyear : -262143 ≤ (ofMarch era y d).year ∧ (ofMarch era y d).year ≤ 262142 := by
    rw [h₀] at hfirst
    rw [h₁] at hlast
    unfold daysBefore at hn
    have hera : -656 ≤ era ∧ era ≤ 655 := by omega
    -- The first year begins in January, so behind the first ten months of year 256 of its era; the
    -- last ends with the tenth month of year 142.
    have hbegin : -262143 ≤ y + era * 400 ∨ y + era * 400 = -262144 ∧ 306 ≤ d := by
      rcases (by omega : -655 ≤ era ∨ era = -656 ∧ y = 256 ∨ era = -656 ∧ y ≠ 256) with
        h | ⟨rfl, rfl⟩ | ⟨rfl, h⟩ <;> omega
    have hend : y + era * 400 ≤ 262141 ∨ y + era * 400 = 262142 ∧ d ≤ 305 := by
      rcases (by omega : era ≤ 654 ∨ era = 655 ∧ y = 142 ∨ era = 655 ∧ y ≠ 142) with
        h | ⟨rfl, rfl⟩ | ⟨rfl, h⟩ <;> omega
    simp only [ofMarch]
    by_cases hm : (5 * d + 2) / 153 < 10
    · have : ¬((5 * d + 2) / 153 + 3 ≤ 2) := by omega
      simp only [hm, this, if_true, if_false]
      omega
    · have : (5 * d + 2) / 153 - 9 ≤ 2 := by omega
      simp only [hm, this, if_true, if_false]
      omega
  rw [hday]
  simp only [exists?, Bool.and_eq_true, decide_eq_true_eq]
  exact ⟨⟨⟨⟨⟨hyear.1, hyear.2⟩, hmonth.1⟩, hmonth.2⟩, hofMonth.1⟩, hofMonth.2⟩

end Stagewise.Day
