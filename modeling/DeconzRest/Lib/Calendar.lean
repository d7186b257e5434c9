import Mathlib.Algebra.Ring.Int.Defs

/-!
# The Gregorian calendar

Days are counted from 1970-01-01.  The years of a count of days begin in March, so that the day
that is not in every year is the last one of its year: an era of 400 years has 146097 days, a
century 36524 and four years 1461, without the day at the end of the longer ones.
-/

namespace DeconzRest
namespace Calendar

structure Date where
  year : Int
  month : Int
  day : Int
deriving DecidableEq, Repr

def partsOfEra (dayOfEra : Int) : Int × Int :=
  let century := min (dayOfEra / 36524) 3
  let ofCentury := dayOfEra - 36524 * century
  let ofFour := ofCentury % 1461
  let year := min (ofFour / 365) 3
  (100 * century + 4 * (ofCentury / 1461) + year, ofFour - 365 * year)

def daysBefore (year : Int) : Int := 365 * year + year / 4 - year / 100

def monthStart (month : Int) : Int := (153 * month + 2) / 5

def dateOfDay (day : Int) : Date :=
  let shifted := day + 719468
  let era := shifted / 146097
  let (yearOfEra, dayOfYear) := partsOfEra (shifted % 146097)
  let month := (5 * dayOfYear + 2) / 153
  { year := 400 * era + yearOfEra + if month < 10 then 0 else 1
    month := if month < 10 then month + 3 else month - 9
    day := dayOfYear - monthStart month + 1 }

def dayOfDate (date : Date) : Int :=
  let year := if date.month ≤ 2 then date.year - 1 else date.year
  let month := if date.month ≤ 2 then date.month + 9 else date.month - 3
  146097 * (year / 400) + (daysBefore (year % 400) + (monthStart month + date.day - 1)) - 719468

variable {dayOfEra day : Int}

theorem partsOfEra_range (h0 : 0 ≤ dayOfEra) (h1 : dayOfEra < 146097) :
    (0 ≤ (partsOfEra dayOfEra).1 ∧ (partsOfEra dayOfEra).1 < 400) ∧ 0 ≤ (partsOfEra dayOfEra).2 ∧
      (partsOfEra dayOfEra).2 < 366 := by
  unfold partsOfEra
  simp only
  omega

/-- Of centuries, leap years and years only the first two are counted in quarters. -/
theorem quarters {century fours year : Int} (h0 : 0 ≤ fours) (h1 : fours ≤ 24) (h2 : 0 ≤ year)
    (h3 : year ≤ 3) :
    (100 * century + 4 * fours + year) / 4 = 25 * century + fours ∧
      (100 * century + 4 * fours + year) / 100 = century := by
  omega

theorem daysBefore_partsOfEra (h0 : 0 ≤ dayOfEra) (h1 : dayOfEra < 146097) :
    daysBefore (partsOfEra dayOfEra).1 + (partsOfEra dayOfEra).2 = dayOfEra := by
  have hcentury : 0 ≤ dayOfEra - 36524 * min (dayOfEra / 36524) 3 ∧
      dayOfEra - 36524 * min (dayOfEra / 36524) 3 ≤ 36524 := by omega
  unfold daysBefore partsOfEra
  simp only
  generalize min (dayOfEra / 36524) 3 = century at hcentury ⊢
  have hfours : 0 ≤ (dayOfEra - 36524 * century) / 1461 ∧ (dayOfEra - 36524 * century) / 1461 ≤
      24 := by omega
  have hyear : 0 ≤ min ((dayOfEra - 36524 * century) % 1461 / 365) 3 ∧
      min ((dayOfEra - 36524 * century) % 1461 / 365) 3 ≤ 3 := by omega
  obtain ⟨hfour, hhundred⟩ := @quarters century _ _ hfours.1 hfours.2 hyear.1 hyear.2
  rw [hfour, hhundred]
  omega

theorem month_range {dayOfYear : Int} (h0 : 0 ≤ dayOfYear) (h1 : dayOfYear < 366) :
    (0 ≤ (5 * dayOfYear + 2) / 153 ∧ (5 * dayOfYear + 2) / 153 ≤ 11) ∧ 1 ≤
      dayOfYear - monthStart ((5 * dayOfYear + 2) / 153) + 1 ∧
      dayOfYear - monthStart ((5 * dayOfYear + 2) / 153) + 1 ≤ 31 := by
  unfold monthStart
  omega

theorem dayOfDate_dateOfDay (day : Int) : dayOfDate (dateOfDay day) = day := by
  have hera : 0 ≤ (day + 719468) % 146097 ∧ (day + 719468) % 146097 < 146097 := by omega
  obtain ⟨hyear, hday0, hday1⟩ := partsOfEra_range hera.1 hera.2
  have hsum := daysBefore_partsOfEra hera.1 hera.2
  obtain ⟨hmonth, -⟩ := month_range hday0 hday1
  unfold dayOfDate dateOfDay
  simp only
  generalize (partsOfEra ((day + 719468) % 146097)).1 = year at hyear hsum ⊢
  generalize (partsOfEra ((day + 719468) % 146097)).2 = dayOfYear at hday0 hday1 hsum hmonth ⊢
  generalize (5 * dayOfYear + 2) / 153 = month at hmonth ⊢
  by_cases hlate : month < 10
  · -- from March to December
    have hnot : ¬ month + 3 ≤ 2 := by omega
    have hsame : (400 * ((day + 719468) / 146097) + year + 0) / 400 = (day + 719468) / 146097 ∧
        (400 * ((day + 719468) / 146097) + year + 0) % 400 = year := by omega
    rw [if_pos hlate, if_pos hlate, if_neg hnot, if_neg hnot, hsame.1, hsame.2, Int.add_sub_cancel]
    omega
  · have hfirst : month - 9 ≤ 2 := by omega
    have hsame : (400 * ((day + 719468) / 146097) + year + 1 - 1) / 400 = (day + 719468) / 146097 ∧
        (400 * ((day + 719468) / 146097) + year + 1 - 1) % 400 = year := by omega
    rw [if_neg hlate, if_neg hlate, if_pos hfirst, if_pos hfirst, hsame.1, hsame.2,
      Int.sub_add_cancel]
    omega

example : dateOfDay 11016 = ⟨2000, 2, 29⟩ := by decide

theorem dateOfDay_range (h0 : -719162 ≤ day) (h1 : day < 2932897) :
    (0 ≤ (dateOfDay day).year ∧ (dateOfDay day).year < 10000) ∧
      (1 ≤ (dateOfDay day).month ∧ (dateOfDay day).month ≤ 12) ∧
      1 ≤ (dateOfDay day).day ∧ (dateOfDay day).day ≤ 31 := by
  have hera : 0 ≤ (day + 719468) % 146097 ∧ (day + 719468) % 146097 < 146097 := by omega
  obtain ⟨hyear, hday0, hday1⟩ := partsOfEra_range hera.1 hera.2
  have hsum := daysBefore_partsOfEra hera.1 hera.2
  obtain ⟨hmonth, hday⟩ := month_range hday0 hday1
  unfold dateOfDay
  simp only
  refine ⟨?_, ?_, hday⟩
  · unfold daysBefore at hsum
    generalize (partsOfEra ((day + 719468) % 146097)).1 = year at hyear hsum ⊢
    generalize (partsOfEra ((day + 719468) % 146097)).2 = dayOfYear at hday0 hday1 hsum hmonth ⊢
    by_cases hlate : (5 * dayOfYear + 2) / 153 < 10
    · rw [if_pos hlate]
      omega
    · rw [if_neg hlate]
      omega
  · by_cases hlate : (5 * (partsOfEra ((day + 719468) % 146097)).2 + 2) / 153 < 10
    · rw [if_pos hlate]
      omega
    · rw [if_neg hlate]
      omega

end Calendar
end DeconzRest
