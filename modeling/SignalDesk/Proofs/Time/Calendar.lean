import Mathlib.Tactic.IntervalCases
import SignalDesk.Time.Calendar

/-!
# Dates of days

The date of a day is one that the calendar has, and it lies that many days from 1970-01-01. A day is
placed in its era by the century, by the four years in it and by the year of those, which ends in a
leap day unless a later rule takes it away.
-/

namespace SignalDesk

/-- The place of a day in an era of 400 years, each of which begins in March. -/
structure EraDay where
  century : Nat
  olympiad : Nat
  year : Nat
  day : Nat
  century_lt : century < 4
  olympiad_lt : olympiad < 25
  year_lt : year < 4
  day_le : day ≤ 365
  /-- The last of four years has a leap day, unless it ends a century within the era. -/
  leap : day = 365 → year = 3 ∧ (olympiad = 24 → century = 3)

namespace EraDay

def yearOfEra (place : EraDay) : Nat := 100 * place.century + 4 * place.olympiad + place.year

def dayOfEra (place : EraDay) : Nat :=
  36524 * place.century + 1461 * place.olympiad + 365 * place.year + place.day

private theorem exists_dayOfEra {n : Nat} (h : n < 146097) : ∃ place :
    EraDay, place.dayOfEra = n := by
  rcases Nat.lt_or_ge n 146096 with hinside | hlast
  · rcases Nat.lt_or_ge (n % 36524 % 1461) 1460 with hyears | hleap
    · refine ⟨⟨n / 36524, n % 36524 / 1461, n % 36524 % 1461 / 365, n % 36524 % 1461 % 365,
        by omega, by omega, by omega, by omega, by omega⟩, ?_⟩
      simp only [dayOfEra]
      omega
    · refine ⟨⟨n / 36524, n % 36524 / 1461, 3, 365,
        by omega, by omega, by omega, by omega, by omega⟩, ?_⟩
      simp only [dayOfEra]
      omega
  · refine ⟨⟨3, 24, 3, 365, by omega, by omega, by omega, by omega, by omega⟩, ?_⟩
    simp only [dayOfEra]
    omega

variable (place : EraDay)

private theorem yearOfEra_lt : place.yearOfEra < 400 := by
  obtain ⟨century, olympiad, year, day, hcentury, holympiad, hyear, -, -⟩ := place
  simp only [yearOfEra]
  omega

private theorem daysBefore_yearOfEra :
    365 * place.yearOfEra + place.yearOfEra / 4 - place.yearOfEra / 100 + place.day =
      place.dayOfEra := by
  obtain ⟨century, olympiad, year, day, -, holympiad, hyear, -, -⟩ := place
  simp only [yearOfEra, dayOfEra]
  omega

private theorem leapDays_bounds :
    25 * place.century + place.olympiad ≤ place.dayOfEra / 1460 ∧
      place.dayOfEra / 1460 ≤ 25 * place.century + place.olympiad + place.day ∧
      25 * place.century + place.olympiad + place.day < place.dayOfEra / 1460 + 365 := by
  obtain ⟨century, olympiad, year, day, hcentury, holympiad, hyear, hday, hleap⟩ := place
  replace hleap := fun hlong => (hleap hlong).1
  simp only [dayOfEra]
  refine ⟨?_, ?_, ?_⟩ <;> omega

private theorem centuries_eq : place.dayOfEra / 36524 - place.dayOfEra / 146096 = place.century := by
  obtain ⟨century, olympiad, year, day, hcentury, holympiad, hyear, hday, hleap⟩ := place
  simp only [dayOfEra]
  omega

/-- The year of a day is found by taking the leap days off and the ends of centuries back in. -/
theorem yearOfEra_eq :
    (place.dayOfEra - place.dayOfEra / 1460 + place.dayOfEra / 36524 - place.dayOfEra / 146096) / 365 =
      place.yearOfEra := by
  obtain ⟨hlow, hhigh, hyear⟩ := place.leapDays_bounds
  have hcenturies := place.centuries_eq
  have hday : place.dayOfEra =
    36524 * place.century + 1461 * place.olympiad + 365 * place.year + place.day := rfl
  unfold yearOfEra
  omega

end EraDay

namespace Date

/-- The date on a day of a year that begins in March, counted from zero. -/
def ofMarch (year : Int) (dayOfYear : Nat) : Date :=
  let month := (5 * dayOfYear + 2) / 153
  let day := dayOfYear - (153 * month + 2) / 5 + 1
  if month < 10 then ⟨year, month + 3, day⟩ else ⟨year + 1, month - 9, day⟩

private theorem monthStart_le (dayOfYear : Nat) :
    (153 * ((5 * dayOfYear + 2) / 153) + 2) / 5 ≤ dayOfYear := by
  omega

private theorem isValid_ofMarch {year : Int} {dayOfYear : Nat} (hday : dayOfYear ≤ 365)
    (hleap : dayOfYear = 365 → isLeapYear (year + 1) = true) :
    (ofMarch year dayOfYear).isValid = true := by
  unfold ofMarch
  generalize hmonth : (5 * dayOfYear + 2) / 153 = month
  have hlast : month ≤ 11 := by omega
  rcases Nat.lt_or_eq_of_le hlast with hearlier | hfebruary
  · interval_cases month
    all_goals
      simp [isValid, daysInMonth]
      omega
  · subst hfebruary
    simp only [isValid, daysInMonth]
    cases hlong : isLeapYear (year + 1) with
    | true =>
      simp [hlong]
      omega
    | false =>
      have hshort : dayOfYear ≠ 365 := fun h => by simp [hleap h] at hlong
      simp [hlong]
      omega

private theorem toDays_ofMarch (year : Int) {dayOfYear : Nat} (hday : dayOfYear ≤ 365) :
    (ofMarch year dayOfYear).toDays =
      year / 400 * 146097 +
        (year % 400 * 365 + year % 400 / 4 - year % 400 / 100 + dayOfYear) - 719468 := by
  have hstart := monthStart_le dayOfYear
  unfold ofMarch
  generalize hmonth : (5 * dayOfYear + 2) / 153 = month at hstart ⊢
  by_cases hthisYear : month < 10
  · simp [toDays, hthisYear]
    omega
  · have hnextYear : month - 9 ≤ 2 := by omega
    have hback : month - 9 + 9 = month := by omega
    simp [toDays, hthisYear, hnextYear, hback]
    omega

/-- A day has a place in its era, and its date is found from there. -/
theorem ofDays_eq (days : Int) :
    ∃ era : Int, ∃ place : EraDay, days + 719468 = era * 146097 + place.dayOfEra ∧
      ofDays days = ofMarch (era * 400 + place.yearOfEra) place.day := by
  have hlt : ((days + 719468) % 146097).toNat < 146097 := by omega
  obtain ⟨place, hplace⟩ := EraDay.exists_dayOfEra hlt
  have hbefore := place.daysBefore_yearOfEra
  have hday : place.dayOfEra - (365 * place.yearOfEra + place.yearOfEra / 4 - place.yearOfEra / 100) =
      place.day := by omega
  refine ⟨(days + 719468) / 146097, place, by omega, ?_⟩
  simp only [ofDays, ofMarch, ← hplace, place.yearOfEra_eq, hday]

theorem toDays_ofDays (days : Int) : (ofDays days).toDays = days := by
  obtain ⟨era, place, hdays, hdate⟩ := ofDays_eq days
  have hyear := place.yearOfEra_lt
  have hbefore := place.daysBefore_yearOfEra
  rw [hdate, toDays_ofMarch _ place.day_le]
  have hera : (era * 400 + (place.yearOfEra : Int)) / 400 = era := by omega
  have hyearOfEra : (era * 400 + (place.yearOfEra : Int)) % 400 = place.yearOfEra := by omega
  rw [hera, hyearOfEra]
  omega

theorem isValid_ofDays (days : Int) : (ofDays days).isValid = true := by
  obtain ⟨era, place, -, hdate⟩ := ofDays_eq days
  rw [hdate]
  refine isValid_ofMarch place.day_le fun hlast => ?_
  obtain ⟨hyear, hcentury⟩ := place.leap hlast
  have holympiad := place.olympiad_lt
  have hera := place.century_lt
  simp only [isLeapYear, EraDay.yearOfEra, hyear, Bool.and_eq_true, Bool.or_eq_true, beq_iff_eq,
    bne_iff_ne]
  omega

private theorem daysInMonth_le (year : Int) (month : Nat) : daysInMonth year month ≤ 31 := by
  unfold daysInMonth
  repeat' split
  all_goals decide

theorem lt_of_isValid {date : Date} (h : date.isValid = true) : date.month < 100 ∧ date.day < 100 := by
  have hlast := daysInMonth_le date.year date.month
  simp only [isValid, Bool.and_eq_true, decide_eq_true_eq] at h
  omega

end Date

end SignalDesk
