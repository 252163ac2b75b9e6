import Lopay.Invites.Policy
import Mathlib.Data.Int.ConditionallyCompleteOrder

/-!
# Months and days

The calendar arithmetic behind due dates: each day lies in one month, the days of a month
are counted from 1, and a later day lies in no earlier month. An instalment of a monthly
plan falls due on the day of the month its term began, or on the last if there is no such
day.
-/

namespace Lopay

namespace Schedule

open Invites

/-- Where a day of a cycle of 400 years lies in its year. -/
theorem year_of_era {d y : Int} (h0 : 0 ≤ d) (h1 : d < 146097)
    (hy : y = (d - d / 1460 + d / 36524 - d / 146096) / 365) :
    0 ≤ y ∧ y ≤ 399 ∧ 365 * y + y / 4 - y / 100 ≤ d ∧
      d < 365 * (y + 1) + (y + 1) / 4 - (y + 1) / 100 + (y + 1) / 400 := by
  have hlast : d = 146096 ∨ d < 146096 := by omega
  rcases hlast with rfl | hlast
  · omega
  have hnone : d / 146096 = 0 := by omega
  rw [hnone] at hy
  have hcentury : d / 36524 = 0 ∨ d / 36524 = 1 ∨ d / 36524 = 2 ∨ d / 36524 = 3 := by omega
  have hyear : y / 100 = d / 36524 := by omega
  have hleap : y / 4 ≤ d / 1460 := by
    rcases hcentury with h | h | h | h <;> rw [h] at hy <;> omega
  have hleap' : d / 1460 ≤ (y + 1) / 4 := by
    rcases hcentury with h | h | h | h <;> rw [h] at hy <;> omega
  refine ⟨by omega, by omega, by omega, ?_⟩
  by_cases hround : (y + 1) / 100 = d / 36524
  · omega
  · omega

/-- The days before a year that begins in March. -/
def yearStart (year : Int) : Int :=
  year / 400 * 146097 + year % 400 * 365 + year % 400 / 4 - year % 400 / 100 - 719468

theorem yearStart_eq {era y : Int} (h0 : 0 ≤ y) (h399 : y ≤ 399) :
    yearStart (y + era * 400) = era * 146097 + y * 365 + y / 4 - y / 100 - 719468 := by
  have h1 : (y + era * 400) / 400 = era := by omega
  have h2 : (y + era * 400) % 400 = y := by omega
  rw [yearStart, h1, h2]

theorem yearStart_succ {era y : Int} (h0 : 0 ≤ y) (h399 : y ≤ 399) :
    yearStart (y + era * 400 + 1) =
      era * 146097 + (y + 1) * 365 + (y + 1) / 4 - (y + 1) / 100 + (y + 1) / 400 - 719468 := by
  by_cases hlast : y = 399
  · have h : y + era * 400 + 1 = 0 + (era + 1) * 400 := by omega
    rw [h, yearStart_eq (by decide) (by decide)]
    omega
  · have h : y + era * 400 + 1 = y + 1 + era * 400 := by omega
    rw [h, yearStart_eq (by omega) (by omega)]
    omega

/-- The days of such a year before a month of it. -/
def monthStart (month : Int) : Int := (153 * month + 2) / 5

/-- The first day of the month with this index, counted from January of the year 0. -/
def firstDay (month : Int) : Int := daysFromCivil (month / 12) (month % 12 + 1) 1

/-- The index of the month that a day lies in. -/
def monthOf (days : Int) : Int :=
  (civilFromDays days).1 * 12 + (civilFromDays days).2.1 - 1

/-- The day of its month. -/
def dayOf (days : Int) : Int := (civilFromDays days).2.2

theorem firstDay_eq {year month : Int} (h0 : 0 ≤ month) (h11 : month ≤ 11) :
    firstDay (12 * year + month + 2) = yearStart year + monthStart month := by
  unfold firstDay daysFromCivil yearStart monthStart
  by_cases hm : month < 10
  · have h1 : (12 * year + month + 2) / 12 = year := by omega
    have h2 : (12 * year + month + 2) % 12 = month + 2 := by omega
    rw [h1, h2]
    have h3 : ¬ month + 2 + 1 ≤ 2 := by omega
    have h4 : (month + 2 + 1 + 9) % 12 = month := by omega
    simp only [if_neg h3, h4]
    omega
  · have h1 : (12 * year + month + 2) / 12 = year + 1 := by omega
    have h2 : (12 * year + month + 2) % 12 = month - 10 := by omega
    rw [h1, h2]
    have h3 : month - 10 + 1 ≤ 2 := by omega
    have h4 : (month - 10 + 1 + 9) % 12 = month := by omega
    simp only [if_pos h3, h4]
    have h5 : year + 1 - 1 = year := by omega
    rw [h5]
    omega

/-- A day lies in a month of a year that begins in March. -/
theorem civil (days : Int) : ∃ year month, 0 ≤ month ∧ month ≤ 11 ∧
    monthOf days = 12 * year + month + 2 ∧
    days = yearStart year + monthStart month + dayOf days - 1 ∧ 1 ≤ dayOf days ∧
    dayOf days ≤ monthStart (month + 1) - monthStart month ∧ days < yearStart (year + 1) := by
  have hera := year_of_era (Int.emod_nonneg (days + 719468) (by decide))
    (Int.emod_lt_of_pos (days + 719468) (by decide)) rfl
  unfold monthOf dayOf civilFromDays
  simp only
  generalize hd : (days + 719468) % 146097 = d at *
  generalize hy : (d - d / 1460 + d / 36524 - d / 146096) / 365 = y at *
  generalize hdoy : d - (365 * y + y / 4 - y / 100) = doy at *
  have : 0 ≤ doy := by omega
  have : doy ≤ 365 := by omega
  generalize hmp : (5 * doy + 2) / 153 = mp at *
  refine ⟨y + (days + 719468) / 146097 * 400, mp, by omega, by omega, ?_, ?_, ?_, ?_, ?_⟩
  · split_ifs <;> omega
  · rw [yearStart_eq (by omega) (by omega)]
    unfold monthStart
    omega
  · omega
  · unfold monthStart
    omega
  · rw [yearStart_succ (by omega) (by omega)]
    omega

/-- A day is so many days after the first of its month. -/
theorem firstDay_monthOf (days : Int) : firstDay (monthOf days) + dayOf days - 1 = days := by
  obtain ⟨year, month, h0, h11, hmonth, hdays, -, -, -⟩ := civil days
  rw [hmonth, firstDay_eq h0 h11]
  omega

theorem yearStart_lt (year : Int) : yearStart year + 365 ≤ yearStart (year + 1) := by
  have h : year = year % 400 + year / 400 * 400 := by omega
  rw [h, yearStart_succ (by omega) (by omega), yearStart_eq (by omega) (by omega)]
  omega

/-- It lies before the next month. -/
theorem lt_firstDay_succ (days : Int) : days < firstDay (monthOf days + 1) := by
  obtain ⟨year, month, h0, h11, hmonth, hdays, -, hlen, hyear⟩ := civil days
  by_cases hlast : month = 11
  · have h : monthOf days + 1 = 12 * (year + 1) + 0 + 2 := by omega
    rw [h, firstDay_eq (by decide) (by decide)]
    unfold monthStart
    omega
  · have h : monthOf days + 1 = 12 * year + (month + 1) + 2 := by omega
    rw [h, firstDay_eq (by omega) (by omega)]
    omega

/-- A month has at least 28 days. -/
theorem firstDay_succ (month : Int) : firstDay month + 28 ≤ firstDay (month + 1) := by
  have hm : month = 12 * ((month - 2) / 12) + (month - 2) % 12 + 2 := by omega
  generalize (month - 2) / 12 = year at hm
  generalize hr : (month - 2) % 12 = r at hm
  subst hm
  rw [firstDay_eq (by omega) (by omega)]
  by_cases hlast : r = 11
  · have h : 12 * year + r + 2 + 1 = 12 * (year + 1) + 0 + 2 := by omega
    have := yearStart_lt year
    rw [h, firstDay_eq (by decide) (by decide)]
    unfold monthStart
    omega
  · have h : 12 * year + r + 2 + 1 = 12 * year + (r + 1) + 2 := by omega
    rw [h, firstDay_eq (by omega) (by omega)]
    unfold monthStart
    omega

theorem firstDay_strictMono : StrictMono firstDay :=
  strictMono_int_of_lt_succ fun month => by
    have := firstDay_succ month
    show firstDay month < firstDay (month + 1)
    omega

theorem one_le_dayOf (days : Int) : 1 ≤ dayOf days := by
  obtain ⟨-, -, -, -, -, -, hday, -, -⟩ := civil days
  exact hday

theorem firstDay_le (days : Int) : firstDay (monthOf days) ≤ days := by
  have := firstDay_monthOf days
  have := one_le_dayOf days
  omega

/-- A day lies in the month whose first day is not after it and whose end is. -/
theorem monthOf_eq {days month : Int} (hfrom : firstDay month ≤ days)
    (hto : days < firstDay (month + 1)) : monthOf days = month := by
  have hle := firstDay_le days
  have hlt := lt_firstDay_succ days
  have h1 : month < monthOf days + 1 := firstDay_strictMono.lt_iff_lt.mp (by omega)
  have h2 : monthOf days < month + 1 := firstDay_strictMono.lt_iff_lt.mp (by omega)
  omega

/-- A day is on or after another if its month is later, or the same and its day is not
    earlier. -/
theorem le_iff_month (days days' : Int) : days ≤ days' ↔
    monthOf days < monthOf days' ∨ monthOf days = monthOf days' ∧ dayOf days ≤ dayOf days' := by
  have h := firstDay_monthOf days
  have h' := firstDay_monthOf days'
  rcases lt_trichotomy (monthOf days) (monthOf days') with hlt | heq | hgt
  · have hmono := firstDay_strictMono.monotone (by omega : monthOf days + 1 ≤ monthOf days')
    have hend := lt_firstDay_succ days
    have hstart := firstDay_le days'
    constructor
    · exact fun _ => .inl hlt
    · omega
  · rw [heq] at h
    omega
  · have hmono := firstDay_strictMono.monotone (by omega : monthOf days' + 1 ≤ monthOf days)
    have hend := lt_firstDay_succ days'
    have hstart := firstDay_le days
    omega

/-! ### Due dates -/

/-- The number of days in a month. -/
def monthLength (month : Int) : Int := firstDay (month + 1) - firstDay month

/-- The day on which the `n`-th instalment of a monthly plan falls due. -/
def dueDay (start n : Int) : Int :=
  firstDay (monthOf start + n) + min (dayOf start) (monthLength (monthOf start + n)) - 1

theorem installmentDueDate_monthly (termStartDate n : Int) :
    installmentDueDate termStartDate .MONTHLY n =
      dueDay (termStartDate / DAY_MS) n * DAY_MS + termStartDate % DAY_MS := by
  unfold installmentDueDate dueDay monthLength firstDay monthOf dayOf
  generalize civilFromDays (termStartDate / DAY_MS) = date
  obtain ⟨year, month, day⟩ := date
  have hyear : (year * 12 + month - 1 + n) / 12 = year + (month - 1 + n) / 12 := by omega
  have hmonth : (year * 12 + month - 1 + n) % 12 = (month - 1 + n) % 12 := by omega
  have hyear' : (year * 12 + month - 1 + n + 1) / 12 = year + (month - 1 + n + 1) / 12 := by omega
  have hmonth' : (year * 12 + month - 1 + n + 1) % 12 = (month - 1 + n + 1) % 12 := by omega
  simp only [hyear, hmonth, hyear', hmonth']

section DueDay

variable {start n : Int}

theorem dueDay_within (start n : Int) : firstDay (monthOf start + n) ≤ dueDay start n ∧
    dueDay start n < firstDay (monthOf start + n + 1) := by
  have hlen := firstDay_succ (monthOf start + n)
  have hday := one_le_dayOf start
  unfold dueDay monthLength
  omega

theorem monthOf_dueDay (start n : Int) : monthOf (dueDay start n) = monthOf start + n :=
  monthOf_eq (dueDay_within start n).1 (dueDay_within start n).2

/-- Due days come in order. -/
theorem dueDay_strictMono (start : Int) : StrictMono (dueDay start) :=
  strictMono_int_of_lt_succ fun n => by
    have h := (dueDay_within start n).2
    have h' := (dueDay_within start (n + 1)).1
    rw [← add_assoc] at h'
    show dueDay start n < dueDay start (n + 1)
    omega

/-- The plan itself begins on the day its term does. -/
theorem dueDay_zero (start : Int) : dueDay start 0 = start := by
  have h := firstDay_monthOf start
  have hend := lt_firstDay_succ start
  unfold dueDay monthLength
  rw [add_zero]
  omega

end DueDay

theorem installmentDueDate_zero (termStartDate : Int) (frequency : InstallmentFrequency) :
    installmentDueDate termStartDate frequency 0 = termStartDate := by
  cases frequency with
  | WEEKLY => simp [installmentDueDate]
  | MONTHLY =>
    rw [installmentDueDate_monthly, dueDay_zero]
    exact Int.ediv_mul_add_emod termStartDate DAY_MS

/-- Due dates come in order. -/
theorem installmentDueDate_strictMono (termStartDate : Int) (frequency : InstallmentFrequency) :
    StrictMono (installmentDueDate termStartDate frequency) := by
  intro n m hlt
  cases frequency with
  | WEEKLY =>
    simp only [installmentDueDate, DAY_MS]
    omega
  | MONTHLY =>
    have h := dueDay_strictMono (termStartDate / DAY_MS) hlt
    rw [installmentDueDate_monthly, installmentDueDate_monthly]
    unfold DAY_MS at *
    omega

end Schedule

end Lopay
