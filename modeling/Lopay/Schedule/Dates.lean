import Lopay.Schedule.Calendar

/-!
# Due dates on a date type that has an end

`installmentDueDate` moves a `Date` field by field. A `Date` is the time of an instant a hundred
million days from the epoch at most, every other is no date at all; its fields are those of UTC.
And a constructor that is given a year below 100 reads it as one of the twentieth century. Between
these two the function has the closed form the schedule is built on.
-/

namespace Lopay

namespace Schedule

namespace Dates

open Invites

/-! ### `Date` -/

def MAX_DAYS : Int := 100000000

/-- An instant, unless it is out of the range of `Date`. -/
def timeClip (time : Int) : Option Int :=
  if -(MAX_DAYS * DAY_MS) ≤ time ∧ time ≤ MAX_DAYS * DAY_MS then some time else none

def getFullYear (date : Int) : Int := monthOf (date / DAY_MS) / 12

def getMonth (date : Int) : Int := monthOf (date / DAY_MS) % 12

def getDate (date : Int) : Int := dayOf (date / DAY_MS)

/-- The instant with these fields, where a month or a day may be outside its year or month. -/
def makeDate (year month day time : Int) : Option Int :=
  timeClip ((firstDay (year * 12 + month) + day - 1) * DAY_MS + time)

def setDate (date day : Int) : Option Int :=
  makeDate (getFullYear date) (getMonth date) day (date % DAY_MS)

def setMonth (date month : Int) : Option Int :=
  makeDate (getFullYear date) month (getDate date) (date % DAY_MS)

/-- The year that a constructor understands. -/
def readYear (year : Int) : Int := if 0 ≤ year ∧ year ≤ 99 then 1900 + year else year

/-- `new Date(year, month, day)` -/
def newDate (year month day : Int) : Option Int := makeDate (readYear year) month day 0

/-- The due date of the `n`-th instalment, if it is a date. -/
def installmentDueDate (termStartDate : Int) (frequency : InstallmentFrequency) (n : Int) :
    Option Int :=
  match frequency with
  | .WEEKLY => setDate termStartDate (getDate termStartDate + 7 * n)
  | .MONTHLY => do
      let targetDay := getDate termStartDate
      let due ← setDate termStartDate 1
      let due ← setMonth due (getMonth due + n)
      let last ← newDate (getFullYear due) (getMonth due + 1) 0
      setDate due (min targetDay (getDate last))

/-! ### Months -/

theorem monthOf_firstDay (month : Int) : monthOf (firstDay month) = month := by
  have := firstDay_succ month
  exact monthOf_eq (le_refl _) (by omega)

theorem dayOf_firstDay (month : Int) : dayOf (firstDay month) = 1 := by
  have h := firstDay_monthOf (firstDay month)
  rw [monthOf_firstDay] at h
  omega

/-- The day before the first of the next month is the last of this one. -/
theorem dayOf_last (month : Int) : dayOf (firstDay (month + 1) - 1) = monthLength month := by
  have hlen := firstDay_succ month
  have hmonth : monthOf (firstDay (month + 1) - 1) = month := monthOf_eq (by omega) (by omega)
  have h := firstDay_monthOf (firstDay (month + 1) - 1)
  rw [hmonth] at h
  unfold monthLength
  omega

/-- Counted from March, only the last month of a year depends on the year. -/
theorem monthLength_eq (year month : Int) (h0 : 0 ≤ month) (h10 : month ≤ 10) :
    monthLength (12 * year + month + 2) = monthStart (month + 1) - monthStart month := by
  have hnext : 12 * year + month + 2 + 1 = 12 * year + (month + 1) + 2 := by ring
  rw [monthLength, hnext, firstDay_eq (by omega) (by omega), firstDay_eq h0 (by omega)]
  ring

theorem monthLength_february (year : Int) :
    monthLength (12 * year + 1) = yearStart year - yearStart (year - 1) - monthStart 11 := by
  have hfebruary : 12 * year + 1 = 12 * (year - 1) + 11 + 2 := by ring
  have hmarch : 12 * year + 1 + 1 = 12 * year + 0 + 2 := by ring
  rw [monthLength, hmarch, firstDay_eq (by decide) (by decide), hfebruary,
    firstDay_eq (by decide) (by decide)]
  unfold monthStart
  ring

/-- A year of the first century has the months of the same year of the twentieth, but for the
    February of the year 0. -/
theorem monthLength_century {year month : Int} (hyear : 0 ≤ year ∧ year ≤ 99)
    (hmonth : 0 ≤ month ∧ month ≤ 11) (hfebruary : year * 12 + month ≠ 1) :
    monthLength ((1900 + year) * 12 + month) = monthLength (year * 12 + month) := by
  rcases lt_trichotomy month 1 with hjanuary | rfl | hlater
  · have h := monthLength_eq (1900 + year - 1) 10 (by decide) (by decide)
    have h' := monthLength_eq (year - 1) 10 (by decide) (by decide)
    rw [show (1900 + year) * 12 + month = 12 * (1900 + year - 1) + 10 + 2 by omega,
      show year * 12 + month = 12 * (year - 1) + 10 + 2 by omega, h, h']
  · rw [mul_comm, mul_comm year, monthLength_february, monthLength_february]
    unfold yearStart
    omega
  · rw [show (1900 + year) * 12 + month = 12 * (1900 + year) + (month - 2) + 2 by ring,
      show year * 12 + month = 12 * year + (month - 2) + 2 by ring,
      monthLength_eq _ _ (by omega) (by omega), monthLength_eq _ _ (by omega) (by omega)]

/-! ### One step after the other -/

/-- An instant by its day and the time of the day. -/
def clock (day time : Int) : Int := day * DAY_MS + time

theorem clock_day {time : Int} (htime : 0 ≤ time ∧ time < DAY_MS) (day : Int) :
    clock day time / DAY_MS = day := by
  unfold clock DAY_MS at *
  omega

theorem clock_time {time : Int} (htime : 0 ≤ time ∧ time < DAY_MS) (day : Int) :
    clock day time % DAY_MS = time := by
  unfold clock DAY_MS at *
  omega

theorem timeClip_clock {day time : Int} (htime : 0 ≤ time ∧ time < DAY_MS)
    (hfirst : -MAX_DAYS ≤ day) (hlast : day < MAX_DAYS) :
    timeClip (clock day time) = some (clock day time) := by
  unfold clock
  apply if_pos
  unfold MAX_DAYS DAY_MS at *
  omega

theorem timeClip_midnight {day : Int} (hfirst : -MAX_DAYS ≤ day) (hlast : day ≤ MAX_DAYS) :
    timeClip (clock day 0) = some (clock day 0) := by
  unfold clock
  apply if_pos
  unfold MAX_DAYS DAY_MS at *
  omega

theorem setDate_clock {day time : Int} (htime : 0 ≤ time ∧ time < DAY_MS) (target : Int) :
    setDate (clock day time) target
      = timeClip (clock (firstDay (monthOf day) + target - 1) time) := by
  have hmonth : monthOf day / 12 * 12 + monthOf day % 12 = monthOf day := by omega
  unfold setDate makeDate getFullYear getMonth
  rw [clock_day htime, clock_time htime, hmonth]
  rfl

theorem setMonth_first {month time : Int} (htime : 0 ≤ time ∧ time < DAY_MS) (n : Int) :
    setMonth (clock (firstDay month) time) (getMonth (clock (firstDay month) time) + n)
      = timeClip (clock (firstDay (month + n)) time) := by
  have hmonth : month / 12 * 12 + (month % 12 + n) = month + n := by omega
  unfold setMonth makeDate getFullYear getMonth getDate
  rw [clock_day htime, clock_time htime, monthOf_firstDay, dayOf_firstDay, hmonth]
  unfold clock
  ring_nf

/-- The month whose length the function reads, when it means this one. -/
def readMonth (month : Int) : Int := readYear (month / 12) * 12 + month % 12

theorem newDate_last {month time : Int} (htime : 0 ≤ time ∧ time < DAY_MS) :
    newDate (getFullYear (clock (firstDay month) time))
        (getMonth (clock (firstDay month) time) + 1) 0
      = timeClip (clock (firstDay (readMonth month + 1) - 1) 0) := by
  unfold newDate makeDate getFullYear getMonth
  rw [clock_day htime, monthOf_firstDay]
  unfold clock readMonth
  ring_nf

theorem monthLength_readMonth {month : Int} (hfebruary : month ≠ 1) :
    monthLength (readMonth month) = monthLength month := by
  have hmonth : month / 12 * 12 + month % 12 = month := by omega
  unfold readMonth readYear
  split
  · rename_i hyear
    rw [monthLength_century hyear (by omega) (by omega), hmonth]
  · rw [hmonth]

theorem monthLength_readMonth_le (month : Int) :
    monthLength (readMonth month) ≤ monthLength month := by
  by_cases hfebruary : month = 1
  · subst hfebruary
    decide
  · exact (monthLength_readMonth hfebruary).le

/-- The last day of that month is a date whenever the one meant is. -/
theorem readMonth_last {month : Int} (hfirst : -MAX_DAYS ≤ firstDay month)
    (hlast : firstDay (month + 1) ≤ MAX_DAYS + 1) :
    -MAX_DAYS ≤ firstDay (readMonth month + 1) - 1
      ∧ firstDay (readMonth month + 1) - 1 ≤ MAX_DAYS := by
  unfold readMonth readYear
  split
  · have hlow := firstDay_strictMono.monotone
      (by omega : (22801 : Int) ≤ (1900 + month / 12) * 12 + month % 12 + 1)
    have hhigh := firstDay_strictMono.monotone
      (by omega : (1900 + month / 12) * 12 + month % 12 + 1 ≤ (24000 : Int))
    rw [show firstDay 22801 = -25536 from by decide] at hlow
    rw [show firstDay 24000 = 10957 from by decide] at hhigh
    unfold MAX_DAYS
    omega
  · have hmonth : month / 12 * 12 + month % 12 = month := by omega
    have hlen := firstDay_succ month
    rw [hmonth]
    omega

/-- No month ends with the last day of the range. -/
theorem firstDay_ne_end (month : Int) : firstDay month ≠ MAX_DAYS + 1 := by
  intro h
  have hday := dayOf_firstDay month
  rw [h] at hday
  revert hday
  decide

/-- The due date, while the month of the start and that of the due date lie in the range. -/
theorem installmentDueDate_clock {day time n : Int} (htime : 0 ≤ time ∧ time < DAY_MS) (hn : 0 ≤ n)
    (hfirst : -MAX_DAYS ≤ firstDay (monthOf day))
    (hlast : firstDay (monthOf day + n + 1) ≤ MAX_DAYS + 1) :
    installmentDueDate (clock day time) .MONTHLY n
      = some (clock (firstDay (monthOf day + n)
          + min (dayOf day) (monthLength (readMonth (monthOf day + n))) - 1) time) := by
  generalize hmonth : monthOf day + n = month at *
  have hend : firstDay (month + 1) ≤ MAX_DAYS := by
    have := firstDay_ne_end (month + 1)
    omega
  have hstart : firstDay (monthOf day) ≤ firstDay month :=
    firstDay_strictMono.monotone (by omega)
  have hlen := firstDay_succ month
  have hread := firstDay_succ (readMonth month)
  have hle := monthLength_readMonth_le month
  have hday := one_le_dayOf day
  obtain ⟨hreadFirst, hreadLast⟩ := readMonth_last (by omega : -MAX_DAYS ≤ firstDay month) hlast
  have hone : setDate (clock day time) 1 = some (clock (firstDay (monthOf day)) time) := by
    rw [setDate_clock htime, add_sub_cancel_right, timeClip_clock htime hfirst (by omega)]
  have htwo : setMonth (clock (firstDay (monthOf day)) time)
      (getMonth (clock (firstDay (monthOf day)) time) + n) = some (clock (firstDay month) time) := by
    rw [setMonth_first htime, hmonth, timeClip_clock htime (by omega) (by omega)]
  have hthree : newDate (getFullYear (clock (firstDay month) time))
      (getMonth (clock (firstDay month) time) + 1) 0
        = some (clock (firstDay (readMonth month + 1) - 1) 0) := by
    rw [newDate_last htime, timeClip_midnight hreadFirst hreadLast]
  have htarget : getDate (clock (firstDay (readMonth month + 1) - 1) 0)
      = monthLength (readMonth month) := by
    rw [getDate, clock_day (by decide), dayOf_last]
  have hstartDay : getDate (clock day time) = dayOf day := by
    rw [getDate, clock_day htime]
  simp only [installmentDueDate, hone, htwo, hthree, Option.bind_eq_bind, Option.bind_some, htarget,
    hstartDay]
  rw [setDate_clock htime, monthOf_firstDay]
  unfold monthLength at *
  exact timeClip_clock htime (by omega) (by omega)

theorem time_range (start : Int) : 0 ≤ start % DAY_MS ∧ start % DAY_MS < DAY_MS := by
  unfold DAY_MS
  omega

theorem clock_eq (start : Int) : clock (start / DAY_MS) (start % DAY_MS) = start :=
  Int.ediv_mul_add_emod start DAY_MS

/-! ### Due dates -/

theorem installmentDueDate_weekly (start n : Int) :
    installmentDueDate start .WEEKLY n = timeClip (Invites.installmentDueDate start .WEEKLY n) := by
  have hday := firstDay_monthOf (start / DAY_MS)
  have hstart := clock_eq start
  have htarget : setDate (clock (start / DAY_MS) (start % DAY_MS)) (getDate start + 7 * n)
      = timeClip (clock (firstDay (monthOf (start / DAY_MS)) + (getDate start + 7 * n) - 1)
          (start % DAY_MS)) := setDate_clock (time_range start) _
  rw [hstart] at htarget
  unfold installmentDueDate Invites.installmentDueDate
  simp only
  rw [htarget]
  unfold getDate clock at *
  congr 1
  rw [show firstDay (monthOf (start / DAY_MS)) + (dayOf (start / DAY_MS) + 7 * n) - 1
    = start / DAY_MS + 7 * n by omega]
  linarith

section Monthly

variable {start n : Int}

/-- The closed form of the schedule is what the date type computes. -/
theorem installmentDueDate_agrees (hn : 0 ≤ n)
    (hfirst : -MAX_DAYS ≤ firstDay (monthOf (start / DAY_MS)))
    (hlast : firstDay (monthOf (start / DAY_MS) + n + 1) ≤ MAX_DAYS + 1)
    (hfebruary : monthOf (start / DAY_MS) + n ≠ 1) :
    installmentDueDate start .MONTHLY n = some (Invites.installmentDueDate start .MONTHLY n) := by
  have h := installmentDueDate_clock (time_range start) hn hfirst hlast
  rw [clock_eq, monthLength_readMonth hfebruary] at h
  rw [h, installmentDueDate_monthly]
  rfl

/-- A due date lies in its month, even where the length of that month is misread. -/
theorem installmentDueDate_within (hn : 0 ≤ n)
    (hfirst : -MAX_DAYS ≤ firstDay (monthOf (start / DAY_MS)))
    (hlast : firstDay (monthOf (start / DAY_MS) + n + 1) ≤ MAX_DAYS + 1) :
    ∃ due, installmentDueDate start .MONTHLY n = some due
      ∧ firstDay (monthOf (start / DAY_MS) + n) * DAY_MS ≤ due
      ∧ due < firstDay (monthOf (start / DAY_MS) + n + 1) * DAY_MS := by
  have h := installmentDueDate_clock (time_range start) hn hfirst hlast
  rw [clock_eq] at h
  refine ⟨_, h, ?_⟩
  have hday := one_le_dayOf (start / DAY_MS)
  have hread := firstDay_succ (readMonth (monthOf (start / DAY_MS) + n))
  have hle := monthLength_readMonth_le (monthOf (start / DAY_MS) + n)
  have htime := time_range start
  unfold clock monthLength DAY_MS at *
  constructor <;> omega

/-- A monthly due date lies `n` months after the month of the start, on the start's day or the last
    one of the month, at the start's time of the day, and after every earlier one, while these
    months lie in the range of dates and the month is not the February of the year 0. -/
theorem installmentDueDate_never_drifts (hn : 1 ≤ n)
    (hfirst : -MAX_DAYS ≤ firstDay (monthOf (start / DAY_MS)))
    (hlast : firstDay (monthOf (start / DAY_MS) + n + 1) ≤ MAX_DAYS + 1)
    (hfebruary : monthOf (start / DAY_MS) + n ≠ 1) :
    ∃ due, installmentDueDate start .MONTHLY n = some due
      ∧ monthOf (due / DAY_MS) = monthOf (start / DAY_MS) + n
      ∧ getDate due = min (getDate start) (monthLength (monthOf (start / DAY_MS) + n))
      ∧ due % DAY_MS = start % DAY_MS
      ∧ ∀ m, 1 ≤ m → m < n →
        ∃ earlier, installmentDueDate start .MONTHLY m = some earlier ∧ earlier < due := by
  have h := installmentDueDate_agrees (by omega) hfirst hlast hfebruary
  rw [installmentDueDate_monthly] at h
  have hday := clock_day (time_range start) (dueDay (start / DAY_MS) n)
  have hmonth := monthOf_dueDay (start / DAY_MS) n
  refine ⟨clock (dueDay (start / DAY_MS) n) (start % DAY_MS), h, ?_, ?_, ?_, ?_⟩
  · rw [hday, hmonth]
  · have hfields := firstDay_monthOf (dueDay (start / DAY_MS) n)
    rw [hmonth] at hfields
    rw [getDate, hday]
    unfold getDate
    unfold dueDay at hfields ⊢
    omega
  · exact clock_time (time_range start) _
  · intro m hm hlt
    have hbefore := firstDay_strictMono.monotone
      (by omega : monthOf (start / DAY_MS) + m + 1 ≤ monthOf (start / DAY_MS) + n)
    have hend := firstDay_succ (monthOf (start / DAY_MS) + n)
    obtain ⟨earlier, hearlier, -, hupper⟩ := installmentDueDate_within (n := m) (by omega) hfirst
      (by omega)
    refine ⟨earlier, hearlier, ?_⟩
    have hwithin := (dueDay_within (start / DAY_MS) n).1
    have htime := (time_range start).1
    unfold clock DAY_MS at *
    omega

end Monthly

/-- 31 January 2026, eight in the morning. -/
def lateStart : Int := clock (daysFromCivil 2026 1 31) 28800000

theorem installmentDueDate_lateStart :
    ∃ due, installmentDueDate lateStart .MONTHLY 3 = some due
      ∧ monthOf (due / DAY_MS) = monthOf (lateStart / DAY_MS) + 3
      ∧ getDate due = min (getDate lateStart) (monthLength (monthOf (lateStart / DAY_MS) + 3))
      ∧ due % DAY_MS = lateStart % DAY_MS
      ∧ ∀ m, 1 ≤ m → m < 3 →
        ∃ earlier, installmentDueDate lateStart .MONTHLY m = some earlier ∧ earlier < due :=
  installmentDueDate_never_drifts (by decide) (by decide) (by decide) (by decide)

/-- A start in January of the year 0 falls due on 28 February, although that February has 29 days;
    and four million months after 2026 there is no date. -/
theorem installmentDueDate_needs_reading :
    (∃ start, timeClip start = some start ∧ getDate start = 31 ∧ monthOf (start / DAY_MS) + 1 = 1
        ∧ monthLength 1 = 29
        ∧ installmentDueDate start .MONTHLY 1 = some (clock (daysFromCivil 0 2 28) 0))
      ∧ timeClip lateStart = some lateStart
      ∧ installmentDueDate lateStart .MONTHLY 4000000 = none :=
  ⟨⟨clock (daysFromCivil 0 1 31) 0, by decide, by decide, by decide, by decide, by decide⟩,
    by decide, by decide⟩

end Dates

end Schedule

end Lopay
