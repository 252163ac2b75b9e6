import Lopay.Schedule.View

/-!
# The rosters of a school

The student lists that a school (`getStudents`) and an admin (`getSchoolStudents`) see. Both
count the next due date from the latest confirmed payment, where the parent's view counts it
from the slots paid for, and this file says on which plans the two dates are the same.
-/

namespace Lopay

namespace Schedule

open Invites

/-- An enrollment as the rosters load it, with the name of its parent. -/
structure RosterRow extends EnrollmentRow where
  parentName : Option String

/-- One row of the list of students that a school sees. -/
structure StudentItem where
  id : Id
  enrollmentId : Id
  childId : Id
  studentName : Option String
  childName : Option String
  className : String
  schoolId : Id
  parentName : String
  totalFee : ℚ
  paidAmount : ℚ
  remainingBalance : ℚ
  availableBalance : ℚ
  paymentStatus : PaymentStatus
  installmentFrequency : InstallmentFrequency
  nextDueDate : Option (Int × Int × Int)
  avatarUrl : Option String

/-- One row of the list of students that an admin sees. -/
structure SchoolStudentItem where
  id : Id
  studentName : Option String
  childName : Option String
  className : String
  parentName : String
  totalFee : ℚ
  paidAmount : ℚ
  paymentStatus : PaymentStatus
  nextDueDate : Option (Int × Int × Int)
  avatarUrl : Option String

/-- `setMonth` to the next month: where that month is too short, the days run on into the
    one after it. -/
def nextMonth (t : Int) : Int :=
  (firstDay (monthOf (t / DAY_MS) + 1) + dayOf (t / DAY_MS) - 1) * DAY_MS + t % DAY_MS

example : isoDate (nextMonth (daysFromCivil 2026 1 31 * DAY_MS)) = (2026, 3, 3) := by decide

/-- The date both rosters show: one period after the first confirmed payment of the list,
    which the query has ordered by `paymentDate desc`. -/
def rosterDueDate (enrollment : EnrollmentRow) (payments : List EnrollmentPaymentRow) :
    Option Int :=
  if 0 < enrollment.remainingBalance then
    match payments.filter (·.isConfirmed) with
    | lastPayment :: _ =>
      match enrollment.installmentFrequency with
      | .WEEKLY => some (lastPayment.paymentDate + 7 * DAY_MS)
      | .MONTHLY => some (nextMonth lastPayment.paymentDate)
    | [] => enrollment.termStartDate
  else none

/-- `fullName || 'Unknown'`. -/
def nameOrUnknown : Option String → String
  | some name => if name = "" then "Unknown" else name
  | none => "Unknown"

/-- An item of `getStudents`. -/
def getStudents (enrollment : RosterRow) (payments : List EnrollmentPaymentRow) : StudentItem :=
  let reservedKobo := amounts (payments.filter fun p =>
    p.paymentType = .INSTALLMENT ∧ p.status = .PENDING ∧ p.isConfirmed = false)
  { id := enrollment.id
    enrollmentId := enrollment.id
    childId := enrollment.childId
    studentName := enrollment.childName
    childName := enrollment.childName
    className := enrollment.className
    schoolId := enrollment.schoolId
    parentName := nameOrUnknown enrollment.parentName
    totalFee := Money.toNaira enrollment.totalSchoolFee
    paidAmount := Money.toNaira (amounts (payments.filter (·.isConfirmed)))
    remainingBalance := Money.toNaira enrollment.remainingBalance
    availableBalance := Money.toNaira (max 0 (enrollment.remainingBalance - reservedKobo))
    paymentStatus := enrollment.paymentStatus
    installmentFrequency := enrollment.installmentFrequency
    nextDueDate := (rosterDueDate enrollment.toEnrollmentRow payments).map isoDate
    avatarUrl := none }

/-- An item of `getSchoolStudents`. -/
def getSchoolStudents (enrollment : RosterRow) (payments : List EnrollmentPaymentRow) :
    SchoolStudentItem where
  id := enrollment.childId
  studentName := enrollment.childName
  childName := enrollment.childName
  className := enrollment.className
  parentName := nameOrUnknown enrollment.parentName
  totalFee := Money.toNaira enrollment.totalSchoolFee
  paidAmount := Money.toNaira (amounts (payments.filter (·.isConfirmed)))
  paymentStatus := enrollment.paymentStatus
  nextDueDate := (rosterDueDate enrollment.toEnrollmentRow payments).map isoDate
  avatarUrl := none

/-! ### Dates -/

/-- A date names one day. -/
theorem isoDate_inj {t t' : Int} : isoDate t = isoDate t' ↔ t / DAY_MS = t' / DAY_MS := by
  constructor
  · intro h
    have hdate : civilFromDays (t / DAY_MS) = civilFromDays (t' / DAY_MS) := h
    rw [← firstDay_monthOf (t / DAY_MS), ← firstDay_monthOf (t' / DAY_MS), monthOf, monthOf, dayOf,
      dayOf, hdate]
  · intro h
    rw [isoDate, isoDate, h]

theorem dayOf_le (days : Int) : dayOf days ≤ 31 := by
  obtain ⟨year, month, h0, h11, -, -, -, hlen, -⟩ := civil days
  unfold monthStart at hlen
  omega

theorem monthLength_ge (month : Int) : 28 ≤ monthLength month := by
  have := firstDay_succ month
  unfold monthLength
  omega

/-- Days of two months are the same only if they are the same day of the same month. -/
theorem day_eq_iff {month month' a b : Int} (ha : 1 ≤ a) (ha' : a ≤ monthLength month)
    (hb : 1 ≤ b) (hb' : b ≤ monthLength month') :
    firstDay month + a = firstDay month' + b ↔ month = month' ∧ a = b := by
  unfold monthLength at ha' hb'
  constructor
  · intro h
    have h1 : monthOf (firstDay month + a - 1) = month := monthOf_eq (by omega) (by omega)
    have h2 : monthOf (firstDay month + a - 1) = month' := monthOf_eq (by omega) (by omega)
    have hmonth : month = month' := h1.symm.trans h2
    subst hmonth
    exact ⟨rfl, by omega⟩
  · rintro ⟨rfl, rfl⟩
    rfl

theorem nextMonth_day (t : Int) : nextMonth t / DAY_MS =
    firstDay (monthOf (t / DAY_MS) + 1) + dayOf (t / DAY_MS) - 1 := by
  unfold nextMonth DAY_MS
  omega

/-- The month after a day is the month `n` of a plan on the day that is due, if either the
    month has that day, or it is too short for it and the days run on to the due one. -/
theorem nextMonth_due (day start n : Int) :
    firstDay (monthOf day + 1) + dayOf day - 1 = dueDay start n ↔
      dayOf day ≤ monthLength (monthOf day + 1) ∧ monthOf day + 1 = monthOf start + n ∧
        dayOf day = min (dayOf start) (monthLength (monthOf start + n)) ∨
      monthLength (monthOf day + 1) < dayOf day ∧ monthOf day + 2 = monthOf start + n ∧
        dayOf day - monthLength (monthOf day + 1) = dayOf start := by
  have hday := one_le_dayOf day
  have hday' := dayOf_le day
  have hstart := one_le_dayOf start
  have hlen := monthLength_ge (monthOf day + 1)
  have hlen' := monthLength_ge (monthOf start + n)
  have hlen'' := monthLength_ge (monthOf day + 2)
  have hdue : 1 ≤ min (dayOf start) (monthLength (monthOf start + n)) := by omega
  unfold dueDay
  by_cases hshort : dayOf day ≤ monthLength (monthOf day + 1)
  · have h := day_eq_iff hday hshort hdue (min_le_right _ _)
    omega
  · have hnext : firstDay (monthOf day + 1) + dayOf day =
        firstDay (monthOf day + 2) + (dayOf day - monthLength (monthOf day + 1)) := by
      have h : monthOf day + 1 + 1 = monthOf day + 2 := by omega
      unfold monthLength
      rw [h]
      omega
    have h := @day_eq_iff (monthOf day + 2) (monthOf start + n)
      (dayOf day - monthLength (monthOf day + 1)) _ (by omega) (by omega) hdue (min_le_right _ _)
    omega

/-! ### Slots -/

/-- The level slots that `paid` covers of a plan that still owes `remaining`; the last slot
    stays open. -/
def slotsPaid (frequency : InstallmentFrequency) (remaining paid : Int) : Int :=
  min (installmentCountFor frequency - 1)
    (paid / ((remaining + paid) / installmentCountFor frequency))

theorem paidInstallments_eq {frequency : InstallmentFrequency} {remaining paid : Int}
    (hr : 0 < remaining) (hp : 0 ≤ paid) :
    (derivePlanProgress ⟨remaining, paid, frequency⟩).paidInstallments =
      slotsPaid frequency remaining paid := by
  have h := derivePlanProgress_standing frequency hr hp
  have hcount := installmentCountFor_pos frequency
  unfold slotsPaid
  by_cases hslot : (remaining + paid) / installmentCountFor frequency = 0
  · rw [h.empty hslot, hslot, Int.ediv_zero]
    omega
  · have hnonneg := Standing.slot_nonneg frequency hr hp
    have hpos : 0 < (remaining + paid) / installmentCountFor frequency := by omega
    have hreached := h.reached
    have hnext := h.next hpos
    rw [cumulativeTarget_level h.nonneg (by have := h.below; omega)] at hreached
    rw [mul_comm] at hreached
    have hle := Int.le_ediv_of_mul_le hpos hreached
    by_cases hlast : (derivePlanProgress ⟨remaining, paid, frequency⟩).paidInstallments + 1 <
        installmentCountFor frequency
    · rw [cumulativeTarget_level (by have := h.nonneg; omega) hlast] at hnext
      rw [mul_comm] at hnext
      have hlt := Int.ediv_lt_of_lt_mul hpos hnext
      omega
    · have := h.below
      omega

theorem paidValue_perm {rows payments : List EnrollmentPaymentRow} (h : rows.Perm payments) :
    paidValue rows = paidValue payments :=
  ((h.filter _).map _).sum_eq

/-- A negative value paid counts as nothing paid. -/
theorem progressOf_eq (enrollment : EnrollmentRow) (payments : List EnrollmentPaymentRow) :
    progressOf enrollment payments = derivePlanProgress
      ⟨enrollment.remainingBalance, max 0 (paidValue payments), enrollment.installmentFrequency⟩ := by
  simp [progressOf, derivePlanProgress]

/-! ### Where the dates meet -/

/-- The day `last` is one on which the rosters count on to the date after `k` slots: the date
    of the `k`-th slot, or, where a month is too short for it, a day that runs on to the
    first days of the month that the next slot falls due in. -/
def OnSchedule (start k last : Int) : InstallmentFrequency → Prop
  | .WEEKLY => last = start + 7 * k
  | .MONTHLY =>
    dayOf last ≤ monthLength (monthOf last + 1) ∧ monthOf last = monthOf start + k ∧
        dayOf last = min (dayOf start) (monthLength (monthOf start + k + 1)) ∨
      monthLength (monthOf last + 1) < dayOf last ∧ monthOf last + 1 = monthOf start + k ∧
        dayOf last - monthLength (monthOf last + 1) = dayOf start

instance (start k last : Int) (frequency : InstallmentFrequency) :
    Decidable (OnSchedule start k last frequency) :=
  match frequency with
  | .WEEKLY => inferInstanceAs (Decidable (_ = _))
  | .MONTHLY => inferInstanceAs (Decidable (_ ∨ _))

section Rosters

variable {enrollment : EnrollmentRow} {payments : List EnrollmentPaymentRow} {start : Int}

/-- One period after the day `last` is the due date after `k` slots. -/
theorem onSchedule_iff (frequency : InstallmentFrequency) (start k last : Int) :
    (match frequency with
      | .WEEKLY => last + 7 * DAY_MS
      | .MONTHLY => nextMonth last) / DAY_MS =
        installmentDueDate start frequency (k + 1) / DAY_MS ↔
      OnSchedule (start / DAY_MS) k (last / DAY_MS) frequency := by
  cases frequency with
  | WEEKLY =>
    simp only [installmentDueDate, OnSchedule]
    unfold DAY_MS
    omega
  | MONTHLY =>
    have hdue : installmentDueDate start .MONTHLY (k + 1) / DAY_MS =
        dueDay (start / DAY_MS) (k + 1) := by
      rw [installmentDueDate_monthly]
      unfold DAY_MS
      omega
    simp only [OnSchedule]
    rw [nextMonth_day, hdue, nextMonth_due, ← add_assoc]
    omega

/-- No instalment falls due on the day the term begins. -/
theorem dueDate_after_start (frequency : InstallmentFrequency) (start : Int) {n : Int}
    (hn : 0 < n) : start / DAY_MS ≠ installmentDueDate start frequency n / DAY_MS := by
  cases frequency with
  | WEEKLY =>
    simp only [installmentDueDate]
    unfold DAY_MS
    omega
  | MONTHLY =>
    have hlt := dueDay_strictMono (start / DAY_MS) hn
    rw [dueDay_zero] at hlt
    rw [installmentDueDate_monthly]
    unfold DAY_MS at *
    omega

theorem rosterDueDate_cleared (hr : enrollment.remainingBalance ≤ 0) :
    rosterDueDate enrollment payments = none := by
  rw [rosterDueDate, if_neg (by omega)]

theorem rosterDueDate_unpaid (hr : 0 < enrollment.remainingBalance)
    (hnone : payments.filter (·.isConfirmed) = []) :
    rosterDueDate enrollment payments = enrollment.termStartDate := by
  rw [rosterDueDate, if_pos hr, hnone]

theorem rosterDueDate_paid (hr : 0 < enrollment.remainingBalance) {last : EnrollmentPaymentRow}
    {rest : List EnrollmentPaymentRow} (h : payments.filter (·.isConfirmed) = last :: rest) :
    rosterDueDate enrollment payments = some (match enrollment.installmentFrequency with
      | .WEEKLY => last.paymentDate + 7 * DAY_MS
      | .MONTHLY => nextMonth last.paymentDate) := by
  rw [rosterDueDate, if_pos hr, h]
  cases enrollment.installmentFrequency <;> rfl

/-- A payment that no confirmed one is later than. -/
def Latest (payments : List EnrollmentPaymentRow) (last : EnrollmentPaymentRow) : Prop :=
  last ∈ payments ∧ last.isConfirmed ∧
    ∀ p ∈ payments, p.isConfirmed → p.paymentDate ≤ last.paymentDate

/-- In the order of the queries the first confirmed payment is the latest. -/
theorem latest_of_head (horder : payments.Pairwise fun p q => q.paymentDate ≤ p.paymentDate)
    {last : EnrollmentPaymentRow} {rest : List EnrollmentPaymentRow}
    (h : payments.filter (·.isConfirmed) = last :: rest) : Latest payments last := by
  have hmem : last ∈ payments.filter (·.isConfirmed) := by simp [h]
  have hsorted := horder.filter (·.isConfirmed)
  rw [h, List.pairwise_cons] at hsorted
  refine ⟨List.mem_of_mem_filter hmem, (List.mem_filter.mp hmem).2, ?_⟩
  intro p hp hconfirmed
  have hp' : p ∈ last :: rest := by
    rw [← h]
    exact List.mem_filter.mpr ⟨hp, hconfirmed⟩
  rcases List.mem_cons.mp hp' with rfl | hrest
  · exact le_refl _
  · exact hsorted.1 p hrest

/-- The rosters show the date of the parent's view for a plan that owes nothing, and for one
    whose latest confirmed payment came in on schedule for the slots paid for; for no other. -/
theorem rosters_show_due_date (enrollment : RosterRow)
    (payments rows : List EnrollmentPaymentRow) (start : Int)
    (hstart : enrollment.termStartDate = some start)
    (horder : payments.Pairwise fun p q => q.paymentDate ≤ p.paymentDate)
    (hrows : rows.Perm payments) :
    let due := (toEnrollmentView enrollment.toEnrollmentRow rows).nextDueDate
    ((getStudents enrollment payments).nextDueDate = due ∧
        (getSchoolStudents enrollment payments).nextDueDate = due) ↔
      enrollment.remainingBalance ≤ 0 ∨
        ∃ last, Latest payments last ∧ OnSchedule (start / DAY_MS)
          (slotsPaid enrollment.installmentFrequency enrollment.remainingBalance
            (max 0 (paidValue payments)))
          (last.paymentDate / DAY_MS) enrollment.installmentFrequency := by
  intro due
  have hsame : ((getStudents enrollment payments).nextDueDate = due ∧
      (getSchoolStudents enrollment payments).nextDueDate = due) ↔
        (rosterDueDate enrollment.toEnrollmentRow payments).map isoDate = due := by
    exact ⟨And.left, fun h => ⟨h, h⟩⟩
  have hdue : due = _ := view_nextDueDate hstart
  rw [hsame, hdue]
  by_cases hr : enrollment.remainingBalance ≤ 0
  · rw [rosterDueDate_cleared hr, if_pos hr]
    simp [hr]
  have hopen : 0 < enrollment.remainingBalance := by omega
  have hslots : (progressOf enrollment.toEnrollmentRow rows).paidInstallments =
      slotsPaid enrollment.installmentFrequency enrollment.remainingBalance
        (max 0 (paidValue payments)) := by
    rw [progressOf_eq, paidValue_perm hrows]
    exact paidInstallments_eq hopen (le_max_left 0 _)
  rw [if_neg hr, hslots]
  simp only [hr, false_or]
  cases hpaid : payments.filter (·.isConfirmed) with
  | nil =>
    have hnone : paidValue payments = 0 := by
      rw [← paidValue_eq, hpaid]
      rfl
    have hfirst : slotsPaid enrollment.installmentFrequency enrollment.remainingBalance
        (max 0 (paidValue payments)) = 0 := by
      have := installmentCountFor_pos enrollment.installmentFrequency
      rw [hnone, slotsPaid, max_self, Int.zero_ediv]
      omega
    rw [rosterDueDate_unpaid hopen hpaid, hstart, hfirst, Option.map_some, Option.some_inj,
      isoDate_inj]
    constructor
    · intro h
      exact absurd h (dueDate_after_start enrollment.installmentFrequency start (by decide))
    · rintro ⟨last, ⟨hmem, hconfirmed, -⟩, -⟩
      have : last ∈ payments.filter (·.isConfirmed) := List.mem_filter.mpr ⟨hmem, hconfirmed⟩
      rw [hpaid] at this
      cases this
  | cons last rest =>
    have hlatest := latest_of_head horder hpaid
    rw [rosterDueDate_paid hopen hpaid, Option.map_some, Option.some_inj, isoDate_inj,
      onSchedule_iff]
    constructor
    · exact fun h => ⟨last, hlatest, h⟩
    · rintro ⟨other, hother, h⟩
      have hdate : other.paymentDate = last.paymentDate :=
        le_antisymm (hlatest.2.2 other hother.1 hother.2.1) (hother.2.2 last hlatest.1 hlatest.2.1)
      rw [← hdate]
      exact h

/-- A weekly plan from day 0 whose deposit was confirmed on day `day`. -/
def weeklyRow (remainingBalance : Int) : RosterRow where
  toEnrollmentRow := { monthlyPlan with remainingBalance, installmentFrequency := .WEEKLY }
  parentName := some "Obi"

def deposit (day : Int) : EnrollmentPaymentRow :=
  { transfer "deposit" 3300000 day with paymentType := .FIRST_PAYMENT }

/-- Both rosters and the view show day 7 for a deposit of the first day. -/
theorem rosters_show_due_date_first_day :
    (getStudents (weeklyRow 9000000) [deposit 0]).nextDueDate = some (1970, 1, 8) ∧
      (toEnrollmentView (weeklyRow 9000000).toEnrollmentRow [deposit 0]).nextDueDate =
        some (1970, 1, 8) := by
  have h := rosters_show_due_date (weeklyRow 9000000) [deposit 0] [deposit 0] 0 rfl
    (List.pairwise_singleton _ _) (List.Perm.refl _)
  have hlast : Latest [deposit 0] (deposit 0) := by
    refine ⟨by simp, rfl, ?_⟩
    intro p hp _
    rw [List.mem_singleton.mp hp]
  have hdate := (h.mpr (.inr ⟨deposit 0, hlast, by decide⟩)).1
  exact ⟨by decide, hdate.symm.trans (by decide)⟩

/-- With the deposit confirmed three days into the term the rosters show day 10, and the
    parent still sees day 7. -/
theorem roster_date_drifts :
    (getStudents (weeklyRow 9000000) [deposit 3]).nextDueDate = some (1970, 1, 11) ∧
      (getSchoolStudents (weeklyRow 9000000) [deposit 3]).nextDueDate = some (1970, 1, 11) ∧
      (toEnrollmentView (weeklyRow 9000000).toEnrollmentRow [deposit 3]).nextDueDate =
        some (1970, 1, 8) := by
  decide +kernel

end Rosters

end Schedule

end Lopay
