import Lopay.Schedule.Calendar
import Lopay.Schedule.Progress
import Mathlib.Data.Int.Interval
import Mathlib.Data.Set.Card

/-!
# Arrears

`common/arrears.ts`: how much of a plan's balance is past due at an instant. The number of
periods that have elapsed is the number of instalments that have fallen due, a monthly one
at the start of its day; what is overdue is what the slots that have come round ask for
beyond what has been paid, and everything once the term is over.
-/

namespace Lopay

namespace Schedule

open Invites

def WEEK_MS : Int := 7 * DAY_MS

structure ArrearsInput where
  remainingBalance : Int
  installmentFrequency : InstallmentFrequency
  termStartDate : Int
  termEndDate : Int
  installmentsPaidKobo : Int

structure ArrearsResult where
  overdueAmount : Int
  missedInstallments : Int
  paidInstallments : Int
  daysOverdue : Int
  nextDueDate : Option Int
  termExpired : Bool
deriving DecidableEq

/-- How many periods have fully elapsed since the term began. -/
def elapsedPeriods (termStartDate : Int) (frequency : InstallmentFrequency) (now : Int) : Int :=
  if now ≤ termStartDate then 0
  else
    match frequency with
    | .WEEKLY => (now - termStartDate) / WEEK_MS
    | .MONTHLY =>
      let (nowYear, nowMonth, nowDay) := civilFromDays (now / DAY_MS)
      let (startYear, startMonth, _) := civilFromDays (termStartDate / DAY_MS)
      let months := (nowYear - startYear) * 12 + (nowMonth - startMonth)
      if months ≤ 0 then 0
      else
        let (_, _, dueDay) :=
          civilFromDays (installmentDueDate termStartDate .MONTHLY months / DAY_MS)
        if dueDay ≤ nowDay then months else months - 1

/-- Past-due position of a single enrollment. -/
def computeArrears (input : ArrearsInput) (now : Int) : ArrearsResult :=
  let progress := derivePlanProgress
    { remainingBalance := input.remainingBalance
      installmentsPaidKobo := input.installmentsPaidKobo
      installmentFrequency := input.installmentFrequency }
  let total := progress.totalInstallments
  let paidInstallments := progress.paidInstallments
  if progress.settled then
    { overdueAmount := 0
      missedInstallments := 0
      paidInstallments
      daysOverdue := 0
      nextDueDate := none
      termExpired := false }
  else
    let termExpired : Bool := input.termEndDate < now
    let elapsed := elapsedPeriods input.termStartDate input.installmentFrequency now
    let expectedPaid := min elapsed total
    let missedInstallments := max 0 (expectedPaid - paidInstallments)
    let nextIndex := min (paidInstallments + 1) total
    let nextDueDate := installmentDueDate input.termStartDate input.installmentFrequency nextIndex
    let firstMissedDue :=
      installmentDueDate input.termStartDate input.installmentFrequency (paidInstallments + 1)
    if termExpired then
      let reference := if firstMissedDue < input.termEndDate then firstMissedDue
        else input.termEndDate
      { overdueAmount := input.remainingBalance
        missedInstallments := max missedInstallments (total - paidInstallments)
        paidInstallments
        daysOverdue := (now - reference) / DAY_MS
        nextDueDate := some nextDueDate
        termExpired := true }
    else if missedInstallments = 0 then
      { overdueAmount := 0
        missedInstallments := 0
        paidInstallments
        daysOverdue := 0
        nextDueDate := some nextDueDate
        termExpired := false }
    else
      let expectedValue := cumulativeTarget progress.planStartBalance total expectedPaid
      { overdueAmount :=
          min (max 0 (expectedValue - progress.installmentsPaidKobo)) input.remainingBalance
        missedInstallments
        paidInstallments
        daysOverdue := max 0 ((now - firstMissedDue) / DAY_MS)
        nextDueDate := some nextDueDate
        termExpired := false }

/-! ### Instalments that have fallen due -/

/-- The `n`-th instalment has fallen due: a weekly one at its instant, a monthly one with
    its day. -/
def FallenDue (termStartDate : Int) (frequency : InstallmentFrequency) (now n : Int) : Prop :=
  match frequency with
  | .WEEKLY => installmentDueDate termStartDate .WEEKLY n ≤ now
  | .MONTHLY => installmentDueDate termStartDate .MONTHLY n / DAY_MS ≤ now / DAY_MS

section Elapsed

variable {termStartDate now n : Int} {frequency : InstallmentFrequency}

theorem FallenDue.later {now' : Int} (hnow : now ≤ now')
    (h : FallenDue termStartDate frequency now n) : FallenDue termStartDate frequency now' n := by
  cases frequency with
  | WEEKLY => exact le_trans h hnow
  | MONTHLY => exact le_trans h (Int.ediv_le_ediv (by decide) hnow)

theorem installmentDueDate_day (termStartDate n : Int) :
    installmentDueDate termStartDate .MONTHLY n / DAY_MS = dueDay (termStartDate / DAY_MS) n := by
  rw [installmentDueDate_monthly]
  unfold DAY_MS
  omega

theorem elapsedPeriods_monthly (hnow : termStartDate < now) :
    elapsedPeriods termStartDate .MONTHLY now =
      let months := monthOf (now / DAY_MS) - monthOf (termStartDate / DAY_MS)
      if months ≤ 0 then 0
      else if dayOf (dueDay (termStartDate / DAY_MS) months) ≤ dayOf (now / DAY_MS) then months
      else months - 1 := by
  have hmonths : ∀ a b c d : Int, (a - b) * 12 + (c - d) = a * 12 + c - 1 - (b * 12 + d - 1) := by
    intro a b c d
    ring
  rw [elapsedPeriods, if_neg (not_le.mpr hnow)]
  simp only [hmonths, installmentDueDate_day]
  rfl

/-- As many periods have elapsed as instalments have fallen due. -/
theorem le_elapsedPeriods (hn : 1 ≤ n) :
    n ≤ elapsedPeriods termStartDate frequency now ↔ FallenDue termStartDate frequency now n := by
  cases frequency with
  | WEEKLY =>
    simp only [FallenDue, installmentDueDate, elapsedPeriods, WEEK_MS, DAY_MS]
    split <;> omega
  | MONTHLY =>
    have hdue : FallenDue termStartDate .MONTHLY now n ↔
        dueDay (termStartDate / DAY_MS) n ≤ now / DAY_MS := by
      rw [FallenDue, installmentDueDate_day]
    have hafter : termStartDate / DAY_MS < dueDay (termStartDate / DAY_MS) n := by
      have h := dueDay_strictMono (termStartDate / DAY_MS) (by omega : (0 : Int) < n)
      rw [dueDay_zero] at h
      exact h
    by_cases hnow : termStartDate < now
    · have hmonth := le_iff_month (dueDay (termStartDate / DAY_MS) n) (now / DAY_MS)
      rw [monthOf_dueDay] at hmonth
      rw [hdue, hmonth, elapsedPeriods_monthly hnow]
      simp only
      generalize hm : monthOf (now / DAY_MS) - monthOf (termStartDate / DAY_MS) = months
      by_cases hn : n = months
      · subst hn
        split_ifs <;> omega
      · split_ifs <;> omega
    · rw [hdue, elapsedPeriods, if_pos (by omega)]
      have : now / DAY_MS ≤ termStartDate / DAY_MS := Int.ediv_le_ediv (by decide) (by omega)
      omega

theorem elapsedPeriods_nonneg (termStartDate : Int) (frequency : InstallmentFrequency)
    (now : Int) : 0 ≤ elapsedPeriods termStartDate frequency now := by
  by_cases hnow : now ≤ termStartDate
  · unfold elapsedPeriods
    rw [if_pos hnow]
  cases frequency with
  | WEEKLY =>
    unfold elapsedPeriods
    rw [if_neg hnow]
    exact Int.ediv_nonneg (by omega) (by decide)
  | MONTHLY =>
    rw [elapsedPeriods_monthly (not_le.mp hnow)]
    simp only
    split_ifs <;> omega

/-- The periods that have elapsed are the instalments that have fallen due, counted from the
    first. -/
theorem elapsed_counts_due_dates (termStartDate : Int) (frequency : InstallmentFrequency)
    (now : Int) : {n : Int | 1 ≤ n ∧ FallenDue termStartDate frequency now n}.Finite ∧
      ({n : Int | 1 ≤ n ∧ FallenDue termStartDate frequency now n}.ncard : Int) =
        elapsedPeriods termStartDate frequency now := by
  have hfallen : {n : Int | 1 ≤ n ∧ FallenDue termStartDate frequency now n} =
      Finset.Icc 1 (elapsedPeriods termStartDate frequency now) := by
    ext n
    rw [Finset.mem_coe, Finset.mem_Icc]
    constructor
    · rintro ⟨hn, hdue⟩
      exact ⟨hn, (le_elapsedPeriods hn).mpr hdue⟩
    · rintro ⟨hn, hle⟩
      exact ⟨hn, (le_elapsedPeriods hn).mp hle⟩
  rw [hfallen]
  refine ⟨Finset.finite_toSet _, ?_⟩
  have hnonneg := elapsedPeriods_nonneg termStartDate frequency now
  rw [Set.ncard_coe_finset, Int.card_Icc]
  omega

theorem elapsedPeriods_mono (termStartDate : Int) (frequency : InstallmentFrequency)
    {now now' : Int} (hnow : now ≤ now') :
    elapsedPeriods termStartDate frequency now ≤ elapsedPeriods termStartDate frequency now' := by
  by_cases hone : 1 ≤ elapsedPeriods termStartDate frequency now
  · rw [le_elapsedPeriods hone]
    exact ((le_elapsedPeriods hone).mp (le_refl _)).later hnow
  · have := elapsedPeriods_nonneg termStartDate frequency now'
    omega

end Elapsed

/-! ### What is past due -/

section Arrears

variable {input : ArrearsInput} {now : Int}

/-- The progress that the arrears of a plan are measured against. -/
def ArrearsInput.progress (input : ArrearsInput) : PlanProgress :=
  derivePlanProgress
    ⟨input.remainingBalance, input.installmentsPaidKobo, input.installmentFrequency⟩

/-- The instalments that should have been paid. -/
def ArrearsInput.expected (input : ArrearsInput) (now : Int) : Int :=
  min (elapsedPeriods input.termStartDate input.installmentFrequency now)
    (installmentCountFor input.installmentFrequency)

theorem ArrearsInput.standing (hr : 0 < input.remainingBalance)
    (hp : 0 ≤ input.installmentsPaidKobo) :
    Standing input.installmentFrequency input.remainingBalance input.installmentsPaidKobo
      input.progress :=
  derivePlanProgress_standing input.installmentFrequency hr hp

theorem ArrearsInput.count_pos (input : ArrearsInput) :
    0 < installmentCountFor input.installmentFrequency := by
  have := installmentCountFor_pos input.installmentFrequency
  omega

theorem ArrearsInput.expected_bounds (input : ArrearsInput) (now : Int) : 0 ≤ input.expected now ∧
    input.expected now ≤ installmentCountFor input.installmentFrequency := by
  have := installmentCountFor_pos input.installmentFrequency
  have := elapsedPeriods_nonneg input.termStartDate input.installmentFrequency now
  unfold ArrearsInput.expected
  omega

theorem ArrearsInput.expected_mono {now' : Int} (hnow : now ≤ now') :
    input.expected now ≤ input.expected now' := by
  have := elapsedPeriods_mono input.termStartDate input.installmentFrequency hnow
  unfold ArrearsInput.expected
  omega

/-- A settled plan is not in arrears. -/
theorem computeArrears_settled (hr : input.remainingBalance ≤ 0) :
    computeArrears input now =
      { overdueAmount := 0
        missedInstallments := 0
        paidInstallments := input.progress.paidInstallments
        daysOverdue := 0
        nextDueDate := none
        termExpired := false } := by
  have hsettled : input.progress.settled = true := derivePlanProgress_settled hr
  have hprogress : derivePlanProgress ⟨input.remainingBalance, input.installmentsPaidKobo,
      input.installmentFrequency⟩ = input.progress := rfl
  unfold computeArrears
  simp only [hprogress, hsettled, if_true]

/-- The arrears of a plan that owes money. -/
structure InArrears (input : ArrearsInput) (now : Int) (a : ArrearsResult) : Prop where
  next : a.nextDueDate = some (installmentDueDate input.termStartDate input.installmentFrequency
    (input.progress.paidInstallments + 1))
  expired : a.termExpired = decide (input.termEndDate < now)
  paid : a.paidInstallments = input.progress.paidInstallments
  missed : a.missedInstallments =
    if input.termEndDate < now then
      installmentCountFor input.installmentFrequency - input.progress.paidInstallments
    else max 0 (input.expected now - input.progress.paidInstallments)
  overdue : a.overdueAmount =
    if input.termEndDate < now then input.remainingBalance
    else max 0 (cumulativeTarget (input.remainingBalance + input.installmentsPaidKobo)
      (installmentCountFor input.installmentFrequency) (input.expected now) -
        input.installmentsPaidKobo)

theorem computeArrears_open (now : Int) (hr : 0 < input.remainingBalance)
    (hp : 0 ≤ input.installmentsPaidKobo) : InArrears input now (computeArrears input now) := by
  have h := input.standing hr hp
  have hcount := installmentCountFor_pos input.installmentFrequency
  have htotal : 0 < installmentCountFor input.installmentFrequency := by omega
  have hbalance : 0 ≤ input.remainingBalance + input.installmentsPaidKobo := by omega
  obtain ⟨hexpected, hexpected'⟩ := input.expected_bounds now
  have hbelow := h.below
  have hnext : min (input.progress.paidInstallments + 1)
      (installmentCountFor input.installmentFrequency) = input.progress.paidInstallments + 1 := by
    omega
  have hcapped := cumulativeTarget_le (n := input.expected now) htotal hbalance
  have hprogress : derivePlanProgress ⟨input.remainingBalance, input.installmentsPaidKobo,
      input.installmentFrequency⟩ = input.progress := rfl
  have hexpect : min (elapsedPeriods input.termStartDate input.installmentFrequency now)
      (installmentCountFor input.installmentFrequency) = input.expected now := rfl
  unfold computeArrears
  simp only [hprogress, h.unsettled, h.total, h.balance, h.kobo, hnext, hexpect,
    Bool.false_eq_true, if_false]
  by_cases hexpired : input.termEndDate < now
  · rw [if_pos (by simpa using hexpired)]
    refine ⟨rfl, by simp [hexpired], rfl, ?_, by simp [hexpired]⟩
    simp only [if_pos hexpired]
    omega
  · rw [if_neg (by simpa using hexpired)]
    by_cases hmissed : max 0 (input.expected now - input.progress.paidInstallments) = 0
    · -- What the slots that have come round ask for has been paid.
      have hreached := h.reached
      have hmono := cumulativeTarget_mono (k := input.expected now)
        (n := input.progress.paidInstallments) htotal hbalance (by omega)
      rw [if_pos hmissed]
      refine ⟨rfl, by simp [hexpired], rfl, ?_, ?_⟩
      · simp only [if_neg hexpired]
        omega
      · simp only [if_neg hexpired]
        omega
    · rw [if_neg hmissed]
      refine ⟨rfl, by simp [hexpired], rfl, by simp only [if_neg hexpired], ?_⟩
      simp only [if_neg hexpired]
      omega

end Arrears

/-! ### Within the term -/

/-- The plan after an installment of `x` has been confirmed. -/
def ArrearsInput.paying (input : ArrearsInput) (x : Int) : ArrearsInput :=
  { input with
    remainingBalance := input.remainingBalance - x
    installmentsPaidKobo := input.installmentsPaidKobo + x }

section WithinTerm

variable {input : ArrearsInput} {now : Int}

@[simp] theorem paying_remaining (x : Int) :
    (input.paying x).remainingBalance = input.remainingBalance - x := rfl

@[simp] theorem paying_paid (x : Int) :
    (input.paying x).installmentsPaidKobo = input.installmentsPaidKobo + x := rfl

@[simp] theorem paying_frequency (x : Int) :
    (input.paying x).installmentFrequency = input.installmentFrequency := rfl

@[simp] theorem paying_termEndDate (x : Int) :
    (input.paying x).termEndDate = input.termEndDate := rfl

@[simp] theorem paying_expected (x now : Int) :
    (input.paying x).expected now = input.expected now := rfl

theorem overdue_eq_zero (now : Int) (hr : input.remainingBalance ≤ 0) :
    (computeArrears input now).overdueAmount = 0 ∧
      (computeArrears input now).missedInstallments = 0 := by
  rw [computeArrears_settled hr]
  exact ⟨rfl, rfl⟩

/-- As long as slots are not empty, a missed one has not been paid for. -/
theorem missed_unpaid (hr : 0 < input.remainingBalance) (hp : 0 ≤ input.installmentsPaidKobo)
    (hslot : 0 < (input.remainingBalance + input.installmentsPaidKobo) /
      installmentCountFor input.installmentFrequency)
    (hmissed : input.progress.paidInstallments < input.expected now) :
    input.progress.nextInstallmentAmount ≤ cumulativeTarget
      (input.remainingBalance + input.installmentsPaidKobo)
      (installmentCountFor input.installmentFrequency) (input.expected now) -
        input.installmentsPaidKobo := by
  have hbalance : 0 ≤ input.remainingBalance + input.installmentsPaidKobo := by omega
  have h := input.standing hr hp
  have hmono := cumulativeTarget_mono (k := input.progress.paidInstallments + 1)
    (n := input.expected now) input.count_pos hbalance (by omega)
  rw [h.quote, if_neg hslot.ne']
  omega

/-- Within the term something is overdue exactly if an instalment has been missed. -/
theorem overdue_pos_iff (hr : 0 ≤ input.remainingBalance) (hp : 0 ≤ input.installmentsPaidKobo)
    (hslot : 0 < (input.remainingBalance + input.installmentsPaidKobo) /
      installmentCountFor input.installmentFrequency) (hterm : ¬ input.termEndDate < now) :
    0 < (computeArrears input now).overdueAmount ↔
      0 < (computeArrears input now).missedInstallments := by
  rcases hr.lt_or_eq with hpos | hzero
  · have hbalance : 0 ≤ input.remainingBalance + input.installmentsPaidKobo := by omega
    have h := input.standing hpos hp
    have ha := computeArrears_open now hpos hp
    rw [ha.overdue, ha.missed, if_neg hterm, if_neg hterm]
    by_cases hmissed : input.progress.paidInstallments < input.expected now
    · have hunpaid := missed_unpaid hpos hp hslot hmissed
      have hquote := (h.quote_bounds hpos hp).1
      omega
    · have hreached := h.reached
      have hmono := cumulativeTarget_mono (k := input.expected now)
        (n := input.progress.paidInstallments) input.count_pos hbalance (by omega)
      omega
  · obtain ⟨hoverdue, hmissed⟩ := overdue_eq_zero now hzero.ge
    rw [hoverdue, hmissed]

/-- Paying the quote makes up for exactly one missed instalment. -/
theorem paying_quote (hr : 0 < input.remainingBalance) (hp : 0 ≤ input.installmentsPaidKobo)
    (hslot : 0 < (input.remainingBalance + input.installmentsPaidKobo) /
      installmentCountFor input.installmentFrequency) (hterm : ¬ input.termEndDate < now)
    (hmissed : input.progress.paidInstallments < input.expected now) :
    let quote := input.progress.nextInstallmentAmount
    (computeArrears (input.paying quote) now).missedInstallments =
        (computeArrears input now).missedInstallments - 1 ∧
      (computeArrears (input.paying quote) now).overdueAmount =
        (computeArrears input now).overdueAmount - quote := by
  intro quote
  have hcount := installmentCountFor_pos input.installmentFrequency
  have htotal : 0 < installmentCountFor input.installmentFrequency := by omega
  have hbalance : 0 ≤ input.remainingBalance + input.installmentsPaidKobo := by omega
  have h := input.standing hr hp
  have ha := computeArrears_open now hr hp
  obtain ⟨hquote, hle⟩ := h.quote_bounds hr hp
  have hunpaid := missed_unpaid hr hp hslot hmissed
  obtain ⟨-, hexpected⟩ := input.expected_bounds now
  have hwhole := cumulativeTarget_le (n := input.expected now) htotal hbalance
  rw [ha.missed, ha.overdue, if_neg hterm, if_neg hterm]
  rcases hle.lt_or_eq with hlt | hall
  · -- The quote closes one slot, and the plan goes on.
    have hpos' : 0 < (input.paying quote).remainingBalance := by
      rw [paying_remaining]
      omega
    have hp' : 0 ≤ (input.paying quote).installmentsPaidKobo := add_nonneg hp hquote.le
    have ha' := computeArrears_open now hpos' hp'
    obtain ⟨-, -, hone, -⟩ :=
      h.paid_quote hr hp hpos' ((input.paying quote).standing hpos' hp')
    have hsame : input.remainingBalance - quote + (input.installmentsPaidKobo + quote) =
        input.remainingBalance + input.installmentsPaidKobo := by omega
    rw [ha'.missed, ha'.overdue]
    simp only [paying_remaining, paying_paid, paying_frequency, paying_termEndDate,
      paying_expected, hsame, hone, if_neg hterm]
    constructor
    · omega
    · omega
  · -- The quote is all that is owed: the last slot was the one missed.
    have hlast : input.expected now = input.progress.paidInstallments + 1 := by
      by_contra hne
      have hbelow := h.below
      have hnonneg := h.nonneg
      have hsucc := cumulativeTarget_succ (n := input.progress.paidInstallments + 1) htotal
        hbalance hslot (by omega) (by omega)
      have hmore := cumulativeTarget_le (n := input.progress.paidInstallments + 1 + 1) htotal
        hbalance
      have hquoted := h.quote
      rw [if_neg hslot.ne'] at hquoted
      omega
    have hsettled : (input.paying quote).remainingBalance ≤ 0 := by
      rw [paying_remaining]
      omega
    obtain ⟨hoverdue, hnone⟩ := overdue_eq_zero now hsettled
    rw [hoverdue, hnone]
    constructor
    · omega
    · omega

end WithinTerm

/-! ### Arrears are monotone -/

section Monotone

variable {frequency : InstallmentFrequency} {termStartDate termEndDate remaining paid : Int}

/-- Money moved from the balance to what has been paid closes no fewer slots. -/
theorem Standing.mono {g g' : PlanProgress} {x : Int} (h : Standing frequency remaining paid g)
    (h' : Standing frequency (remaining - x) (paid + x) g') (hr : 0 < remaining) (hp : 0 ≤ paid)
    (hx : 0 ≤ x) : g.paidInstallments ≤ g'.paidInstallments := by
  have hcount := installmentCountFor_pos frequency
  have hsame : remaining - x + (paid + x) = remaining + paid := by omega
  by_cases hslot : (remaining + paid) / installmentCountFor frequency = 0
  · rw [h.empty hslot]
    exact h'.nonneg
  · have hpos := Standing.slot_nonneg frequency hr hp
    by_contra hless
    have hnext := h'.next (by rw [hsame]; omega)
    rw [hsame] at hnext
    have hreached := h.reached
    have htotal : 0 < installmentCountFor frequency := by omega
    have hbalance : 0 ≤ remaining + paid := by omega
    have hmono := cumulativeTarget_mono (k := g'.paidInstallments + 1)
      (n := g.paidInstallments) htotal hbalance (by omega)
    omega

variable {input : ArrearsInput}

theorem overdue_le (hr : 0 ≤ input.remainingBalance) (hp : 0 ≤ input.installmentsPaidKobo)
    (now : Int) : (computeArrears input now).overdueAmount ≤ input.remainingBalance := by
  rcases hr.lt_or_eq with hr | hr
  · have hbalance : 0 ≤ input.remainingBalance + input.installmentsPaidKobo := by omega
    rw [(computeArrears_open now hr hp).overdue]
    split
    · exact le_refl _
    · have hle := cumulativeTarget_le (n := input.expected now) input.count_pos hbalance
      omega
  · rw [computeArrears_settled hr.ge]
    exact hr.le

theorem arrears_grow (hr : 0 ≤ input.remainingBalance) (hp : 0 ≤ input.installmentsPaidKobo)
    {now now' : Int} (hnow : now ≤ now') :
    (computeArrears input now).overdueAmount ≤ (computeArrears input now').overdueAmount ∧
      (computeArrears input now).missedInstallments ≤
        (computeArrears input now').missedInstallments := by
  rcases hr.lt_or_eq with hpos | hzero
  · have hbalance : 0 ≤ input.remainingBalance + input.installmentsPaidKobo := by omega
    have h := computeArrears_open now hpos hp
    have h' := computeArrears_open now' hpos hp
    have hmono := input.expected_mono hnow
    obtain ⟨-, hexpected⟩ := input.expected_bounds now
    have htarget := cumulativeTarget_mono (k := input.expected now) (n := input.expected now')
      input.count_pos hbalance hmono
    have hwithin := overdue_le hr hp now
    constructor
    · by_cases hexpired : input.termEndDate < now'
      · rw [h'.overdue, if_pos hexpired]
        exact hwithin
      · rw [h.overdue, h'.overdue, if_neg hexpired, if_neg (by omega)]
        omega
    · have hbelow := (input.standing hpos hp).below
      by_cases hexpired : input.termEndDate < now'
      · rw [h.missed, h'.missed, if_pos hexpired]
        split <;> omega
      · rw [h.missed, h'.missed, if_neg hexpired, if_neg (by omega)]
        omega
  · rw [computeArrears_settled hzero.ge, computeArrears_settled hzero.ge]
    exact ⟨le_refl _, le_refl _⟩

theorem arrears_nonneg (hr : 0 ≤ input.remainingBalance) (hp : 0 ≤ input.installmentsPaidKobo)
    (now : Int) : 0 ≤ (computeArrears input now).overdueAmount ∧
      0 ≤ (computeArrears input now).missedInstallments := by
  rcases hr.lt_or_eq with hpos | hzero
  · have h := computeArrears_open now hpos hp
    have hbelow := (input.standing hpos hp).below
    rw [h.overdue, h.missed]
    constructor
    · split <;> omega
    · split <;> omega
  · rw [computeArrears_settled hzero.ge]
    exact ⟨le_refl _, le_refl _⟩

theorem arrears_shrink (hr : 0 ≤ input.remainingBalance) (hp : 0 ≤ input.installmentsPaidKobo)
    {x : Int} (hx : 0 ≤ x) (hle : x ≤ input.remainingBalance) (now : Int) :
    (computeArrears (input.paying x) now).overdueAmount ≤
        (computeArrears input now).overdueAmount ∧
      (computeArrears (input.paying x) now).missedInstallments ≤
        (computeArrears input now).missedInstallments := by
  rcases hle.lt_or_eq with hlt | hall
  · have hpos : 0 < input.remainingBalance := by omega
    have hpos' : 0 < (input.paying x).remainingBalance := by
      rw [paying_remaining]
      omega
    have hp' : 0 ≤ (input.paying x).installmentsPaidKobo := add_nonneg hp hx
    have h := computeArrears_open now hpos hp
    have h' := computeArrears_open now hpos' hp'
    have hclosed := (input.standing hpos hp).mono ((input.paying x).standing hpos' hp') hpos hp hx
    have hsame : input.remainingBalance - x + (input.installmentsPaidKobo + x) =
        input.remainingBalance + input.installmentsPaidKobo := by omega
    rw [h.overdue, h'.overdue, h.missed, h'.missed]
    simp only [paying_remaining, paying_paid, paying_frequency, paying_termEndDate,
      paying_expected, hsame]
    constructor
    · split <;> omega
    · split <;> omega
  · have hsettled : (input.paying x).remainingBalance ≤ 0 := by
      rw [paying_remaining]
      omega
    rw [computeArrears_settled hsettled]
    exact arrears_nonneg hr hp now

theorem nextDueDate_eq_none (hp : 0 ≤ input.installmentsPaidKobo) (now : Int) :
    (computeArrears input now).nextDueDate = none ↔ input.remainingBalance ≤ 0 := by
  rcases le_or_gt input.remainingBalance 0 with hr | hr
  · rw [computeArrears_settled hr]
    exact ⟨fun _ => hr, fun _ => rfl⟩
  · rw [(computeArrears_open now hr hp).next]
    constructor
    · intro h
      cases h
    · omega

theorem nextDueDate_later (hp : 0 ≤ input.installmentsPaidKobo) {x : Int} (hx : 0 ≤ x)
    {now due due' : Int} (hdue : (computeArrears input now).nextDueDate = some due)
    (hdue' : (computeArrears (input.paying x) now).nextDueDate = some due') : due ≤ due' := by
  have hp' : 0 ≤ (input.paying x).installmentsPaidKobo := add_nonneg hp hx
  have hpos : 0 < input.remainingBalance := by
    by_contra h
    rw [(nextDueDate_eq_none hp now).mpr (by omega)] at hdue
    cases hdue
  have hpos' : 0 < (input.paying x).remainingBalance := by
    by_contra h
    rw [(nextDueDate_eq_none hp' now).mpr (by omega)] at hdue'
    cases hdue'
  have hclosed := (input.standing hpos hp).mono ((input.paying x).standing hpos' hp') hpos hp hx
  rw [(computeArrears_open now hpos hp).next, Option.some.injEq] at hdue
  rw [(computeArrears_open now hpos' hp').next, Option.some.injEq] at hdue'
  rw [← hdue, ← hdue']
  exact (installmentDueDate_strictMono _ _).monotone (by omega)

/-- What is overdue lies within the balance; time only adds to it and to the instalments
    missed; a confirmed installment only takes away, and moves no due date back. -/
theorem arrears_monotone (frequency : InstallmentFrequency)
    (termStartDate termEndDate remaining paid : Int) (hr : 0 ≤ remaining) (hp : 0 ≤ paid) :
    let arrears (remaining paid now : Int) := computeArrears
      ⟨remaining, frequency, termStartDate, termEndDate, paid⟩ now
    (∀ now, (arrears remaining paid now).overdueAmount ≤ remaining) ∧
    (∀ now now', now ≤ now' →
      (arrears remaining paid now).overdueAmount ≤ (arrears remaining paid now').overdueAmount ∧
      (arrears remaining paid now).missedInstallments ≤
        (arrears remaining paid now').missedInstallments) ∧
    ∀ x now, 0 ≤ x → x ≤ remaining →
      let after := arrears (remaining - x) (paid + x) now
      after.overdueAmount ≤ (arrears remaining paid now).overdueAmount ∧
      after.missedInstallments ≤ (arrears remaining paid now).missedInstallments ∧
      (after.nextDueDate = none ↔ x = remaining) ∧
      ∀ due due', (arrears remaining paid now).nextDueDate = some due →
        after.nextDueDate = some due' → due ≤ due' := by
  intro arrears
  let input : ArrearsInput := ⟨remaining, frequency, termStartDate, termEndDate, paid⟩
  have hr : 0 ≤ input.remainingBalance := hr
  have hp : 0 ≤ input.installmentsPaidKobo := hp
  refine ⟨@overdue_le input hr hp, @arrears_grow input hr hp, ?_⟩
  intro x now hx hle after
  obtain ⟨hoverdue, hmissed⟩ := @arrears_shrink input hr hp x hx hle now
  refine ⟨hoverdue, hmissed, ?_, ?_⟩
  · have hnone := @nextDueDate_eq_none (input.paying x) (add_nonneg hp hx) now
    have hall : remaining - x ≤ 0 ↔ x = remaining := by omega
    exact hnone.trans hall
  · intro due due' hdue hdue'
    exact @nextDueDate_later input hp x hx now due due' hdue hdue'

/-- A weekly plan of ₦1,200 in its third week: ₦200 is overdue, and ₦150 of it can be paid. -/
theorem arrears_monotone_weekly :
    let plan : ArrearsInput := ⟨120000, .WEEKLY, 0, 84 * DAY_MS, 0⟩
    (computeArrears plan (14 * DAY_MS)).overdueAmount = 20000 ∧
      (computeArrears (plan.paying 15000) (14 * DAY_MS)).overdueAmount ≤ 20000 := by
  intro plan
  have hoverdue : (computeArrears plan (14 * DAY_MS)).overdueAmount = 20000 := by decide +kernel
  obtain ⟨-, -, hpaying⟩ :=
    arrears_monotone .WEEKLY 0 (84 * DAY_MS) 120000 0 (by decide) (by decide)
  have h := (hpaying 15000 (14 * DAY_MS) (by decide) (by decide)).1
  exact ⟨hoverdue, hoverdue ▸ h⟩

end Monotone

end Schedule

end Lopay
