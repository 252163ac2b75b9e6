import Lopay.Schedule.Arrears

/-!
# The parent's view of a plan

`toEnrollmentView`, the projection of an enrollment with its payments that the parent
dashboard renders, and why it agrees with the arrears book: both read the same progress.
-/

namespace Lopay

namespace Schedule

open Invites

structure EnrollmentPaymentRow where
  id : Id
  amountPaid : Int
  paymentType : PaymentType
  status : PaymentTransactionStatus
  isConfirmed : Bool
  paymentDate : Int
  receiptUrl : Option String

/-- The columns of an enrollment that the view reads; a date may be no real date. -/
structure EnrollmentRow where
  id : Id
  childId : Id
  schoolId : Id
  className : String
  totalSchoolFee : Int
  remainingBalance : Int
  paymentStatus : PaymentStatus
  installmentFrequency : InstallmentFrequency
  termStartDate : Option Int
  termEndDate : Int
  createdAt : Option Int
  childName : Option String
  schoolName : Option String

/-- One payment as the parent's plan card sees it. -/
structure EnrollmentPaymentView where
  id : Id
  amount : ℚ
  amountPaid : ℚ
  paymentType : PaymentType
  type : PaymentType
  status : PaymentTransactionStatus
  isConfirmed : Bool
  date : Int
  paymentDate : Int
  receiptUrl : Option String

structure EnrollmentView where
  id : Id
  childId : Id
  schoolId : Id
  className : String
  paymentStatus : PaymentStatus
  installmentFrequency : InstallmentFrequency
  termStartDate : Option Int
  termEndDate : Int
  studentName : Option String
  childName : Option String
  schoolName : Option String
  totalFee : ℚ
  paidAmount : ℚ
  remainingBalance : ℚ
  availableBalance : ℚ
  nextDueDate : Option (Int × Int × Int)
  nextInstallmentAmount : ℚ
  installmentsPaid : Int
  installmentsTotal : Int
  creditTowardNextInstallment : ℚ
  payments : List EnrollmentPaymentView

/-- The first usable schedule anchor. -/
def scheduleAnchor (enrollment : EnrollmentRow) : Option Int :=
  enrollment.termStartDate.or enrollment.createdAt

/-- The calendar date of an instant: what `toISOString` begins with. -/
def isoDate (t : Int) : Int × Int × Int := civilFromDays (t / DAY_MS)

def amounts (payments : List EnrollmentPaymentRow) : Int := (payments.map (·.amountPaid)).sum

def paymentView (p : EnrollmentPaymentRow) : EnrollmentPaymentView where
  id := p.id
  amount := Money.toNaira p.amountPaid
  amountPaid := Money.toNaira p.amountPaid
  paymentType := p.paymentType
  type := p.paymentType
  status := p.status
  isConfirmed := p.isConfirmed
  date := p.paymentDate
  paymentDate := p.paymentDate
  receiptUrl := p.receiptUrl

/-- Project one enrollment, with its payments, onto the wire. -/
def toEnrollmentView (enrollment : EnrollmentRow) (payments : List EnrollmentPaymentRow) :
    EnrollmentView :=
  let confirmedPayments := payments.filter (·.isConfirmed)
  let pendingInstallmentsKobo := amounts (payments.filter fun p =>
    p.paymentType = .INSTALLMENT ∧ p.status = .PENDING ∧ p.isConfirmed = false)
  let availableKobo := max 0 (enrollment.remainingBalance - pendingInstallmentsKobo)
  let installmentsPaidKobo := amounts (confirmedPayments.filter fun p =>
    p.paymentType = .INSTALLMENT)
  let progress := derivePlanProgress
    { remainingBalance := enrollment.remainingBalance
      installmentsPaidKobo
      installmentFrequency := enrollment.installmentFrequency }
  let nextDueDate :=
    if progress.settled then none
    else (scheduleAnchor enrollment).map fun anchor =>
      installmentDueDate anchor enrollment.installmentFrequency (progress.paidInstallments + 1)
  { id := enrollment.id
    childId := enrollment.childId
    schoolId := enrollment.schoolId
    className := enrollment.className
    paymentStatus := enrollment.paymentStatus
    installmentFrequency := enrollment.installmentFrequency
    termStartDate := enrollment.termStartDate
    termEndDate := enrollment.termEndDate
    studentName := enrollment.childName
    childName := enrollment.childName
    schoolName := enrollment.schoolName
    totalFee := Money.toNaira enrollment.totalSchoolFee
    paidAmount := Money.toNaira (amounts confirmedPayments)
    remainingBalance := Money.toNaira enrollment.remainingBalance
    availableBalance := Money.toNaira availableKobo
    nextDueDate := nextDueDate.map isoDate
    nextInstallmentAmount := Money.toNaira progress.nextInstallmentAmount
    installmentsPaid := progress.paidInstallments
    installmentsTotal := progress.totalInstallments
    creditTowardNextInstallment := Money.toNaira progress.creditTowardNextInstallment
    payments := payments.map paymentView }

/-- The paid value the admin service sums for the arrears book. -/
def paidValue (payments : List EnrollmentPaymentRow) : Int :=
  amounts (payments.filter fun p => p.paymentType = .INSTALLMENT ∧ p.isConfirmed)

/-- What the admin service reports on an enrollment. -/
def arrearsOf (enrollment : EnrollmentRow) (termStartDate : Int) (installmentsPaidKobo now : Int) :
    ArrearsResult :=
  computeArrears
    { remainingBalance := enrollment.remainingBalance
      installmentFrequency := enrollment.installmentFrequency
      termStartDate
      termEndDate := enrollment.termEndDate
      installmentsPaidKobo } now

section Agreement

variable {enrollment : EnrollmentRow} {payments : List EnrollmentPaymentRow}

/-- The paid value is the one the view derives its progress from. -/
theorem paidValue_eq : amounts ((payments.filter (·.isConfirmed)).filter fun p =>
    p.paymentType = .INSTALLMENT) = paidValue payments := by
  rw [paidValue, List.filter_filter]
  simp only [Bool.decide_and, Bool.decide_eq_true]

theorem paidValue_nonneg (h : ∀ p ∈ payments, 0 ≤ p.amountPaid) : 0 ≤ paidValue payments := by
  apply List.sum_nonneg
  intro amount hamount
  obtain ⟨p, hp, rfl⟩ := List.mem_map.mp hamount
  exact h p (List.mem_of_mem_filter hp)

/-- The progress of an enrollment with its payments. -/
def progressOf (enrollment : EnrollmentRow) (payments : List EnrollmentPaymentRow) :
    PlanProgress :=
  derivePlanProgress
    ⟨enrollment.remainingBalance, paidValue payments, enrollment.installmentFrequency⟩

theorem view_installmentsPaid : (toEnrollmentView enrollment payments).installmentsPaid =
    (progressOf enrollment payments).paidInstallments := by
  simp only [toEnrollmentView, paidValue_eq]
  rfl

theorem view_quote : (toEnrollmentView enrollment payments).nextInstallmentAmount =
    Money.toNaira (progressOf enrollment payments).nextInstallmentAmount := by
  simp only [toEnrollmentView, paidValue_eq]
  rfl

theorem view_nextDueDate {termStartDate : Int} (h : enrollment.termStartDate = some termStartDate) :
    (toEnrollmentView enrollment payments).nextDueDate =
      if enrollment.remainingBalance ≤ 0 then none
      else some (isoDate (installmentDueDate termStartDate enrollment.installmentFrequency
        ((progressOf enrollment payments).paidInstallments + 1))) := by
  have hanchor : scheduleAnchor enrollment = some termStartDate := by
    rw [scheduleAnchor, h]
    rfl
  simp only [toEnrollmentView, paidValue_eq, hanchor, settled_iff]
  split <;> rfl

/-- The view and the arrears book agree on the slots paid for and on the next due date;
    within the term something is overdue exactly if an instalment was missed, and one
    payment of what the view quotes makes up for exactly one of them. -/
theorem view_agrees_with_arrears (enrollment : EnrollmentRow)
    (payments : List EnrollmentPaymentRow) (termStartDate now : Int)
    (hstart : enrollment.termStartDate = some termStartDate)
    (hr : 0 ≤ enrollment.remainingBalance) (hp : ∀ p ∈ payments, 0 ≤ p.amountPaid)
    (hslot : 0 < (enrollment.remainingBalance + paidValue payments) /
      installmentCountFor enrollment.installmentFrequency) :
    let view := toEnrollmentView enrollment payments
    let arrears := arrearsOf enrollment termStartDate (paidValue payments) now
    view.installmentsPaid = arrears.paidInstallments ∧
    view.nextDueDate = arrears.nextDueDate.map isoDate ∧
    (¬ enrollment.termEndDate < now →
      (0 < arrears.overdueAmount ↔ 0 < arrears.missedInstallments) ∧
      (0 < arrears.missedInstallments →
        let quote := Money.fromNaira view.nextInstallmentAmount
        let after := arrearsOf
          { enrollment with remainingBalance := enrollment.remainingBalance - quote }
          termStartDate (paidValue payments + quote) now
        after.missedInstallments = arrears.missedInstallments - 1 ∧
        after.overdueAmount = arrears.overdueAmount - quote)) := by
  intro view arrears
  have hpaid := paidValue_nonneg hp
  let input : ArrearsInput := ⟨enrollment.remainingBalance, enrollment.installmentFrequency,
    termStartDate, enrollment.termEndDate, paidValue payments⟩
  have hview : view.nextDueDate = _ := view_nextDueDate hstart
  rcases hr.lt_or_eq with hpos | hzero
  · have ha : InArrears input now arrears := computeArrears_open now hpos hpaid
    refine ⟨?_, ?_, ?_⟩
    · rw [ha.paid]
      exact view_installmentsPaid
    · rw [hview, if_neg (by omega), ha.next]
      rfl
    · intro hterm
      have hiff : 0 < (computeArrears input now).overdueAmount ↔
          0 < (computeArrears input now).missedInstallments :=
        overdue_pos_iff hr hpaid hslot hterm
      refine ⟨hiff, ?_⟩
      intro hmissed quote
      have hquote : quote = input.progress.nextInstallmentAmount := by
        have hshown : view.nextInstallmentAmount = _ := view_quote
        rw [show quote = Money.fromNaira view.nextInstallmentAmount from rfl, hshown,
          Money.fromNaira_toNaira]
        rfl
      have hbehind : input.progress.paidInstallments < input.expected now := by
        rw [ha.missed, if_neg hterm] at hmissed
        omega
      have hpaying : (computeArrears (input.paying input.progress.nextInstallmentAmount)
            now).missedInstallments = (computeArrears input now).missedInstallments - 1 ∧
          (computeArrears (input.paying input.progress.nextInstallmentAmount)
            now).overdueAmount = (computeArrears input now).overdueAmount -
              input.progress.nextInstallmentAmount :=
        paying_quote hpos hpaid hslot hterm hbehind
      rw [hquote]
      exact hpaying
  · have ha : arrears = _ := computeArrears_settled hzero.ge
    refine ⟨?_, ?_, ?_⟩
    · rw [ha]
      exact view_installmentsPaid
    · rw [hview, if_pos hzero.ge, ha]
      rfl
    · intro _
      rw [ha]
      exact ⟨Iff.rfl, fun h => absurd h (lt_irrefl 0)⟩

/-- A monthly plan of ₦90,000 with ₦40,000 paid in two transfers, after two months. -/
def monthlyPlan : EnrollmentRow where
  id := "plan"
  childId := "child"
  schoolId := "school"
  className := "JSS 1"
  totalSchoolFee := 12000000
  remainingBalance := 5000000
  paymentStatus := .ACTIVE
  installmentFrequency := .MONTHLY
  termStartDate := some 0
  termEndDate := 90 * DAY_MS
  createdAt := some 0
  childName := some "Ada"
  schoolName := some "Hill School"

def transfer (id : Id) (amountPaid day : Int) : EnrollmentPaymentRow where
  id
  amountPaid
  paymentType := .INSTALLMENT
  status := .SUCCESS
  isConfirmed := true
  paymentDate := day * DAY_MS
  receiptUrl := none

theorem view_agrees_with_arrears_monthly :
    let payments := [transfer "b" 1000000 40, transfer "a" 3000000 31]
    (toEnrollmentView monthlyPlan payments).installmentsPaid =
        (arrearsOf monthlyPlan 0 4000000 (60 * DAY_MS)).paidInstallments ∧
      (arrearsOf monthlyPlan 0 4000000 (60 * DAY_MS)).overdueAmount = 2000000 := by
  intro payments
  have hpaid : paidValue payments = 4000000 := by decide +kernel
  have hnonneg : ∀ p ∈ payments, 0 ≤ p.amountPaid := by decide
  have h := view_agrees_with_arrears monthlyPlan payments 0 (60 * DAY_MS) rfl (by decide) hnonneg
    (by rw [hpaid]; decide)
  rw [hpaid] at h
  exact ⟨h.1, by decide +kernel⟩

end Agreement

end Schedule

end Lopay
