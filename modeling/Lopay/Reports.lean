import Lopay.Books.Jobs

/-!
# What is pending at a school

The headline figures of a school's own dashboard, and the summary of all schools that an
admin sees. The dashboard counts the school's share of PENDING installments and first
payments; the summary counts the gross amount of every payment that is not confirmed.
-/

namespace Lopay

open Transactions

structure SchoolSummary where
  schoolId : Id
  schoolName : String
  totalStudents : Nat
  pendingAmount : ℚ
  collectedAmount : ℚ

structure DashboardStats where
  totalStudents : Nat
  activeStudents : Nat
  totalRevenue : ℚ
  pendingRevenue : ℚ
  awaitingActivation : ℚ
  defaultedAmount : ℚ

/-- `MOVED_THROUGH_LOPAY`: not money that a school banked before it came to Lopay. -/
def Payment.movedThroughLopay (p : Payment) : Bool := p.paymentType ≠ .MIGRATED_PAYMENT

namespace Db

variable (db : Db)

/-- `_sum` of a column over the payments that a filter lets through. -/
def sumPayments (filter : Payment → Bool) (column : Payment → Int) : Int :=
  Table.total (fun _ p => if filter p then column p else 0) db.payments

def countEnrollments (filter : ChildEnrollment → Bool) : Nat :=
  (db.enrollments.rows.filter fun r => filter r.2).length

/-- The per-school summary; a school without such rows gets 0 for each figure. -/
def computeSchoolsSummary : List SchoolSummary :=
  (db.schools.rows.mergeSort fun a b => a.2.name ≤ b.2.name).map fun s =>
    { schoolId := s.1
      schoolName := s.2.name
      totalStudents := db.countEnrollments fun e => e.schoolId = s.1
      pendingAmount := Money.toNaira
        (db.sumPayments (fun p => p.schoolId = s.1 ∧ p.isConfirmed = false) (·.amountPaid))
      collectedAmount := Money.toNaira
        (db.sumPayments (fun p => p.schoolId = s.1 ∧ p.isConfirmed ∧ p.movedThroughLopay)
          (·.schoolAmount)) }

/-- A payment of the school that waits for the approval or the settlement of its kind. -/
def awaiting (schoolId : Id) (paymentType : PaymentType) (p : Payment) : Bool :=
  p.schoolId = schoolId ∧ p.isConfirmed = false ∧ p.status = .PENDING ∧
    p.paymentType = paymentType

/-- Dashboard headline figures. -/
def getDashboardStats (schoolId : Id) : DashboardStats where
  totalStudents := db.countEnrollments fun e => e.schoolId = schoolId
  activeStudents := db.countEnrollments fun e => e.schoolId = schoolId ∧ e.paymentStatus = .ACTIVE
  totalRevenue := Money.toNaira (db.sumPayments (fun p => p.schoolId = schoolId ∧ p.isConfirmed ∧
    p.status = .SUCCESS ∧ p.movedThroughLopay) (·.schoolAmount))
  pendingRevenue := Money.toNaira
    (db.sumPayments (awaiting schoolId .INSTALLMENT) (·.schoolAmount))
  awaitingActivation := Money.toNaira
    (db.sumPayments (awaiting schoolId .FIRST_PAYMENT) (·.schoolAmount))
  defaultedAmount := Money.toNaira (Table.total (fun _ e =>
    if e.schoolId = schoolId ∧ e.paymentStatus = .DEFAULTED then e.remainingBalance else 0)
      db.enrollments)

end Db

/-! ### Where the two differ -/

/-- What the summary counts of an unconfirmed payment beyond the dashboard: the platform's
    share of a pending one, and all of any other. -/
def Payment.overcounted (p : Payment) : Int :=
  if p.status = .PENDING ∧ (p.paymentType = .INSTALLMENT ∨ p.paymentType = .FIRST_PAYMENT) then
    p.amountPaid - p.schoolAmount
  else p.amountPaid

section Pending

variable {db : Db} {schoolId : Id}

/-- Per payment, what the summary counts is what the dashboard counts and the rest. -/
theorem counted_eq (p : Payment) :
    (if decide (p.schoolId = schoolId ∧ p.isConfirmed = false) = true then p.amountPaid else 0) =
      (if Db.awaiting schoolId .INSTALLMENT p = true then p.schoolAmount else 0) +
      ((if Db.awaiting schoolId .FIRST_PAYMENT p = true then p.schoolAmount else 0) +
        if decide (p.schoolId = schoolId ∧ p.isConfirmed = false) = true then p.overcounted
        else 0) := by
  unfold Payment.overcounted
  by_cases hcounted : p.schoolId = schoolId ∧ p.isConfirmed = false
  · cases hstatus : p.status <;> cases htype : p.paymentType <;>
      simp [Db.awaiting, hcounted, hstatus, htype]
  · have hnot (t : PaymentType) : Db.awaiting schoolId t p = false := by
      simp only [Db.awaiting, decide_eq_false_iff_not]
      rintro ⟨hschool, hconfirmed, -⟩
      exact hcounted ⟨hschool, hconfirmed⟩
    simp [hcounted, hnot]

theorem pending_split : db.sumPayments (fun p => p.schoolId = schoolId ∧ p.isConfirmed = false)
      (·.amountPaid) =
    db.sumPayments (Db.awaiting schoolId .INSTALLMENT) (·.schoolAmount) +
      (db.sumPayments (Db.awaiting schoolId .FIRST_PAYMENT) (·.schoolAmount) +
        db.sumPayments (fun p => p.schoolId = schoolId ∧ p.isConfirmed = false)
          Payment.overcounted) := by
  unfold Db.sumPayments
  rw [← Table.total_add, ← Table.total_add]
  apply Table.total_congr
  intro _ p _
  exact counted_eq p

/-- A sum of amounts that are not negative is 0 only if each of them is. -/
theorem sumPayments_eq_zero {filter : Payment → Bool} {column : Payment → Int}
    (h : ∀ k p, db.payments.lookup k = some p → filter p → 0 ≤ column p) :
    db.sumPayments filter column = 0 ↔
      ∀ k p, db.payments.lookup k = some p → filter p → column p = 0 := by
  have hnonneg : ∀ k p, db.payments.lookup k = some p → 0 ≤ if filter p then column p else 0 := by
    intro k p hp
    split
    · next hcounted => exact h k p hp hcounted
    · exact le_refl 0
  constructor
  · intro hzero k p hp hcounted
    have hle := Table.le_total hnonneg hp
    rw [if_pos hcounted] at hle
    have hge := h k p hp hcounted
    unfold Db.sumPayments at hzero
    omega
  · intro hall
    have hzero : db.sumPayments filter column = Table.total (fun _ _ => 0) db.payments := by
      apply Table.total_congr
      intro k p hp
      split
      · next hcounted => exact hall k p hp hcounted
      · rfl
    rw [hzero]
    simp [Table.total]

end Pending

/-- The summary agrees with the dashboard of a school exactly if the unconfirmed payments
    of the school that are no pending installments or first payments, and the platform's
    shares of those that are, come to nothing; where no share is negative, if each does. -/
theorem pending_figures_agree (db : Db) (summary : SchoolSummary)
    (h : summary ∈ db.computeSchoolsSummary) :
    let stats := db.getDashboardStats summary.schoolId
    let unconfirmed := fun p : Payment => decide (p.schoolId = summary.schoolId ∧
      p.isConfirmed = false)
    (summary.pendingAmount = stats.pendingRevenue + stats.awaitingActivation ↔
      db.sumPayments unconfirmed Payment.overcounted = 0) ∧
    ((∀ k p, db.payments.lookup k = some p → unconfirmed p → 0 ≤ p.overcounted) →
      (summary.pendingAmount = stats.pendingRevenue + stats.awaitingActivation ↔
        ∀ k p, db.payments.lookup k = some p → unconfirmed p → p.overcounted = 0)) := by
  obtain ⟨⟨schoolId, school⟩, -, rfl⟩ := List.mem_map.mp h
  intro stats unconfirmed
  have hiff : Money.toNaira (db.sumPayments unconfirmed (·.amountPaid)) =
      stats.pendingRevenue + stats.awaitingActivation ↔
        db.sumPayments unconfirmed Payment.overcounted = 0 := by
    have hshown : stats.pendingRevenue + stats.awaitingActivation = Money.toNaira
        (db.sumPayments (Db.awaiting schoolId .INSTALLMENT) (·.schoolAmount) +
          db.sumPayments (Db.awaiting schoolId .FIRST_PAYMENT) (·.schoolAmount)) :=
      (Money.toNaira_add _ _).symm
    have hsplit : db.sumPayments unconfirmed (·.amountPaid) = _ := pending_split
    rw [hshown, Money.toNaira_inj, hsplit]
    constructor
    · intro hzero
      linarith
    · intro hzero
      rw [hzero]
      ring
  refine ⟨hiff, ?_⟩
  intro hshares
  exact hiff.trans (sumPayments_eq_zero hshares)

/-- A transfer of ₦1,000 that the owner has rejected, or has yet to approve. -/
def submitted (status : PaymentTransactionStatus) : Payment where
  enrollmentId := "plan"
  schoolId := "school"
  idempotencyKey := none
  amountPaid := 100000
  platformAmount := 0
  schoolAmount := 100000
  receiver := .SCHOOL
  paymentType := .INSTALLMENT
  status := status
  isConfirmed := false
  paymentDate := 0
  receiptUrl := none
  paystackReference := none
  paystackAccessCode := none
  amountCharged := none
  paystackFee := none
  actualPaystackFee := none
  transactionCharge := none

def withTransfer (status : PaymentTransactionStatus) : Db :=
  { oneFamily with payments := [⟨"transfer", submitted status⟩].toAList }

theorem withTransfer_summary (status : PaymentTransactionStatus) :
    ⟨"school", "Unity School", 0, Money.toNaira 100000, Money.toNaira 0⟩ ∈
      (withTransfer status).computeSchoolsSummary := by
  unfold Db.computeSchoolsSummary
  have hrows : (withTransfer status).schools.rows = [_] := rfl
  rw [hrows, List.mergeSort_singleton]
  cases status <;> exact List.mem_singleton.mpr rfl

/-- The pending transfer is pending for both. -/
theorem pending_figures_agree_transfer :
    let stats := (withTransfer .PENDING).getDashboardStats "school"
    Money.toNaira 100000 = stats.pendingRevenue + stats.awaitingActivation := by
  have h := (pending_figures_agree _ _ (withTransfer_summary .PENDING)).1
  exact h.mpr (by decide)

/-- A rejected transfer stays pending for the admin, and for the school it is not. -/
theorem rejected_still_pending :
    ∃ summary ∈ (withTransfer .FAILED).computeSchoolsSummary,
      let stats := (withTransfer .FAILED).getDashboardStats summary.schoolId
      summary.pendingAmount = 1000 ∧ stats.pendingRevenue + stats.awaitingActivation = 0 :=
  ⟨_, withTransfer_summary .FAILED, by decide +kernel⟩

end Lopay
