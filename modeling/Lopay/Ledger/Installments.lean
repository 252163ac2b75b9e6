import Lopay.World

/-!
# Installments: confirm, reject, reverse

`confirmPayment`, `rejectPayment` and `reversePayment` of `LedgerService`. Each
pre-fetches the payment inside the acting school, then flips it with a guarded
`updateMany` inside a transaction; the row count of that update, not the
pre-fetch, decides.
-/

namespace Lopay

open Transactions

/-- What the three operations return about the payment. -/
structure PaymentReceipt where
  payment : Payment
  amount : ℚ
  date : Int
  type : PaymentType
  studentName : String
  className : String
  schoolName : String

def PaymentOfPlan.receipt (payment : PaymentOfPlan) (updated : Payment) : PaymentReceipt where
  payment := updated
  amount := Money.toNaira updated.amountPaid
  date := updated.paymentDate
  type := updated.paymentType
  studentName := payment.plan.child.fullName
  className := payment.plan.row.className
  schoolName := payment.plan.school.name

namespace Ledger

def ALREADY_CONFIRMED : Err := .badRequest "Payment not found or already confirmed"

def ALREADY_PROCESSED : Err := .badRequest "Payment not found or already processed"

def NOTHING_TO_REVERSE : Err := .badRequest "No confirmed installment payment found to reverse"

def confirmPayment (paymentId schoolId : Id) (actor : AuditActor) : Action PaymentReceipt := do
  let found ← read fun db => (db.payment? paymentId).filter fun p =>
    p.row.schoolId = schoolId ∧ p.row.isConfirmed = false ∧ p.row.paymentType = .INSTALLMENT
  let payment ← Routine.orThrow found ALREADY_CONFIRMED
  let result ← transaction do
    let now ← ask .now
    let confirmed ← updatePayments paymentId
      (fun p => p.schoolId = schoolId ∧ p.isConfirmed = false ∧ p.paymentType = .INSTALLMENT)
      (fun p => { p with isConfirmed := true, status := .SUCCESS, paymentDate := now })
    Routine.throwIf (confirmed = 0) ALREADY_CONFIRMED
    let before ← findOrThrow fun db => db.enrollments.lookup payment.row.enrollmentId
    let decremented ← updateEnrollment payment.row.enrollmentId fun e =>
      { e with remainingBalance := e.remainingBalance - payment.row.amountPaid }
    let isCompleted : Bool := decremented.remainingBalance ≤ 0
    let newBalance := max 0 decremented.remainingBalance
    Routine.onlyIf isCompleted do
      let _ ← updateEnrollment payment.row.enrollmentId fun e =>
        { e with remainingBalance := 0, paymentStatus := .COMPLETED }
    let updatedPayment ← findOrThrow fun db => db.payments.lookup paymentId
    record
      { action := .PAYMENT_CONFIRMED
        entityType := "Payment"
        entityId := paymentId
        actor := some actor
        schoolId := some schoolId
        reason := none
        before := some
          [("status", .transaction payment.row.status),
           ("isConfirmed", .bool payment.row.isConfirmed),
           ("remainingBalance", .num before.remainingBalance)]
        after := some
          [("status", .transaction .SUCCESS),
           ("isConfirmed", .bool true),
           ("remainingBalance", .num newBalance),
           ("enrollmentStatus", .plan (if isCompleted then .COMPLETED else before.paymentStatus))]
        metadata := some
          [("amount", .num payment.row.amountPaid),
           ("isCompleted", .bool isCompleted),
           ("selfApproved", .bool (payment.plan.parent.userId = actor.userId))] }
    createNotification
      { userId := payment.plan.parent.userId
        title := if isCompleted then "Payment Completed" else "Payment Confirmed"
        message := "Your payment of " ++ Money.formatNaira payment.row.amountPaid ++ " for " ++
          payment.plan.child.fullName ++ " (" ++ payment.plan.row.className ++ ") at " ++
          payment.plan.school.name ++ " has been confirmed." ++
          (if isCompleted then " All payments for this semester are now completed." else "")
        type := .PAYMENT
        link := some "/history" }
    pure (payment.receipt updatedPayment)
  let _ ← ask (.emitPaymentsChanged
    { parentUserId := some payment.plan.parent.userId, schoolId := some schoolId,
      notifyAdmins := true })
  pure result

def rejectPayment (paymentId schoolId : Id) (actor : AuditActor) : Action PaymentReceipt := do
  let found ← read fun db => (db.payment? paymentId).filter fun p =>
    p.row.schoolId = schoolId ∧ p.row.isConfirmed = false
  let payment ← Routine.orThrow found ALREADY_PROCESSED
  let result ← transaction do
    let rejected ← updatePayments paymentId
      (fun p => p.schoolId = schoolId ∧ p.isConfirmed = false)
      (fun p => { p with status := .FAILED })
    Routine.throwIf (rejected = 0) ALREADY_PROCESSED
    let updatedPayment ← findOrThrow fun db => db.payments.lookup paymentId
    let failedEnrollment : Bool := payment.row.paymentType = .FIRST_PAYMENT
    Routine.onlyIf failedEnrollment do
      let _ ← updateEnrollment payment.row.enrollmentId fun e => { e with paymentStatus := .FAILED }
    record
      { action := .PAYMENT_REJECTED
        entityType := "Payment"
        entityId := paymentId
        actor := some actor
        schoolId := some schoolId
        reason := none
        before := some
          [("status", .transaction payment.row.status),
           ("isConfirmed", .bool payment.row.isConfirmed)]
        after := some
          [("status", .transaction .FAILED),
           ("isConfirmed", .bool false),
           ("enrollmentFailed", .bool failedEnrollment)]
        metadata := some
          [("amount", .num payment.row.amountPaid),
           ("paymentType", .type payment.row.paymentType)] }
    createNotification
      { userId := payment.plan.parent.userId
        title := "Payment Rejected"
        message := "Your payment of " ++ Money.formatNaira payment.row.amountPaid ++ " for " ++
          payment.plan.child.fullName ++ " at " ++ payment.plan.school.name ++
          " has been rejected. Please contact the school."
        type := .ALERT
        link := some "/history" }
    pure (payment.receipt updatedPayment)
  let _ ← ask (.emitPaymentsChanged
    { parentUserId := some payment.plan.parent.userId, schoolId := some schoolId,
      notifyAdmins := true })
  pure result

def reversePayment (paymentId schoolId : Id) (actor : AuditActor) (reason : Option String) :
    Action PaymentReceipt := do
  let found ← read fun db => (db.payment? paymentId).filter fun p =>
    p.row.schoolId = schoolId ∧ p.row.isConfirmed = true ∧ p.row.status = .SUCCESS ∧
      p.row.paymentType = .INSTALLMENT
  let payment ← Routine.orThrow found NOTHING_TO_REVERSE
  let result ← transaction do
    let reversed ← updatePayments paymentId
      (fun p => p.schoolId = schoolId ∧ p.isConfirmed = true ∧ p.status = .SUCCESS ∧
        p.paymentType = .INSTALLMENT)
      (fun p => { p with status := .REVERSED, isConfirmed := false })
    Routine.throwIf (reversed = 0) NOTHING_TO_REVERSE
    let before ← findOrThrow fun db => db.enrollments.lookup payment.row.enrollmentId
    let reopened : Bool := before.paymentStatus = .COMPLETED
    let incremented ← updateEnrollment payment.row.enrollmentId fun e =>
      { e with
        remainingBalance := e.remainingBalance + payment.row.amountPaid
        paymentStatus := if reopened then .ACTIVE else before.paymentStatus }
    let restoredBalance := min incremented.remainingBalance before.totalSchoolFee
    Routine.onlyIf (before.totalSchoolFee < incremented.remainingBalance) do
      let _ ← updateEnrollment payment.row.enrollmentId fun e =>
        { e with remainingBalance := restoredBalance }
    let updatedPayment ← findOrThrow fun db => db.payments.lookup paymentId
    record
      { action := .PAYMENT_REVERSED
        entityType := "Payment"
        entityId := paymentId
        actor := some actor
        schoolId := some schoolId
        reason := reason
        before := some
          [("status", .transaction payment.row.status),
           ("isConfirmed", .bool true),
           ("remainingBalance", .num before.remainingBalance),
           ("enrollmentStatus", .plan before.paymentStatus)]
        after := some
          [("status", .transaction .REVERSED),
           ("isConfirmed", .bool false),
           ("remainingBalance", .num restoredBalance),
           ("enrollmentStatus", .plan (if reopened then .ACTIVE else before.paymentStatus))]
        metadata := some
          [("amount", .num payment.row.amountPaid),
           ("reopened", .bool reopened)] }
    createNotification
      { userId := payment.plan.parent.userId
        title := "Payment Confirmation Withdrawn"
        message := payment.plan.school.name ++ " has withdrawn its confirmation of a " ++
          Money.formatNaira payment.row.amountPaid ++ " payment for " ++
          payment.plan.child.fullName ++ " (" ++ payment.plan.row.className ++
          "), so that amount is showing as owed again." ++ reasonSuffix reason ++
          " No money has been refunded — please contact the school."
        type := .ALERT
        link := some "/history" }
    pure (payment.receipt updatedPayment)
  let _ ← ask (.emitPaymentsChanged
    { parentUserId := some payment.plan.parent.userId, schoolId := some schoolId,
      notifyAdmins := true })
  pure result

end Ledger

end Lopay
