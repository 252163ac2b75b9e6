import Lopay.World

/-!
# Manual first payments: settle, reject, confirm

`creditFirstPaymentToBalance` and the three operations on first payments that were
not collected by card: `settleFirstPayment` and `rejectFirstPayment` by an admin,
`confirmFirstPayment` by the school.
-/

namespace Lopay

open Transactions

namespace Ledger

/-- What a credited deposit leaves. -/
structure Credited where
  remainingBalance : Int
  isCompleted : Bool

/-- Credit the school's share of a first payment and move the plan to ACTIVE, or to
    COMPLETED when nothing is left. Runs inside the caller's transaction. -/
def creditFirstPaymentToBalance (enrollmentId : Id) (schoolAmountKobo : Int) :
    Action Credited := do
  let decremented ← updateEnrollment enrollmentId fun e =>
    { e with remainingBalance := e.remainingBalance - schoolAmountKobo }
  let isCompleted : Bool := decremented.remainingBalance ≤ 0
  let remainingBalance := max 0 decremented.remainingBalance
  let _ ← updateEnrollment enrollmentId fun e =>
    { e with
      remainingBalance := remainingBalance
      paymentStatus := if isCompleted then .COMPLETED else .ACTIVE }
  pure { remainingBalance, isCompleted }

def Credited.status (c : Credited) : PaymentStatus := if c.isCompleted then .COMPLETED else .ACTIVE

structure FirstPaymentReply where
  message : String
  paymentId : Id

def ALREADY_SETTLED : Err := .notFound "Payment not found or already settled"

def FIRST_ALREADY_PROCESSED : Err := .notFound "First payment not found or already processed"

/-- The manual first payments that `settleFirstPayment` and `rejectFirstPayment` act on. -/
def isManualFirstPayment (p : Payment) : Bool :=
  p.paymentType = .FIRST_PAYMENT ∧ p.receiver = .PLATFORM ∧ p.isConfirmed = false ∧
    p.paystackReference = none

def settleFirstPayment (paymentId : Id) (actor : AuditActor) : Action FirstPaymentReply := do
  let found ← read fun db => (db.payment? paymentId).filter fun p => isManualFirstPayment p.row
  let payment ← Routine.orThrow found ALREADY_SETTLED
  let settled ← transaction do
    let res ← updatePayments payment.id (fun p => p.isConfirmed = false)
      (fun p => { p with isConfirmed := true, status := .SUCCESS })
    if res = 0 then
      pure none
    else do
      let credited ← creditFirstPaymentToBalance payment.row.enrollmentId payment.row.schoolAmount
      record
        { action := .FIRST_PAYMENT_SETTLED
          entityType := "Payment"
          entityId := payment.id
          actor := some actor
          schoolId := some payment.plan.row.schoolId
          reason := none
          before := some
            [("isConfirmed", .bool false),
             ("paymentStatus", .plan payment.plan.row.paymentStatus),
             ("remainingBalance", .num payment.plan.row.remainingBalance)]
          after := some
            [("isConfirmed", .bool true),
             ("paymentStatus", .plan credited.status),
             ("remainingBalance", .num credited.remainingBalance)]
          metadata := some
            [("enrollmentId", .str payment.plan.id),
             ("amount", .num payment.row.amountPaid)] }
      insertNotification
        { userId := payment.plan.school.ownerId
          title := "First Payment Settled"
          message := "The platform has settled the first payment. Enrollment is now active."
          type := .PAYMENT
          link := some "/school-owner-dashboard" }
      let toParent : Notification :=
        { userId := payment.plan.parent.userId
          title := "Enrollment Confirmed"
          message := "Your first payment of " ++ Money.formatNaira payment.row.amountPaid ++
            " has been confirmed. Enrollment is active."
          type := .PAYMENT
          link := some "/dashboard" }
      insertNotification toParent
      pure (some toParent)
  let pushed ← Routine.orThrow settled ALREADY_SETTLED
  let _ ← ask (.pushNotification payment.plan.parent.userId pushed)
  emitChanges
    { parentUserId := some payment.plan.parent.userId, schoolId := some payment.row.schoolId,
      notifyAdmins := true }
  pure
    { message := "Payment settled and enrollment activated successfully"
      paymentId := payment.id }

def rejectFirstPayment (paymentId : Id) (actor : AuditActor) : Action FirstPaymentReply := do
  let found ← read fun db => (db.payment? paymentId).filter fun p => isManualFirstPayment p.row
  let payment ← Routine.orThrow found FIRST_ALREADY_PROCESSED
  let rejectedOk ← transaction do
    let res ← updatePayments payment.id (fun p => p.isConfirmed = false)
      (fun p => { p with status := .FAILED })
    if res = 0 then
      pure none
    else do
      let _ ← updateEnrollment payment.row.enrollmentId fun e => { e with paymentStatus := .FAILED }
      record
        { action := .FIRST_PAYMENT_REJECTED
          entityType := "Payment"
          entityId := payment.id
          actor := some actor
          schoolId := some payment.plan.row.schoolId
          reason := none
          before := some
            [("isConfirmed", .bool false),
             ("paymentStatus", .plan payment.plan.row.paymentStatus)]
          after := some
            [("status", .transaction .FAILED),
             ("paymentStatus", .plan .FAILED)]
          metadata := some
            [("enrollmentId", .str payment.plan.id),
             ("amount", .num payment.row.amountPaid)] }
      insertNotification
        { userId := payment.plan.school.ownerId
          title := "First Payment Rejected"
          message := "The platform has rejected the first payment for this enrollment. " ++
            "Please review the receipt or contact the parent."
          type := .PAYMENT
          link := some "/school-owner-dashboard" }
      let toParent : Notification :=
        { userId := payment.plan.parent.userId
          title := "First Payment Rejected"
          message := "Your first payment could not be verified. " ++
            "Please pay again and upload a clearer receipt."
          type := .ALERT
          link := some "/dashboard" }
      insertNotification toParent
      pure (some toParent)
  let pushed ← Routine.orThrow rejectedOk FIRST_ALREADY_PROCESSED
  let _ ← ask (.pushNotification payment.plan.parent.userId pushed)
  emitChanges
    { parentUserId := some payment.plan.parent.userId, schoolId := some payment.row.schoolId,
      notifyAdmins := true }
  pure
    { message := "First payment rejected and enrollment marked as failed"
      paymentId := payment.id }

def CONFIRMED_BY_CARD : Err := .badRequest ("This first payment is collected by card and is " ++
  "confirmed automatically once the payment provider settles it.")

/-- The unconfirmed first payments of a plan, collected by hand or by card. -/
def unconfirmedFirstPayments (enrollmentId : Id) (byCard : Bool) (db : Db) : List (Id × Payment) :=
  db.paymentsOf enrollmentId fun p =>
    p.paymentType = .FIRST_PAYMENT ∧ p.isConfirmed = false ∧ p.paystackReference.isSome = byCard

def confirmFirstPayment (enrollmentId schoolId : Id) (actor : AuditActor) : Action String := do
  let parentUserId ← transaction do
    let found ← read fun db => db.plan? enrollmentId
    let enrollment ← Routine.orThrow found (.badRequest "Enrollment not found")
    Routine.throwIf (enrollment.row.schoolId ≠ schoolId)
      (.badRequest "Enrollment does not belong to this school")
    Routine.throwIf (enrollment.row.paymentStatus ≠ .PENDING)
      (.badRequest "Enrollment is not in pending status")
    let first ← findFirst (unconfirmedFirstPayments enrollmentId false)
    match first with
    | none => do
      let cardPayment ← findFirst (unconfirmedFirstPayments enrollmentId true)
      Routine.throwIf (cardPayment.isSome) CONFIRMED_BY_CARD
      throw (.badRequest "No pending first payment found")
    | some (paymentId, payment) => do
      let now ← ask .now
      let confirmed ← updatePayments paymentId (fun p => p.isConfirmed = false)
        (fun p => { p with isConfirmed := true, status := .SUCCESS, paymentDate := now })
      Routine.throwIf (confirmed = 0) (.badRequest "First payment already processed")
      let credited ← creditFirstPaymentToBalance enrollmentId payment.schoolAmount
      record
        { action := .FIRST_PAYMENT_CONFIRMED
          entityType := "Payment"
          entityId := paymentId
          actor := some actor
          schoolId := some schoolId
          reason := none
          before := some
            [("paymentStatus", .plan .PENDING),
             ("isConfirmed", .bool payment.isConfirmed),
             ("remainingBalance", .num enrollment.row.remainingBalance)]
          after := some
            [("paymentStatus", .plan credited.status),
             ("isConfirmed", .bool true),
             ("remainingBalance", .num credited.remainingBalance)]
          metadata := some
            [("enrollmentId", .str enrollmentId),
             ("amount", .num payment.amountPaid)] }
      createNotification
        { userId := enrollment.parent.userId
          title := "Enrollment Confirmed"
          message := "Your enrollment for " ++ enrollment.child.fullName ++ " (" ++
            enrollment.row.className ++ ") at " ++ enrollment.school.name ++
            " has been confirmed."
          type := .PAYMENT
          link := some "/dashboard" }
      pure enrollment.parent.userId
  emitChanges
    { parentUserId := some parentUserId, schoolId := some schoolId, notifyAdmins := true }
  pure "First payment confirmed and enrollment activated"

end Ledger

end Lopay
