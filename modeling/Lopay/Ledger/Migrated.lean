import Lopay.World

/-!
# Migrated plans

Plans that open on money the school had collected before: the figures of
`common/migrated-plan.ts`, `recordMigratedEnrollment`, which writes the opening
position inside its caller's transaction, and `amendMigratedPayment`, which
restates it.
-/

namespace Lopay

open Transactions

structure MigratedPlanFigures where
  remainingBalance : Int
  platformFee : Int
  paymentStatus : PaymentStatus

def deriveMigratedPlan (totalSchoolFee amountAlreadyPaid : Int) : MigratedPlanFigures :=
  let remainingBalance := max 0 (totalSchoolFee - amountAlreadyPaid)
  { remainingBalance
    platformFee := Money.percent totalSchoolFee MIGRATED_ENROLLMENT_PLATFORM_FEE_RATE
    paymentStatus := if remainingBalance = 0 then .COMPLETED else .ACTIVE }

def migratedPaymentDate (planStartDate now : Int) : Int :=
  if now < planStartDate then now else planStartDate

def statusAfterMigratedAmendment (current : PaymentStatus) (nextBalance : Int) : PaymentStatus :=
  if nextBalance ≤ 0 then .COMPLETED
  else if current = .COMPLETED then .ACTIVE
  else current

namespace Ledger

/-- Translate a unique violation of the claim write into a reason a parent can act on. -/
def asMigratedEnrollmentConflict : Err → Err
  | .unique target =>
    if target = "enrollmentInviteId" then .badRequest "This invite has already been claimed"
    else .badRequest ("This child already has a payment plan. Ask the school to cancel this " ++
      "invite and correct the existing plan instead.")
  | e => e

structure MigratedEnrollment where
  enrollmentId : Id
  enrollment : ChildEnrollment
  paymentId : Id
  payment : Payment
  figures : MigratedPlanFigures

/-- The opening enrollment of a migrated plan. -/
def migratedEnrollment (inviteId : Id) (invite : EnrollmentInvite) (childId : Id) :
    ChildEnrollment :=
  let figures := deriveMigratedPlan invite.totalSchoolFee invite.amountAlreadyPaid
  { childId
    schoolId := invite.schoolId
    className := invite.className
    totalSchoolFee := invite.totalSchoolFee
    platformFee := figures.platformFee
    schoolMinimumFee := 0
    firstPaymentPaid := invite.amountAlreadyPaid
    remainingBalance := figures.remainingBalance
    paymentStatus := figures.paymentStatus
    installmentFrequency := invite.installmentFrequency
    termStartDate := invite.planStartDate
    termEndDate := invite.termEndDate
    enrollmentInviteId := some inviteId }

/-- The opening payment of a migrated plan. -/
def migratedPayment (enrollmentId : Id) (invite : EnrollmentInvite) (now : Int) : Payment :=
  let figures := deriveMigratedPlan invite.totalSchoolFee invite.amountAlreadyPaid
  { enrollmentId
    schoolId := invite.schoolId
    idempotencyKey := none
    amountPaid := invite.amountAlreadyPaid
    platformAmount := figures.platformFee
    schoolAmount := invite.amountAlreadyPaid
    receiver := .SCHOOL
    paymentType := .MIGRATED_PAYMENT
    status := .SUCCESS
    isConfirmed := true
    paymentDate := migratedPaymentDate invite.planStartDate now
    receiptUrl := none
    paystackReference := none
    paystackAccessCode := none
    amountCharged := none
    paystackFee := none
    actualPaystackFee := none
    transactionCharge := none }

/-- Runs inside the transaction of its caller, which has claimed the invite. -/
def recordMigratedEnrollment (inviteId : Id) (invite : EnrollmentInvite) (childId : Id)
    (parentUserId : Id) (actor : AuditActor) : Action MigratedEnrollment := do
  let figures := deriveMigratedPlan invite.totalSchoolFee invite.amountAlreadyPaid
  let enrollment := migratedEnrollment inviteId invite childId
  let enrollmentId ← ask .randomUUID
  tryCatch (createEnrollment enrollmentId enrollment)
    (fun error => throw (asMigratedEnrollmentConflict error))
  let paymentId ← ask .randomUUID
  let now ← ask .now
  let payment := migratedPayment enrollmentId invite now
  createPayment paymentId payment
  record
    { action := .ENROLLMENT_INVITE_CLAIMED
      entityType := "Payment"
      entityId := paymentId
      actor := some actor
      schoolId := some invite.schoolId
      reason := none
      before := none
      after := some
        [("enrollmentId", .str enrollmentId),
         ("totalSchoolFee", .num invite.totalSchoolFee),
         ("amountAlreadyPaid", .num invite.amountAlreadyPaid),
         ("remainingBalance", .num figures.remainingBalance),
         ("enrollmentStatus", .plan figures.paymentStatus)]
      metadata := some
        [("enrollmentInviteId", .str inviteId),
         ("childId", .str childId),
         ("parentUserId", .str parentUserId),
         ("studentName", .str invite.studentName),
         ("className", .str invite.className),
         ("assertedBySchool", .bool true)] }
  pure { enrollmentId, enrollment, paymentId, payment, figures }

/-- What the parent is told when a claim lands. -/
def migratedClaimMessage (schoolName studentName className : String)
    (amountAlreadyPaid remainingBalance : Int) : String :=
  let student := studentName ++ " (" ++ className ++ ")"
  let remaining := Money.formatNaira remainingBalance
  if amountAlreadyPaid = 0 then
    schoolName ++ " has set up a Lopay plan for " ++ student ++ ". " ++ remaining ++
      " is due, spread over your new plan."
  else
    schoolName ++ " has recorded " ++ Money.formatNaira amountAlreadyPaid ++
      " already paid for " ++ student ++ ". " ++
      (if remainingBalance = 0 then "This term’s fees are fully paid."
        else remaining ++ " remains, spread over your new plan.")

/-- The effects of a claim that has been committed; they never fail it. -/
def announceMigratedEnrollment (parentUserId schoolId : Id)
    (schoolName studentName className : String) (amountAlreadyPaid remainingBalance : Int) :
    Action Unit := do
  emitChanges
    { parentUserId := some parentUserId, schoolId := some schoolId, notifyAdmins := true }
  tryCatch
    (createNotification
      { userId := parentUserId
        title := "Previous payments added"
        message := migratedClaimMessage schoolName studentName className amountAlreadyPaid
          remainingBalance
        type := .PAYMENT
        link := some "/history" })
    (fun _ => pure ())

/-- The installments of an enrollment that have been paid. -/
def settledInstallments (payments : List (Id × Payment)) : List (Id × Payment) :=
  payments.filter fun r =>
    r.2.paymentType = .INSTALLMENT ∧ r.2.isConfirmed = true ∧ r.2.status = .SUCCESS

def planHasBeenPaid (settled : List (Id × Payment)) : Err :=
  .badRequest ("This plan cannot be removed: " ++
    Money.formatNaira (settled.map fun r => r.2.amountPaid).sum ++ " has been paid in " ++
    Nat.repr settled.length ++ " instalment" ++ (if settled.length = 1 then "" else "s") ++
    " against it. Agree a refund with whoever paid before removing the plan.")

/-- Remove a plan that a claim of the wrong person made: its payments, the enrollment and
    the child. Runs inside the transaction of its caller. -/
def releaseMigratedEnrollment (enrollmentId childId inviteId schoolId : Id) (actor : AuditActor)
    (reason : Option String) : Action Nat := do
  let found ← read fun db => (db.enrollments.lookup enrollmentId).map fun e =>
    (e, db.paymentsOf enrollmentId fun _ => true)
  let (enrollment, payments) ← Routine.orThrow found (.notFound "This plan no longer exists")
  let settled := settledInstallments payments
  Routine.throwIf (settled ≠ []) (planHasBeenPaid settled)
  let before : AuditFields :=
    [("enrollmentId", .str enrollmentId),
     ("childId", .str childId),
     ("className", .str enrollment.className),
     ("totalSchoolFee", .num enrollment.totalSchoolFee),
     ("firstPaymentPaid", .num enrollment.firstPaymentPaid),
     ("remainingBalance", .num enrollment.remainingBalance),
     ("paymentStatus", .plan enrollment.paymentStatus),
     ("termStartDate", .num enrollment.termStartDate),
     ("termEndDate", .num enrollment.termEndDate),
     ("payments", .rows (payments.map fun r =>
       [("id", .str r.1),
        ("amountPaid", .num r.2.amountPaid),
        ("paymentType", .type r.2.paymentType),
        ("status", .transaction r.2.status),
        ("isConfirmed", .bool r.2.isConfirmed),
        ("paymentDate", .num r.2.paymentDate)]))]
  let removedPayments ← deletePayments enrollmentId
  deleteEnrollment enrollmentId
  deleteChild childId
  record
    { action := .ENROLLMENT_INVITE_RELEASED
      entityType := "EnrollmentInvite"
      entityId := inviteId
      actor := some actor
      schoolId := some schoolId
      reason := reason
      before := some before
      after := none
      metadata := some [("removedPayments", .num removedPayments)] }
  pure removedPayments

structure Amended where
  enrollmentId : Id
  previousAmount : ℚ
  amountAlreadyPaid : ℚ
  remainingBalance : ℚ
  paymentStatus : PaymentStatus

def NOT_MIGRATED : Err := .badRequest ("This plan did not start from an enrollment invite, so " ++
  "there is no migrated amount to correct")

def overpaidBy (newAmountKobo nextBalance installmentsPaid : Int) : Err :=
  .badRequest ("Correcting to " ++ Money.formatNaira newAmountKobo ++
    " would leave this plan overpaid by " ++ Money.formatNaira (-nextBalance) ++ ", because " ++
    Money.formatNaira installmentsPaid ++ " has since been paid in instalments. Reverse those " ++
    "payments first, or agree a refund with the parent.")

/-- The migrated payments of a plan that stand. -/
def migratedPayments (enrollmentId : Id) (db : Db) : List (Id × Payment) :=
  db.paymentsOf enrollmentId fun p => p.paymentType = .MIGRATED_PAYMENT ∧ p.status = .SUCCESS

/-- The sum of the installments confirmed on a plan. -/
def installmentsConfirmed (enrollmentId : Id) (db : Db) : Int :=
  db.sumAmountPaid enrollmentId fun p =>
    p.paymentType = .INSTALLMENT ∧ p.isConfirmed = true ∧ p.status = .SUCCESS

/-- `enrollmentInvite.updateMany` for the invite a plan came from, if any. -/
def restateInvite (inviteId : Option Id) (amountAlreadyPaid : Int) : Action Unit :=
  match inviteId with
  | none => pure ()
  | some inviteId =>
    statement fun db => match db.invites.lookup inviteId with
      | some invite => .ok ((), [.putInvite inviteId { invite with amountAlreadyPaid }])
      | none => .ok ((), [])

def amendMigratedPayment (enrollmentId : Id) (newAmountKobo : Int) (schoolId : Id)
    (actor : AuditActor) (reason : Option String) : Action Amended := do
  Routine.throwIf (newAmountKobo < 0) (.badRequest "Corrected amount must be zero or more")
  let found ← read fun db => ((db.plan? enrollmentId).filter fun e => e.row.schoolId = schoolId).map
    fun e => (e, migratedPayments enrollmentId db)
  let (enrollment, payments) ← Routine.orThrow found
    (.notFound "Enrollment not found for this school")
  let order ← ask (.rowOrder payments.length)
  let (migratedId, migrated) ← Routine.orThrow (arrange payments order).head? NOT_MIGRATED
  Routine.throwIf (enrollment.row.totalSchoolFee < newAmountKobo)
    (.badRequest ("Corrected amount cannot exceed the school fee of " ++
      Money.formatNaira enrollment.row.totalSchoolFee))
  let previousAmount := migrated.amountPaid
  Routine.throwIf (previousAmount = newAmountKobo)
    (.badRequest "The corrected amount is the same as the recorded one")
  let result ← transaction do
    let row ← lockEnrollment enrollmentId
    let locked ← Routine.orThrow row (.notFound "Enrollment not found")
    let installmentsPaid ← read (installmentsConfirmed enrollmentId)
    let nextBalance := locked.totalSchoolFee - newAmountKobo - installmentsPaid
    Routine.throwIf (nextBalance < 0) (overpaidBy newAmountKobo nextBalance installmentsPaid)
    let restated ← updatePayments migratedId
      (fun p => p.amountPaid = previousAmount ∧ p.status = .SUCCESS ∧
        p.paymentType = .MIGRATED_PAYMENT)
      (fun p => { p with amountPaid := newAmountKobo, schoolAmount := newAmountKobo })
    Routine.throwIf (restated = 0)
      (.badRequest "This migrated amount was changed by someone else — reload and try again")
    let updated ← updateEnrollment enrollmentId fun e =>
      { e with
        firstPaymentPaid := newAmountKobo
        remainingBalance := nextBalance
        paymentStatus := statusAfterMigratedAmendment locked.paymentStatus nextBalance }
    restateInvite enrollment.row.enrollmentInviteId newAmountKobo
    record
      { action := .MIGRATED_PAYMENT_AMENDED
        entityType := "Payment"
        entityId := migratedId
        actor := some actor
        schoolId := some schoolId
        reason := reason
        before := some
          [("amountPaid", .num previousAmount),
           ("remainingBalance", .num locked.remainingBalance),
           ("enrollmentStatus", .plan locked.paymentStatus)]
        after := some
          [("amountPaid", .num newAmountKobo),
           ("remainingBalance", .num updated.remainingBalance),
           ("enrollmentStatus", .plan updated.paymentStatus)]
        metadata := some
          [("enrollmentId", .str enrollmentId),
           ("installmentsPaid", .num installmentsPaid)] }
    pure updated
  let parentUserId := enrollment.parent.userId
  emitChanges
    { parentUserId := some parentUserId, schoolId := some schoolId, notifyAdmins := true }
  tryCatch
    (createNotification
      { userId := parentUserId
        title := "Previous payment corrected"
        message := enrollment.school.name ++
          " has corrected the amount recorded as already paid for " ++
          enrollment.child.fullName ++ " (" ++ enrollment.row.className ++ ") from " ++
          Money.formatNaira previousAmount ++ " to " ++ Money.formatNaira newAmountKobo ++
          ". You now owe " ++ Money.formatNaira result.remainingBalance ++ "." ++
          reasonSuffix reason ++
          (if previousAmount < newAmountKobo then ""
            else " If you believe this is wrong, contact the school before your next payment.")
        type := .ALERT
        link := some "/history" })
    (fun _ => pure ())
  pure
    { enrollmentId
      previousAmount := Money.toNaira previousAmount
      amountAlreadyPaid := Money.toNaira newAmountKobo
      remainingBalance := Money.toNaira result.remainingBalance
      paymentStatus := result.paymentStatus }

end Ledger

end Lopay
