import Lopay.Enrollment.FirstPayment

/-!
# Submitting an installment

`submitInstallmentPayment`: the parent declares a transfer of any amount up to what
is still available, which is the balance less what other submissions have reserved.
-/

namespace Lopay

open Transactions

/-- The signed-in user of a request. -/
structure AuthUser where
  userId : Id
  role : UserRole
  schoolId : Option Id

structure InstallmentReply where
  payment : Payment
  amount : ℚ
  date : Int
  type : PaymentType
  studentName : String
  schoolName : String

namespace Enrollment

def installmentReply (payment : Payment) (plan : Plan) : InstallmentReply where
  payment := payment
  amount := Money.toNaira payment.amountPaid
  date := payment.paymentDate
  type := payment.paymentType
  studentName := plan.child.fullName
  schoolName := plan.school.name

def installmentPayment (enrollmentId schoolId : Id) (amountPaidKobo : Int)
    (receiptUrl idempotencyKey : Option String) (now : Int) : Payment where
  enrollmentId := enrollmentId
  schoolId := schoolId
  idempotencyKey := idempotencyKey
  amountPaid := amountPaidKobo
  platformAmount := 0
  schoolAmount := amountPaidKobo
  receiver := .SCHOOL
  paymentType := .INSTALLMENT
  status := .PENDING
  isConfirmed := false
  paymentDate := now
  receiptUrl := receiptUrl
  paystackReference := none
  paystackAccessCode := none
  amountCharged := none
  paystackFee := none
  actualPaystackFee := none
  transactionCharge := none

/-- What the submissions on a plan that nobody has decided on reserve. -/
def installmentsReserved (enrollmentId : Id) (db : Db) : Int :=
  db.sumAmountPaid enrollmentId fun p =>
    p.paymentType = .INSTALLMENT ∧ p.status = .PENDING ∧ p.isConfirmed = false

def NOT_YOURS_TO_PAY (user : AuthUser) (schoolId : Id) : Err :=
  if user.role = .SCHOOL_OWNER ∧ (given user.schoolId).isSome ∧ some schoolId = user.schoolId then
    .forbidden ("A school cannot record a payment on a parent’s behalf — the parent submits it, " ++
      "the school confirms it.")
  else .forbidden "You are not authorized to pay this enrollment"

def submitInstallmentPayment (enrollmentId : Id) (amountPaid : ℚ) (user : AuthUser)
    (receiptUrl idempotencyKey : Option String) : Action InstallmentReply := do
  assertOwnedReceiptPath receiptUrl user.userId
  let replayed ← replayIntent idempotencyKey
  match replayed with
  | some existing => pure (installmentReply existing.row existing.plan)
  | none => do
    let found ← read fun db => db.plan? enrollmentId
    let enrollment ← Routine.orThrow found (.notFound "Enrollment not found")
    Routine.throwIf (enrollment.parent.userId ≠ user.userId)
      (NOT_YOURS_TO_PAY user enrollment.row.schoolId)
    let amountPaidKobo := Money.fromNaira amountPaid
    Routine.throwIf (amountPaidKobo ≤ 0)
      (.badRequest "Payment amount must be greater than zero")
    let result ← tryCatch
      (do
        let payment ← transaction do
          let row ← lockEnrollment enrollmentId
          let locked ← Routine.orThrow row (.notFound "Enrollment not found")
          let reservedKobo ← read (installmentsReserved enrollmentId)
          let availableKobo := locked.remainingBalance - reservedKobo
          Routine.throwIf (availableKobo < amountPaidKobo)
            (.badRequest ("Payment exceeds the outstanding balance of " ++
              Money.formatNaira (max 0 availableKobo)))
          let paymentId ← ask .randomUUID
          let now ← ask .now
          let payment := installmentPayment enrollmentId enrollment.row.schoolId amountPaidKobo
            receiptUrl idempotencyKey now
          createPayment paymentId payment
          pure payment
        pure (Sum.inl payment))
      (fun error =>
        if (given idempotencyKey).isSome ∧ error = .unique "idempotencyKey" then do
          let existing ← read fun db => db.paymentByIdempotencyKey? (idempotencyKey.getD "")
          let existing ← Routine.orThrow existing error
          pure (Sum.inr existing)
        else throw error)
    match result with
    | .inr existing => pure (installmentReply existing.row existing.plan)
    | .inl payment => do
      Routine.onlyIf (enrollment.school.ownerId ≠ "") do
        createNotification
          { userId := enrollment.school.ownerId
            title := "New Installment Payment"
            message := "New payment of " ++ Money.formatNaira (Money.fromNaira amountPaid) ++
              " for " ++ enrollment.child.fullName ++ " (" ++ enrollment.row.className ++ ") at " ++
              enrollment.school.name ++ "."
            type := .PAYMENT
            link := none }
      let _ ← ask (.emitPaymentsChanged
        { parentUserId := some enrollment.parent.userId
          schoolId := some enrollment.row.schoolId
          notifyAdmins := true })
      pure (installmentReply payment enrollment)

end Enrollment

end Lopay
