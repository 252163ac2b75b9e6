import Lopay.Enrollment.Target

/-!
# Opening a plan: `enrollChild` and `initiateFirstPayment`

Both write a PENDING enrollment with the whole fee outstanding and a PENDING first
payment in one transaction; `initiateFirstPayment` then has Paystack accept the
charge and stores the access code it is handed.
-/

namespace Lopay

open Transactions

/-- The configuration of the process: the VAT rate on Paystack's fee and the page
    Paystack sends the payer back to. -/
structure Environment where
  vatRate : ℚ
  callbackUrl : Option String

namespace Enrollment

def isReplayableIntent (status : PaymentTransactionStatus) : Bool :=
  status = .PENDING ∨ status = .SUCCESS

/-- The enrollment a request opens or re-opens; the last three arguments are the
    columns a re-opened row keeps. -/
def openedEnrollment (dto : CreateEnrollmentDto) (figures : DepositCalculation) (depositKobo : Int)
    (childId schoolId : Id) (enrollmentInviteId : Option Id) : ChildEnrollment where
  childId := childId
  schoolId := schoolId
  className := dto.className
  totalSchoolFee := figures.schoolFees
  platformFee := figures.platformFee
  schoolMinimumFee := figures.minimumDeposit
  firstPaymentPaid := depositKobo
  remainingBalance := figures.schoolFees
  paymentStatus := .PENDING
  installmentFrequency := dto.installmentFrequency
  termStartDate := dto.termStartDate
  termEndDate := dto.termEndDate
  enrollmentInviteId := enrollmentInviteId

/-- Create the enrollment, or re-open the one that is reused; its key. -/
def openEnrollment (dto : CreateEnrollmentDto) (figures : DepositCalculation) (depositKobo : Int)
    (childId : Id) (reuseEnrollmentId : Option Id) : Action Id :=
  match reuseEnrollmentId with
  | some id => do
    let _ ← updateEnrollment id fun e =>
      openedEnrollment dto figures depositKobo e.childId e.schoolId e.enrollmentInviteId
    pure id
  | none => do
    let id ← ask .randomUUID
    createEnrollment id (openedEnrollment dto figures depositKobo childId dto.schoolId none)
    pure id

/-! ### Manual first payments -/

structure EnrollmentReply where
  enrollmentId : Id
  payment : Payment
  idempotent : Bool
  childName : String

def enrollmentReplay (payment : PaymentOfPlan) : EnrollmentReply where
  enrollmentId := payment.plan.id
  payment := payment.row
  idempotent := true
  childName := payment.plan.child.fullName

def manualFirstPayment (dto : CreateEnrollmentDto) (figures : DepositCalculation)
    (depositKobo : Int) (enrollmentId : Id) (now : Int) : Payment where
  enrollmentId := enrollmentId
  schoolId := dto.schoolId
  idempotencyKey := dto.idempotencyKey
  amountPaid := depositKobo
  platformAmount := figures.platformFee
  schoolAmount := figures.amountToSchool
  receiver := .PLATFORM
  paymentType := .FIRST_PAYMENT
  status := .PENDING
  isConfirmed := false
  paymentDate := now
  receiptUrl := dto.receiptUrl
  paystackReference := none
  paystackAccessCode := none
  amountCharged := none
  paystackFee := none
  actualPaystackFee := none
  transactionCharge := none

/-- Tell the owner of the school, if it has one. -/
def notifySchoolOwner (school : Option School) (n : Id → Notification) : Action Unit :=
  match given (school.map (·.ownerId)) with
  | none => pure ()
  | some ownerId => createNotification (n ownerId)

def announceManualEnrollmentInitiated (school : Option School) (childName : String)
    (dto : CreateEnrollmentDto) : Action Unit := do
  let amountStr := Money.formatNaira (Money.fromNaira dto.firstPaymentPaid)
  notifySchoolOwner school fun ownerId =>
    { userId := ownerId
      title := "New Enrollment Initiated"
      message := "New Student: " ++ childName ++ " | Class: " ++ dto.className ++
        " | Amount Paid: " ++ amountStr ++ " | Status: Pending Admin Transfer."
      type := .PAYMENT
      link := some "/admin/approvals" }
  let admins ← read Db.superAdmins
  createNotifications (admins.map fun admin =>
    { userId := admin
      title := "New First Payment Received"
      message := "Payment of " ++ amountStr ++ " received for " ++ childName ++ " at " ++
        ((school.map (·.name)).getD "undefined") ++ ". Please process 25% payout to school."
      type := .PAYMENT
      link := some "/admin/approvals" })
  emitChanges { parentUserId := none, schoolId := some dto.schoolId, notifyAdmins := true }

/-- The payment that was made under an idempotency key, whatever became of it. -/
def paymentUnderKey (idempotencyKey : Option String) : Action (Option PaymentOfPlan) :=
  match given idempotencyKey with
  | none => pure none
  | some key => read fun db => db.paymentByIdempotencyKey? key

def enrollChild (dto : CreateEnrollmentDto) (userId : Id) : Action EnrollmentReply := do
  let replayed ← paymentUnderKey dto.idempotencyKey
  match replayed with
  | some existing => pure (enrollmentReplay existing)
  | none => do
    let target ← resolveEnrollmentTarget dto userId false
    let classFee ← resolveActiveClassFee dto.schoolId dto.className
    let depositKobo := Money.fromNaira dto.firstPaymentPaid
    match calculateInitialPayment classFee.feeAmount depositKobo with
    | .error message => throw (.badRequest message)
    | .ok figures => do
      let result ← tryCatch
        (do
          let created ← transaction do
            let enrollmentId ← openEnrollment dto figures depositKobo target.childId
              target.retryEnrollmentId
            let paymentId ← ask .randomUUID
            let now ← ask .now
            let payment := manualFirstPayment dto figures depositKobo enrollmentId now
            createPayment paymentId payment
            let school ← read fun db => db.schools.lookup dto.schoolId
            let child ← read fun db => db.children.lookup target.childId
            let childName := ((given (child.map (·.fullName))).or (given dto.childName)).getD
              "Student"
            pure (school, ({ enrollmentId, payment, idempotent := false, childName } :
              EnrollmentReply))
          pure (Sum.inl created))
        (fun error =>
          if (given dto.idempotencyKey).isSome ∧ error = .unique "idempotencyKey" then do
            let existing ← read fun db =>
              db.paymentByIdempotencyKey? (dto.idempotencyKey.getD "")
            let existing ← Routine.orThrow existing error
            pure (Sum.inr (enrollmentReplay existing))
          else throw error)
      match result with
      | .inr replay => pure replay
      | .inl (school, reply) => do
        announceManualEnrollmentInitiated school reply.childName dto
        pure reply

/-! ### Card first payments -/

/-- What `initiateFirstPayment` answers: an intent that exists already, or a new one. -/
inductive InitiationReply where
  | replay (intent : IntentReply)
  | started (transaction : InitializeTransactionResult)
      (amountCharged depositToSchool platformFee paystackFee : ℚ)

/-- The first payment row of a card charge. -/
def cardFirstPayment (dto : CreateEnrollmentDto) (figures : DepositCalculation) (charge : GrossUp)
    (depositKobo : Int) (reference : String) (enrollmentId : Id) (now : Int) : Payment where
  enrollmentId := enrollmentId
  schoolId := dto.schoolId
  idempotencyKey := dto.idempotencyKey
  amountPaid := depositKobo
  platformAmount := figures.platformFee
  schoolAmount := figures.amountToSchool
  receiver := .PLATFORM
  paymentType := .FIRST_PAYMENT
  status := .PENDING
  isConfirmed := false
  paymentDate := now
  receiptUrl := none
  paystackReference := some reference
  paystackAccessCode := none
  amountCharged := some charge.amountCharged
  paystackFee := some charge.paystackFee
  actualPaystackFee := none
  transactionCharge := some (figures.platformFee + charge.paystackFee)

/-- Answer a live intent for a reused idempotency key, or release the key of one
    that is settled the other way. -/
def replayIntent (idempotencyKey : Option String) : Action (Option PaymentOfPlan) :=
  match given idempotencyKey with
  | none => pure none
  | some key => do
    let found ← read fun db => db.paymentByIdempotencyKey? key
    match found with
    | none => pure none
    | some existing =>
      if isReplayableIntent existing.row.status then
        pure (some existing)
      else do
        let _ ← updatePayments existing.id (fun p => p.status = existing.row.status)
          (fun p => { p with idempotencyKey := none })
        pure none

/-- The reference under which a charge is initialized. -/
def mintedReference (uuid : Id) : String := "lopay_" ++ uuid

/-- Write the PENDING enrollment and first payment; the payment's key and row. -/
def createFirstPayment (dto : CreateEnrollmentDto) (figures : DepositCalculation) (charge : GrossUp)
    (depositKobo : Int) (reference : String) (childId : Id) (reuseEnrollmentId : Option Id) :
    Action (Id × Payment) :=
  transaction do
    let enrollmentId ← openEnrollment dto figures depositKobo childId reuseEnrollmentId
    let paymentId ← ask .randomUUID
    let now ← ask .now
    let payment := cardFirstPayment dto figures charge depositKobo reference enrollmentId now
    createPayment paymentId payment
    pure (paymentId, payment)

/-- Have Paystack accept the charge and store its access code; a refusal fails the
    payment again. -/
def startCharge (env : Environment) (dto : CreateEnrollmentDto) (figures : DepositCalculation)
    (charge : GrossUp) (email subaccount reference : String) (childId : Id) (paymentId : Id)
    (payment : Payment) : Action InitiationReply := do
  let init ← ask (.initializeTransaction
    { email
      amountKobo := charge.amountCharged
      reference
      subaccount
      transactionChargeKobo := figures.platformFee + charge.paystackFee
      callbackUrl := env.callbackUrl
      paymentId
      enrollmentId := payment.enrollmentId
      schoolId := dto.schoolId
      childId })
  match init with
  | .error err => do
    tryCatch
      (do
        let _ ← Ledger.failPaystackPayment reference)
      (fun _ => pure ())
    throw (.paystack err)
  | .ok init => do
    updatePayment paymentId fun p => { p with paystackAccessCode := some init.accessCode }
    pure (.started init (Money.toNaira charge.amountCharged) (Money.toNaira figures.amountToSchool)
      (Money.toNaira figures.platformFee) (Money.toNaira charge.paystackFee))

/-- Open the plan and charge the deposit. -/
def chargeFirstPayment (env : Environment) (dto : CreateEnrollmentDto) (userId : Id)
    (classFee : ClassFee) (subaccount : String) (childId : Id) (reuseEnrollmentId : Option Id) :
    Action InitiationReply := do
  let depositKobo := Money.fromNaira dto.firstPaymentPaid
  match calculateInitialPayment classFee.feeAmount depositKobo with
  | .error message => throw (.badRequest message)
  | .ok figures =>
    match grossUp (figures.amountToSchool + figures.platformFee) env.vatRate with
    | .error message => throw (.internal message)
    | .ok charge => do
      let user ← read fun db => db.users.lookup userId
      let email ← Routine.orThrow (given (user.map (·.email)))
        (.badRequest "Payer email not found")
      let uuid ← ask .randomUUID
      let reference := mintedReference uuid
      let created ← tryCatch
        (do
          let created ← createFirstPayment dto figures charge depositKobo reference childId
            reuseEnrollmentId
          pure (Sum.inl created))
        (fun error =>
          if (given dto.idempotencyKey).isSome ∧ error = .unique "idempotencyKey" then do
            let existing ← read fun db =>
              db.paymentByIdempotencyKey? (dto.idempotencyKey.getD "")
            let existing ← Routine.orThrow existing error
            pure (Sum.inr existing)
          else throw error)
      match created with
      | .inr existing => pure (.replay (intentReply existing.row))
      | .inl (paymentId, payment) =>
        startCharge env dto figures charge email subaccount reference childId paymentId payment

def initiateFirstPayment (env : Environment) (dto : CreateEnrollmentDto) (userId : Id) :
    Action InitiationReply := do
  assertOwnedReceiptPath dto.receiptUrl userId
  let replayed ← replayIntent dto.idempotencyKey
  match replayed with
  | some existing => pure (.replay (intentReply existing.row))
  | none => do
    let classFee ← resolveActiveClassFee dto.schoolId dto.className
    let subaccount ← assertSchoolAcceptsOnlinePayments dto.schoolId
    let target ← resolveEnrollmentTarget dto userId true
    match target.pendingEnrollmentId with
    | none =>
      chargeFirstPayment env dto userId classFee subaccount target.childId target.retryEnrollmentId
    | some pendingEnrollmentId => do
      let pending ← resolvePendingFirstPayment pendingEnrollmentId
      match pending with
      | some intent => pure (.replay intent)
      | none =>
        chargeFirstPayment env dto userId classFee subaccount target.childId
          (some pendingEnrollmentId)

end Enrollment

end Lopay
