import Lopay.Ledger.Paystack

/-!
# Finding the enrollment a first payment is for

The parts of `EnrollmentService` that `enrollChild` and `initiateFirstPayment`
share: the request, the guards on school and class fee, `resolveEnrollmentTarget`
with its lazy parent and child rows, and `resolvePendingFirstPayment`, which deals
with a charge that is still open.
-/

namespace Lopay

open Transactions

structure CreateEnrollmentDto where
  childId : Option Id
  childName : Option String
  schoolId : Id
  className : String
  installmentFrequency : InstallmentFrequency
  firstPaymentPaid : ℚ
  termStartDate : Int
  termEndDate : Int
  receiptUrl : Option String
  idempotencyKey : Option String

/-- An optional string that is present and not empty. -/
def given (s : Option String) : Option String := s.filter fun text => text ≠ ""

namespace Enrollment

/-- A receipt path has to lie in the caller's own folder. -/
def ownsReceiptPath (receiptUrl : Option String) (userId : Id) : Bool :=
  match receiptUrl with
  | none => true
  | some url => ("receipts/" ++ userId ++ "/").toList.isPrefixOf url.toList

def assertOwnedReceiptPath (receiptUrl : Option String) (userId : Id) : Action Unit :=
  Routine.throwIf (ownsReceiptPath receiptUrl userId = false) (.badRequest "Invalid receipt path")

def resolveActiveClassFee (schoolId : Id) (className : String) : Action ClassFee := do
  let classFee ← findFirst fun db => (db.classFees.rows.map (·.2)).filter fun fee =>
    fee.schoolId = schoolId ∧ fee.className = className ∧ fee.isActive
  Routine.orThrow classFee (.badRequest
    ("No fee configuration found for class " ++ className ++ " in this school"))

/-- The school's subaccount code, if it can take card payments. -/
def assertSchoolAcceptsOnlinePayments (schoolId : Id) : Action String := do
  let found ← read fun db => db.schools.lookup schoolId
  let school ← Routine.orThrow found (.notFound "School not found")
  let refused := Err.badRequest "This school is not set up to accept online payments yet."
  Routine.throwIf (school.paystackSubaccountActive = false) refused
  Routine.orThrow (given school.paystackSubaccountCode) refused

/-- The parent row of a user, and its key. -/
def parentOfUser (userId : Id) (db : Db) : Option (Id × Parent) :=
  db.parents.rows.find? fun r => r.2.userId = userId

/-- A user with the phone of the school it owns. -/
def userWithSchoolPhone (userId : Id) (db : Db) : Option (User × Option String) :=
  (db.users.lookup userId).map fun user =>
    (user, ((db.schools.rows.find? fun r => r.2.ownerId = userId).map fun r => r.2.phone))

/-- The key of the caller's parent row, created on first use. -/
def resolveParent (userId : Id) : Action Id := do
  let found ← read (parentOfUser userId)
  match found with
  | some (id, _) => pure id
  | none => do
    let user ← read (userWithSchoolPhone userId)
    let (user, schoolPhone) ← Routine.orThrow user (.badRequest "User not found")
    let id ← ask .randomUUID
    createParent id
      { userId
        phoneNumber := ((given user.phoneNumber).or (given schoolPhone)).getD "" }
    pure id

/-- The keys of the children with this identity. -/
def childrenLike (identity : Child) (db : Db) : List Id :=
  (db.children.rows.filter fun r => r.2 = identity).map (·.1)

/-- The key of the child the request names, created when it is new. -/
def resolveChild (dto : CreateEnrollmentDto) (parentId : Id) : Action Id :=
  match given dto.childId, given dto.childName with
  | some childId, _ => do
    let child ← read fun db => db.children.lookup childId
    let notTheirs := Err.badRequest "Child not found or does not belong to user"
    let child ← Routine.orThrow child notTheirs
    Routine.throwIf (child.parentId ≠ parentId) notTheirs
    pure childId
  | none, some childName => do
    let identity : Child := { parentId, fullName := childName, className := dto.className }
    let existing ← findFirst (childrenLike identity)
    match existing with
    | some childId => pure childId
    | none =>
      tryCatch
        (do
          let id ← ask .randomUUID
          createChild id identity
          pure id)
        (fun error => match error with
          | .unique _ => do
            let raced ← findFirst (childrenLike identity)
            Routine.orThrow raced error
          | _ => throw error)
  | none, none => throw (.badRequest "Either childId or childName must be provided")

/-- What `resolveEnrollmentTarget` found. -/
structure EnrollmentTarget where
  childId : Id
  retryEnrollmentId : Option Id
  pendingEnrollmentId : Option Id

/-- The enrollment of a child; `childId` is unique. -/
def enrollmentOfChild (childId : Id) (db : Db) : Option (Id × ChildEnrollment) :=
  db.enrollments.rows.find? fun r => r.2.childId = childId

def resolveEnrollmentTarget (dto : CreateEnrollmentDto) (userId : Id)
    (allowPendingRetry : Bool) : Action EnrollmentTarget := do
  let parentId ← resolveParent userId
  let childId ← resolveChild dto parentId
  let existing ← read (enrollmentOfChild childId)
  match existing with
  | none => pure { childId, retryEnrollmentId := none, pendingEnrollmentId := none }
  | some (enrollmentId, enrollment) =>
    let sameSchool := enrollment.schoolId = dto.schoolId
    if enrollment.paymentStatus = .FAILED then
      if sameSchool then
        pure { childId, retryEnrollmentId := some enrollmentId, pendingEnrollmentId := none }
      else throw (.badRequest "Failed enrollment belongs to a different school")
    else if allowPendingRetry ∧ enrollment.paymentStatus = .PENDING ∧ sameSchool then
      pure { childId, retryEnrollmentId := none, pendingEnrollmentId := some enrollmentId }
    else throw (.badRequest "Enrollment already exists for this child")

/-! ### An open charge -/

/-- An existing intent answered again: `buildResumeResponse` and
    `buildIdempotentInitiationResponse`. -/
structure IntentReply where
  reference : Option String
  accessCode : Option String
  amountCharged : Option ℚ
  status : PaymentTransactionStatus

def intentReply (payment : Payment) : IntentReply where
  reference := payment.paystackReference
  accessCode := payment.paystackAccessCode
  amountCharged := (payment.amountCharged.filter fun kobo => kobo ≠ 0).map Money.toNaira
  status := payment.status

/-- The open first payments of a plan that no other is newer than. -/
def latestPendingFirstPayments (enrollmentId : Id) (db : Db) : List (Id × Payment) :=
  let pending := db.paymentsOf enrollmentId fun p =>
    p.paymentType = .FIRST_PAYMENT ∧ p.status = .PENDING
  pending.filter fun r => pending.all fun r' => r'.2.paymentDate ≤ r.2.paymentDate

/-- What `verifyTransaction` says about an open charge. -/
inductive Verdict where
  | dead
  | paid (fees : Option Int)
  | undecided

def verdict : Except PaystackError VerifyTransactionResult → Verdict
  | .error e => if e.isUnknownReference then .dead else .undecided
  | .ok verified =>
    if verified.status = "failed" ∨ verified.status = "abandoned" then .dead
    else if verified.status = "success" then .paid verified.fees
    else .undecided

/-- Resume the open first payment of a plan (`some`), or free the plan for a new
    charge (`none`). -/
def resolvePendingFirstPayment (enrollmentId : Id) : Action (Option IntentReply) := do
  let found ← findFirst (latestPendingFirstPayments enrollmentId)
  match found with
  | none => pure none
  | some (_, payment) =>
    match given payment.paystackReference with
    | none => pure none
    | some reference =>
      if given payment.paystackAccessCode = none then do
        -- No access code: the source takes it that Paystack never accepted the charge.
        let _ ← Ledger.failPaystackPayment reference
        pure none
      else do
        let verified ← ask (.verifyTransaction reference)
        match verdict verified with
        | .dead => do
          let _ ← Ledger.failPaystackPayment reference
          pure none
        | .paid fees => do
          let _ ← Ledger.reconcilePaystackPayment reference fees none
          pure (some (intentReply payment))
        | .undecided => pure (some (intentReply payment))

end Enrollment

end Lopay
