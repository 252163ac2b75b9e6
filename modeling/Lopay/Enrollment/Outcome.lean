import Lopay.Enrollment.Installment
import Lopay.Schedule.View

/-!
# The screen after a payment

`getPaymentOutcome`: what a parent is told about a card charge or a transfer. A charge that the
books have not settled is verified with Paystack first, and the books follow its verdict; the
figures are those of the plan's own view.
-/

namespace Lopay

open Transactions

namespace Enrollment

/-- What the parent is told. Nothing here makes it `cancelled`. -/
inductive PaymentOutcomeState where
  | succeeded | processing | failed | cancelled
deriving DecidableEq

def derivePaymentOutcomeState (payment : Payment) : PaymentOutcomeState :=
  if payment.isConfirmed then .succeeded
  else match payment.status with
    | .SUCCESS => .processing
    | .FAILED | .REVERSED => .failed
    | .PENDING => .processing

/-- The source also hands on Paystack's own words for a declined charge. -/
structure PaymentOutcomeView where
  state : PaymentOutcomeState
  paymentType : PaymentType
  amount : ℚ
  reference : String
  childName : Option String
  schoolName : Option String
  className : String
  enrollmentStatus : PaymentStatus
  remainingBalance : ℚ
  nextInstallmentAmount : ℚ
  nextDueDate : Option (Int × Int × Int)
deriving DecidableEq

/-- A card payment is found by its reference, a transfer by its id. -/
structure PaymentLocator where
  reference : Option String
  paymentId : Option Id
deriving DecidableEq

/-- A payment with its plan and all payments of the plan. -/
structure ShownPayment where
  payment : PaymentOfPlan
  payments : List (Id × Payment)

def located (locator : PaymentLocator) (db : Db) : Option PaymentOfPlan :=
  match given locator.reference with
  | some reference => db.paymentByReference? reference
  | none => (given locator.paymentId).bind db.payment?

def shown (locator : PaymentLocator) (db : Db) : Option ShownPayment :=
  (located locator db).map fun payment =>
    { payment, payments := db.paymentsOf payment.row.enrollmentId fun _ => true }

/-- A plan always has a start, so that its creation date is never asked for. -/
def enrollmentRow (plan : Plan) : Schedule.EnrollmentRow where
  id := plan.id
  childId := plan.row.childId
  schoolId := plan.row.schoolId
  className := plan.row.className
  totalSchoolFee := plan.row.totalSchoolFee
  remainingBalance := plan.row.remainingBalance
  paymentStatus := plan.row.paymentStatus
  installmentFrequency := plan.row.installmentFrequency
  termStartDate := some plan.row.termStartDate
  termEndDate := plan.row.termEndDate
  createdAt := none
  childName := some plan.child.fullName
  schoolName := some plan.school.name

def paymentRow (r : Id × Payment) : Schedule.EnrollmentPaymentRow where
  id := r.1
  amountPaid := r.2.amountPaid
  paymentType := r.2.paymentType
  status := r.2.status
  isConfirmed := r.2.isConfirmed
  paymentDate := r.2.paymentDate
  receiptUrl := r.2.receiptUrl

def ShownPayment.plan (s : ShownPayment) : Schedule.EnrollmentView :=
  Schedule.toEnrollmentView (enrollmentRow s.payment.plan) (s.payments.map paymentRow)

def paymentOutcomeView (s : ShownPayment) : PaymentOutcomeView where
  state := derivePaymentOutcomeState s.payment.row
  paymentType := s.payment.row.paymentType
  amount := Money.toNaira (s.payment.row.amountCharged.getD s.payment.row.amountPaid)
  reference := s.payment.row.paystackReference.getD s.payment.id
  childName := s.plan.childName
  schoolName := s.plan.schoolName
  className := s.plan.className
  enrollmentStatus := s.plan.paymentStatus
  remainingBalance := s.plan.remainingBalance
  nextInstallmentAmount := s.plan.nextInstallmentAmount
  nextDueDate := s.plan.nextDueDate

/-- The child's own parent, or the owner of the school that was paid. -/
def maySee (user : AuthUser) (payment : PaymentOfPlan) : Bool :=
  payment.plan.parent.userId = user.userId ∨
    (user.role = .SCHOOL_OWNER ∧ given user.schoolId = some payment.row.schoolId)

/-- What is answered, and the error of a verification that failed, which is logged. -/
structure OutcomeReply where
  view : PaymentOutcomeView
  warning : Option Err

/-- Ask Paystack about a charge, and let the books follow its verdict. -/
def followVerdict (reference : String) : Action Unit := do
  let answer ← ask (.verifyTransaction reference)
  match answer with
  | .error e => throw (.paystack e)
  | .ok verified =>
    if verified.status = "success" then do
      let _ ← Ledger.reconcilePaystackPayment reference verified.fees none
    else if verified.status = "failed" then do
      let _ ← Ledger.failPaystackPayment reference
    else pure ()

/-- The charge as it is once its verdict has been followed, or as it was read before. -/
def settledOutcome (locator : PaymentLocator) (reference : String) (before : ShownPayment) :
    Action OutcomeReply :=
  tryCatch
    (do
      followVerdict reference
      let again ← read (shown locator)
      pure { view := paymentOutcomeView (again.getD before), warning := none })
    (fun err => pure { view := paymentOutcomeView before, warning := some err })

def getPaymentOutcome (locator : PaymentLocator) (user : AuthUser) : Action OutcomeReply := do
  Routine.throwIf (given locator.reference = none ∧ given locator.paymentId = none)
    (.badRequest "reference or paymentId is required")
  let found ← read (shown locator)
  let before ← Routine.orThrow found (.notFound "Payment not found")
  -- Nothing is asked about a payment, and nothing done to it, for somebody it is no business of.
  Routine.throwIf (maySee user before.payment = false)
    (.forbidden "You do not have access to this payment")
  match given locator.reference with
  | none => pure { view := paymentOutcomeView before, warning := none }
  | some reference =>
    if before.payment.row.status = .SUCCESS ∨ before.payment.row.status = .REVERSED then
      pure { view := paymentOutcomeView before, warning := none }
    else settledOutcome locator reference before

end Enrollment

end Lopay
