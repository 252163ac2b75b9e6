import Lopay.Ledger.FirstPayments

/-!
# Card payments: reconcile, fail, dispute

The ledger operations that follow Paystack's verdict on a charge, found by its
reference: `reconcilePaystackPayment` with its escalation path,
`failPaystackPayment` and `reversePaystackPaymentByDispute`.
-/

namespace Lopay

open Transactions

namespace Ledger

/-- What `reconcilePaystackPayment` answers. -/
inductive ReconcileOutcome where
  | unknownReference
  | alreadyProcessed
  | statusConflict (status : PaymentTransactionStatus)
  | completed (isCompleted : Bool)
deriving DecidableEq

/-- The `reconciled` field of the answer. -/
def ReconcileOutcome.reconciled : ReconcileOutcome → Bool
  | .unknownReference => false
  | .alreadyProcessed => true
  | .statusConflict _ => false
  | .completed _ => true

/-- The key under which a conflict on a reference is escalated once. -/
def conflictKey (reference : String) : String := "reconcile.conflict:" ++ reference

def PaymentTransactionStatus.text : PaymentTransactionStatus → String
  | .PENDING => "PENDING"
  | .SUCCESS => "SUCCESS"
  | .FAILED => "FAILED"
  | .REVERSED => "REVERSED"

def conflictDetail (payment : PaymentOfPlan) (reference : String) : String :=
  "Paystack reported a SUCCESSFUL charge for " ++ reference ++ " (" ++
    Money.formatNaira payment.row.amountPaid ++ ") but the payment is " ++
    PaymentTransactionStatus.text payment.row.status ++ " in our books. The money has been " ++
    "captured and split at Paystack; no state was changed automatically."

/-- Money was captured for a payment the books have closed the other way: change no
    state, claim the alert once, tell every admin, and give the claim back if none of
    them could be told. -/
def escalateReconcileConflict (payment : PaymentOfPlan) (reference : String)
    (actualFeeKobo : Option Int) : Action ReconcileOutcome := do
  let outcome := ReconcileOutcome.statusConflict payment.row.status
  let detail := conflictDetail payment reference
  let dedupeKey := conflictKey reference
  let claimed ← tryCatch
    (do
      createWebhookEvent dedupeKey
        { provider := "paystack"
          eventType := "reconcile.conflict"
          reference := some reference
          payload := .conflict payment.id payment.row.enrollmentId payment.row.schoolId
            payment.row.status payment.row.amountPaid actualFeeKobo
          processedAt := none
          error := some (.text detail) }
      pure true)
    (fun err => if err = .unique "dedupeKey" then pure false else throw err)
  if claimed = false then
    pure outcome
  else do
    let admins ← tryCatch
      (do
        let found ← read Db.superAdmins
        pure (some found))
      (fun _ => pure none)
    let deliveries ← (admins.getD []).mapM fun admin => ask (.createNotification
      { userId := admin
        title := "Payment needs manual reconciliation"
        message := detail ++ " Resolve it on the Paystack dashboard (refund the payer, or settle " ++
          "the school directly) — the app will not activate this enrollment on its own."
        type := .ALERT
        link := some "/admin/approvals" })
    Routine.onlyIf (admins ≠ some [] ∧ true ∉ deliveries) do
      tryCatch (deleteWebhookEvent dedupeKey) (fun _ => pure ())
    pure outcome

/-- Credit the deposit of a payment that has just been flipped to SUCCESS. -/
def creditCardPayment (payment : PaymentOfPlan) (reference : String) (actualFeeKobo : Option Int)
    (actor : Option AuditActor) : Action Credited := do
  let credited ← creditFirstPaymentToBalance payment.plan.id payment.row.schoolAmount
  let estimateFee := payment.row.paystackFee.getD 0
  let actualFee := actualFeeKobo.getD estimateFee
  record
    { action := .FIRST_PAYMENT_PAID
      entityType := "Payment"
      entityId := payment.id
      actor := actor
      schoolId := some payment.row.schoolId
      reason := none
      before := some
        [("status", .transaction payment.row.status),
         ("isConfirmed", .bool payment.row.isConfirmed),
         ("remainingBalance", .num payment.plan.row.remainingBalance)]
      after := some
        [("status", .transaction .SUCCESS),
         ("isConfirmed", .bool true),
         ("enrollmentStatus", .plan credited.status),
         ("remainingBalance", .num credited.remainingBalance)]
      metadata := some
        [("reference", .str reference),
         ("amountCharged", (payment.row.amountCharged.map AuditValue.num).getD .null),
         ("platformAmount", .num payment.row.platformAmount),
         ("schoolAmount", .num payment.row.schoolAmount),
         ("estimatedPaystackFee", .num estimateFee),
         ("actualPaystackFee", .num actualFee),
         ("paystackFeeDelta", .num (actualFee - estimateFee))] }
  pure credited

/-- Tell the parent and the school about a card payment that came through. -/
def announceCardPayment (payment : PaymentOfPlan) (credited : Credited) : Action Unit := do
  createNotification
    { userId := payment.plan.parent.userId
      title := if credited.isCompleted then "Payment Completed" else "First Payment Confirmed"
      message := "Your payment of " ++ Money.formatNaira payment.row.amountPaid ++ " for " ++
        payment.plan.child.fullName ++ " at " ++ payment.plan.school.name ++
        " has been confirmed." ++
        (if credited.isCompleted then " All fees are now fully paid."
          else " Enrollment is now active.")
      type := .PAYMENT
      link := some "/history" }
  Routine.onlyIf (payment.plan.school.ownerId ≠ "") do
    createNotification
      { userId := payment.plan.school.ownerId
        title := "First Payment Received"
        message := Money.formatNaira payment.row.schoolAmount ++
          " settled to your account for " ++ payment.plan.child.fullName ++ " (" ++
          payment.plan.row.className ++ ")."
        type := .PAYMENT
        link := some "/school-owner-dashboard" }
  emitChanges
    { parentUserId := some payment.plan.parent.userId
      schoolId := some payment.row.schoolId
      notifyAdmins := true }

def reconcilePaystackPayment (reference : String) (actualFeeKobo : Option Int)
    (actor : Option AuditActor) : Action ReconcileOutcome := do
  let found ← read fun db => db.paymentByReference? reference
  match found with
  | none => pure .unknownReference
  | some payment =>
    if payment.row.status = .SUCCESS then
      pure .alreadyProcessed
    else if payment.row.status ≠ .PENDING then
      escalateReconcileConflict payment reference actualFeeKobo
    else do
      let processed ← transaction do
        let now ← ask .now
        let flipped ← updatePayments payment.id (fun p => p.status = .PENDING)
          (fun p =>
            { p with
              status := .SUCCESS
              isConfirmed := true
              actualPaystackFee := actualFeeKobo
              paymentDate := now })
        if flipped = 0 then
          pure none
        else do
          let credited ← creditCardPayment payment reference actualFeeKobo actor
          pure (some credited)
      match processed with
      | none => pure .alreadyProcessed
      | some credited => do
        announceCardPayment payment credited
        pure (.completed credited.isCompleted)

/-- Mark a card first payment FAILED; whether this call did it. -/
def failPaystackPayment (reference : String) : Action Bool := do
  let found ← read fun db => (db.paymentByReference? reference).filter fun p =>
    p.row.status = .PENDING
  match found with
  | none => pure false
  | some payment => do
    let flipped ← transaction do
      let res ← updatePayments payment.id (fun p => p.status = .PENDING)
        (fun p => { p with status := .FAILED })
      if res = 0 then
        pure false
      else do
        let _ ← updateEnrollment payment.row.enrollmentId fun e =>
          { e with paymentStatus := .FAILED }
        pure true
    if flipped = false then
      pure false
    else do
      Routine.onlyIf (payment.plan.parent.userId ≠ "") do
        createNotification
          { userId := payment.plan.parent.userId
            title := "Payment Failed"
            message := "Your first payment did not go through. Please try again."
            type := .ALERT
            link := some "/history" }
      emitChanges
        { parentUserId := some payment.plan.parent.userId
          schoolId := some payment.row.schoolId
          notifyAdmins := true }
      pure true

/-- Take a captured card payment back after a dispute or refund; whether this call
    did it. -/
def reversePaystackPaymentByDispute (reference eventType : String) : Action Bool := do
  let found ← read fun db => (db.paymentByReference? reference).filter fun p =>
    p.row.status ≠ .FAILED ∧ p.row.status ≠ .REVERSED
  match found with
  | none => pure false
  | some payment => do
    let enrollment := payment.plan
    let wasActive : Bool := enrollment.row.paymentStatus = .ACTIVE
    let wasCompleted : Bool := enrollment.row.paymentStatus = .COMPLETED
    let flipped ← transaction do
      let res ← updatePayments payment.id (fun p => p.status = .SUCCESS)
        (fun p => { p with status := .FAILED, isConfirmed := false })
      if res = 0 then
        pure none
      else do
        let _ ← updateEnrollment enrollment.id fun e =>
          if wasActive ∨ wasCompleted then
            { e with paymentStatus := .FAILED, remainingBalance := enrollment.row.totalSchoolFee }
          else { e with paymentStatus := .FAILED }
        record
          { action := .PAYMENT_DISPUTED
            entityType := "Payment"
            entityId := payment.id
            actor := none
            schoolId := some payment.row.schoolId
            reason := none
            before := some
              [("status", .transaction payment.row.status),
               ("isConfirmed", .bool payment.row.isConfirmed),
               ("enrollmentStatus", .plan enrollment.row.paymentStatus),
               ("remainingBalance", .num enrollment.row.remainingBalance)]
            after := some
              [("status", .transaction .FAILED),
               ("isConfirmed", .bool false),
               ("enrollmentStatus", .plan .FAILED),
               ("remainingBalance", .num (if wasActive ∨ wasCompleted then
                  enrollment.row.totalSchoolFee else enrollment.row.remainingBalance))]
            metadata := some
              [("reference", .str reference),
               ("eventType", .str eventType),
               ("amount", .num payment.row.amountPaid),
               ("wasActive", .bool wasActive),
               ("wasCompleted", .bool wasCompleted)] }
        let toParent : Notification :=
          { userId := enrollment.parent.userId
            title := "Payment Disputed / Reversed"
            message := "Your first payment of " ++ Money.formatNaira payment.row.amountPaid ++
              " for " ++ enrollment.child.fullName ++ " (" ++ enrollment.row.className ++ ") at " ++
              enrollment.school.name ++ " has been reversed due to a \"" ++ eventType ++
              "\" event. Please contact the school or re-enroll."
            type := .ALERT
            link := some "/history" }
        insertNotification toParent
        Routine.onlyIf (enrollment.school.ownerId ≠ "") do
          insertNotification
            { userId := enrollment.school.ownerId
              title := "Payment Disputed / Reversed"
              message := "A first payment of " ++ Money.formatNaira payment.row.amountPaid ++
                " for " ++ enrollment.child.fullName ++ " (" ++ enrollment.row.className ++
                ") has been reversed due to a \"" ++ eventType ++
                "\" event. The enrollment has been marked as FAILED."
              type := .ALERT
              link := some "/school-owner-dashboard" }
        pure (some toParent)
    match flipped with
    | none => pure false
    | some toParent => do
      let _ ← ask (.pushNotification enrollment.parent.userId toParent)
      emitChanges
        { parentUserId := some enrollment.parent.userId
          schoolId := some payment.row.schoolId
          notifyAdmins := true }
      pure true

end Ledger

end Lopay
