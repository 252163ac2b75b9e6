import Lopay.Ledger.Paystack
import Lopay.Enrollment.Target

/-!
# Paystack webhooks and the reconciliation sweep

`processPaystackWebhookEvent` logs each delivery under a dedupe key before it
dispatches the event; `runSweep` verifies the open charges that nobody has reported
on.
-/

namespace Lopay

open Transactions

namespace Enrollment

/-- Whether text starts with a prefix, as `String.prototype.startsWith` decides. -/
def startsWith (text start : String) : Bool := start.toList.isPrefixOf text.toList

def webhookType (event : PaystackWebhookEvent) : String := event.event.getD "unknown"

def webhookReference (event : PaystackWebhookEvent) : Option String :=
  event.data.bind (·.reference)

/-- What identifies a delivery: the event's id, else its reference, else nothing. -/
def webhookIdentity (event : PaystackWebhookEvent) : Option String :=
  (event.data.bind (·.id)).or (webhookReference event)

def dedupeKey (eventType identity : String) : String := eventType ++ ":" ++ identity

/-- Reverse the payment that a dispute or refund names. -/
def reverseDisputed (eventType : String) (reference : Option String) : Action Unit :=
  match given reference with
  | none => pure ()
  | some reference => do
    let _ ← Ledger.reversePaystackPaymentByDispute reference eventType

/-- The payment that a dispute or refund names. -/
def disputedPayment (reference : Option String) : Action (Option PaymentOfPlan) :=
  match given reference with
  | none => pure none
  | some reference => read fun db => db.paymentByReference? reference

/-- Reverse the payment of a dispute or refund and tell the admins. -/
def recordPaystackDispute (eventType : String) (reference : Option String) : Action Unit := do
  reverseDisputed eventType reference
  let payment ← disputedPayment reference
  let admins ← read Db.superAdmins
  createNotifications (admins.map fun admin =>
    { userId := admin
      title := "Paystack Dispute / Refund"
      message := "A \"" ++ eventType ++ "\" event was received" ++
        (match given reference with
          | some reference => " for " ++ reference
          | none => "") ++
        (match payment with
          | some payment => " (" ++ Money.formatNaira payment.row.amountPaid ++ ")"
          | none => "") ++
        ". The payment has been automatically reversed and the enrollment marked FAILED. " ++
        "Verify Paystack-side reconciliation."
      type := .PAYMENT
      link := some "/admin/approvals" })

/-- Hand an event to the operation it is for. -/
def dispatch (event : PaystackWebhookEvent) : Action Unit := do
  let eventType := webhookType event
  match given (webhookReference event), eventType with
  | some reference, "charge.success" => do
    let _ ← Ledger.reconcilePaystackPayment reference (event.data.bind (·.fees)) none
  | some reference, "charge.failed" => do
    let _ ← Ledger.failPaystackPayment reference
  | _, _ =>
    Routine.onlyIf (startsWith eventType "charge.dispute" ∨ startsWith eventType "refund.") do
      recordPaystackDispute eventType (webhookReference event)

/-- A delivery that was accepted, and whether it was a repeated one. -/
structure WebhookReply where
  duplicate : Bool

def loggedWebhook (event : PaystackWebhookEvent) : WebhookEvent where
  provider := "paystack"
  eventType := webhookType event
  reference := webhookReference event
  payload := .event event
  processedAt := none
  error := none

/-- What identifies this delivery; one with neither id nor reference is unlike any other. -/
def deliveryIdentity (event : PaystackWebhookEvent) : Action String :=
  match webhookIdentity event with
  | some identity => pure identity
  | none => ask .randomUUID

/-- Log the delivery; `false` if its dedupe key is taken. -/
def storeWebhookEvent (event : PaystackWebhookEvent) (key : String) : Action Bool :=
  tryCatch
    (do
      createWebhookEvent key (loggedWebhook event)
      pure true)
    (fun error => if error = .unique "dedupeKey" then pure false else throw error)

/-- Dispatch the event and mark it processed; an error is stored with it and thrown. -/
def dispatchLogged (event : PaystackWebhookEvent) (key : String) : Action Unit :=
  tryCatch
    (do
      dispatch event
      let now ← ask .now
      updateWebhookEvent key fun row => { row with processedAt := some now })
    (fun err => do
      tryCatch
        (updateWebhookEvent key fun row => { row with error := some (.messageOf err) })
        (fun _ => pure ())
      throw err)

def processPaystackWebhookEvent (event : PaystackWebhookEvent) : Action WebhookReply := do
  let identity ← deliveryIdentity event
  let key := dedupeKey (webhookType event) identity
  let stored ← storeWebhookEvent event key
  if stored = false then
    pure { duplicate := true }
  else do
    dispatchLogged event key
    pure { duplicate := false }

end Enrollment

namespace PaystackReconciliation

/-- 5 minutes -/
def MIN_AGE_MS : Int := 5 * 60 * 1000

/-- 24 hours -/
def ABANDON_AGE_MS : Int := 24 * 60 * 60 * 1000

/-- The open card payments that are old enough to ask about. -/
def stalePayments (now : Int) (db : Db) : List (String × Int) :=
  db.payments.rows.filterMap fun r =>
    match r.2.paystackReference with
    | some reference =>
      if r.2.status = .PENDING ∧ r.2.paymentDate < now - MIN_AGE_MS then
        some (reference, r.2.paymentDate)
      else none
    | none => none

/-- Ask Paystack about one open payment and follow its verdict. An error is logged
    and the sweep goes on. -/
def sweepPayment (now : Int) (payment : String × Int) : Action Unit := do
  let result ← ask (.verifyTransaction payment.1)
  match result with
  | .error _ => pure ()
  | .ok result =>
    tryCatch
      (if result.status = "success" then do
        let _ ← Ledger.reconcilePaystackPayment payment.1 result.fees none
      else if result.status = "failed" then do
        let _ ← Ledger.failPaystackPayment payment.1
      else if ABANDON_AGE_MS < now - payment.2 then do
        let _ ← Ledger.failPaystackPayment payment.1
      else pure ())
      (fun _ => pure ())

def runSweep : Action Unit := do
  let now ← ask .now
  let found ← read (stalePayments now)
  let order ← ask (.rowOrder found.length)
  let _ ← ((arrange found order).take 100).mapM (sweepPayment now)
  pure ()

end PaystackReconciliation

end Lopay
