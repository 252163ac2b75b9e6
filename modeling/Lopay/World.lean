import Lopay.Schema

/-!
# Statements and the outside world

The requests a service makes outside the database, and the Prisma calls it makes
inside. A Prisma call is one statement. Where a query has no `orderBy`, or the
order has ties, the rows come in whatever order the database picks.
-/

namespace Lopay

open Transactions

/-! ### Outside -/

structure ChangeTargets where
  parentUserId : Option Id
  schoolId : Option Id
  notifyAdmins : Bool

structure InitializeTransactionParams where
  email : String
  amountKobo : Int
  reference : String
  subaccount : String
  transactionChargeKobo : Int
  callbackUrl : Option String
  paymentId : Id
  enrollmentId : Id
  schoolId : Id
  childId : Id

structure InitializeTransactionResult where
  authorizationUrl : String
  accessCode : String
  reference : String

structure VerifyTransactionResult where
  status : String
  fees : Option Int

/-- A request to something that is not the database. `rowOrder` asks in which order
    an unordered query yields its rows. -/
inductive Call where
  | now
  | randomUUID
  | randomToken
  | rowOrder (count : Nat)
  | initializeTransaction (params : InitializeTransactionParams)
  | verifyTransaction (reference : String)
  | createNotification (notification : Notification)
  | pushNotification (userId : Id) (notification : Notification)
  | emitEnrollmentsChanged (targets : ChangeTargets)
  | emitPaymentsChanged (targets : ChangeTargets)

/-- `createNotification` answers whether it went through; if not, it threw. -/
@[reducible] def Answer : Call → Type
  | .now => Int
  | .randomUUID => Id
  | .randomToken => String
  | .rowOrder _ => List Nat
  | .initializeTransaction _ => Except PaystackError InitializeTransactionResult
  | .verifyTransaction _ => Except PaystackError VerifyTransactionResult
  | .createNotification _ => Bool
  | .pushNotification _ _ => Unit
  | .emitEnrollmentsChanged _ => Unit
  | .emitPaymentsChanged _ => Unit

/-- A service method. -/
abbrev Action (α : Type) := Routine Db Write Answer Err α

/-- What a service method can see and has done. -/
abbrev Context := Ctx Db Write Answer

def ask (c : Call) : Action (Answer c) := Routine.ask c

/-- Text search that ignores case. -/
def mentions (text needle : String) : Bool :=
  (text.toList.map Char.toLower).tails.any fun rest => needle.toList.isPrefixOf rest

/-- Paystack could not find the resource on this integration. -/
def PaystackError.isNotFound : PaystackError → Bool
  | .api providerStatus message => providerStatus == 404 || mentions message "not found"
  | .unavailable => false

/-- Paystack says that there is no such transaction. -/
def PaystackError.isUnknownReference : PaystackError → Bool
  | .api providerStatus message =>
    (PaystackError.api providerStatus message).isNotFound &&
      (mentions message "reference" || mentions message "transaction")
  | .unavailable => false

/-- The rows in the order the database picked: each index takes one of the rows that
    are left. -/
def arrange {α : Type} : List α → List Nat → List α
  | [], _ => []
  | rows, [] => rows
  | rows, i :: order =>
    match rows[i % rows.length]? with
    | some row => row :: arrange (rows.eraseIdx (i % rows.length)) order
    | none => rows

theorem mem_of_mem_arrange {α : Type} {rows : List α} {order : List Nat} {row : α}
    (h : row ∈ arrange rows order) : row ∈ rows := by
  induction order generalizing rows with
  | nil =>
    cases rows with
    | nil => exact h
    | cons r rows => exact h
  | cons i order ih =>
    cases rows with
    | nil => exact h
    | cons r rows =>
      simp only [arrange] at h
      split at h
      · next row' hrow =>
        rcases List.mem_cons.mp h with rfl | hrest
        · exact List.mem_of_getElem? hrow
        · exact List.mem_of_mem_eraseIdx (ih hrest)
      · exact h

/-- No row is lost, and none is there twice. -/
theorem arrange_perm {α : Type} (rows : List α) (order : List Nat) :
    (arrange rows order).Perm rows := by
  induction order generalizing rows with
  | nil => cases rows <;> exact .refl _
  | cons i order ih =>
    cases rows with
    | nil => exact .refl _
    | cons r rows =>
      simp only [arrange]
      split
      · next row hrow =>
        obtain ⟨hlt, rfl⟩ := List.getElem?_eq_some_iff.mp hrow
        exact ((ih _).cons _).trans (List.getElem_cons_eraseIdx_perm hlt)
      · exact .refl _

theorem arrange_eq_nil {α : Type} {rows : List α} {order : List Nat}
    (h : (arrange rows order).head? = none) : rows = [] := by
  cases rows with
  | nil => rfl
  | cons r rows =>
    cases order with
    | nil => cases h
    | cons i order =>
      have hlt : i % (r :: rows).length < (r :: rows).length := Nat.mod_lt _ (by simp)
      simp only [arrange, List.getElem?_eq_getElem hlt] at h
      cases h

/-- `NotificationsService.create`. -/
def createNotification (n : Notification) : Action Unit := do
  let delivered ← ask (.createNotification n)
  Routine.throwIf (delivered = false) .notification

/-- `Promise.all` of notifications: all are sent, and one failure fails them all. -/
def createNotifications (ns : List Notification) : Action Unit := do
  let delivered ← ns.mapM fun n => ask (.createNotification n)
  Routine.throwIf (false ∈ delivered) .notification

/-- The text a reason adds to a message; an empty reason adds nothing. -/
def reasonSuffix (reason : Option String) : String :=
  match reason with
  | some text => if text = "" then "" else " Reason: " ++ text
  | none => ""

def emitChanges (targets : ChangeTargets) : Action Unit := do
  let _ ← ask (.emitEnrollmentsChanged targets)
  let _ ← ask (.emitPaymentsChanged targets)
  pure ()

/-! ### Rows with their relations -/

/-- An enrollment with its school, child and parent. -/
structure Plan where
  id : Id
  row : ChildEnrollment
  school : School
  child : Child
  parent : Parent

/-- A payment with its enrollment. -/
structure PaymentOfPlan where
  id : Id
  row : Payment
  plan : Plan

namespace Db

variable (db : Db)

def plan? (id : Id) : Option Plan := do
  let row ← db.enrollments.lookup id
  let school ← db.schools.lookup row.schoolId
  let child ← db.children.lookup row.childId
  let parent ← db.parents.lookup child.parentId
  some { id, row, school, child, parent }

def payment? (id : Id) : Option PaymentOfPlan := do
  let row ← db.payments.lookup id
  let plan ← db.plan? row.enrollmentId
  some { id, row, plan }

/-- The key of a payment with this reference; the column is unique. -/
def referenced (reference : String) : Option Id :=
  (db.payments.rows.find? fun r => r.2.paystackReference = some reference).map (·.1)

def paymentByReference? (reference : String) : Option PaymentOfPlan := do
  let id ← db.referenced reference
  db.payment? id

def paymentByIdempotencyKey? (key : String) : Option PaymentOfPlan := do
  let r ← db.payments.rows.find? fun r => r.2.idempotencyKey = some key
  db.payment? r.1

/-- The payments of an enrollment that satisfy a condition. -/
def paymentsOf (enrollmentId : Id) (p : Payment → Bool) : List (Id × Payment) :=
  db.payments.rows.filter fun r => r.2.enrollmentId = enrollmentId ∧ p r.2

/-- `_sum.amountPaid` over the payments of an enrollment that satisfy a condition. -/
def sumAmountPaid (enrollmentId : Id) (p : Payment → Bool) : Int :=
  Table.total (fun _ r => if r.enrollmentId = enrollmentId ∧ p r then r.amountPaid else 0)
    db.payments

/-- The enrollment that came from an invite. -/
def invited (inviteId : Id) : Option (Id × ChildEnrollment) :=
  db.enrollments.rows.find? fun r => r.2.enrollmentInviteId = some inviteId

/-- The unique index that this row of an invite would violate, if any. -/
def inviteClash (id : Id) (row : EnrollmentInvite) : Option String :=
  if db.invites.rows.any fun r => r.1 ≠ id ∧ r.2.tokenHash = row.tokenHash then some "tokenHash"
  else if row.status ∈ SLOT_HOLDING_STATUSES ∧ db.invites.rows.any fun r =>
      r.1 ≠ id ∧ r.2.status ∈ SLOT_HOLDING_STATUSES ∧ r.2.schoolId = row.schoolId ∧
        r.2.studentName = row.studentName ∧ r.2.className = row.className then
    some "EnrollmentInvite_live_student_key"
  else if row.status = .CLAIMED ∧ db.invites.rows.any fun r =>
      r.1 ≠ id ∧ r.2.status = .CLAIMED ∧ r.2.schoolId = row.schoolId ∧
        lower r.2.studentName = lower row.studentName then
    some "EnrollmentInvite_migrated_student_key"
  else none

def superAdmins : List Id :=
  (db.users.rows.filter fun r => r.2.role = .SUPER_ADMIN).map (·.1)

end Db

/-! ### Prisma calls -/

def transaction {α : Type} (body : Action α) : Action α := Routine.transaction .database body

def read {α : Type} (q : Db → α) : Action α := Routine.query .database q

def statement {α : Type} (f : Db → Except Err (α × List Write)) : Action α :=
  Routine.exec .database f

/-- `findFirst` without an order. -/
def findFirst {α : Type} (q : Db → List α) : Action (Option α) := do
  let found ← read q
  let order ← ask (.rowOrder found.length)
  pure (arrange found order).head?

/-- `findUniqueOrThrow`. -/
def findOrThrow {α : Type} (q : Db → Option α) : Action α := do
  let found ← read q
  Routine.orThrow found .recordNotFound

/-- `payment.updateMany` for one id: the number of rows that matched. -/
def updatePayments (id : Id) (filter : Payment → Bool) (data : Payment → Payment) : Action Nat :=
  statement fun db => match db.payments.lookup id with
    | some p => if filter p then .ok (1, [.putPayment id (data p)]) else .ok (0, [])
    | none => .ok (0, [])

/-- `enrollmentInvite.updateMany` for one id. -/
def updateInvites (id : Id) (filter : EnrollmentInvite → Bool)
    (data : EnrollmentInvite → EnrollmentInvite) : Action Nat :=
  statement fun db => match db.invites.lookup id with
    | some invite =>
      if filter invite then
        match db.inviteClash id (data invite) with
        | some target => .error (.unique target)
        | none => .ok (1, [.putInvite id (data invite)])
      else .ok (0, [])
    | none => .ok (0, [])

/-- `childEnrollment.updateMany` for one id. -/
def updateEnrollments (id : Id) (filter : ChildEnrollment → Bool)
    (data : ChildEnrollment → ChildEnrollment) : Action Nat :=
  statement fun db => match db.enrollments.lookup id with
    | some e => if filter e then .ok (1, [.putEnrollment id (data e)]) else .ok (0, [])
    | none => .ok (0, [])

/-- `childEnrollment.update`: the updated row. -/
def updateEnrollment (id : Id) (data : ChildEnrollment → ChildEnrollment) :
    Action ChildEnrollment :=
  statement fun db => match db.enrollments.lookup id with
    | some e => .ok (data e, [.putEnrollment id (data e)])
    | none => .error .recordNotFound

/-- `SELECT … FROM "ChildEnrollment" WHERE "id" = … FOR UPDATE`. -/
def lockEnrollment (id : Id) : Action (Option ChildEnrollment) :=
  statement fun db => .ok (db.enrollments.lookup id, [.lockEnrollment id])

/-- `childEnrollment.create` under the id Prisma generated for it. -/
def createEnrollment (id : Id) (row : ChildEnrollment) : Action Unit :=
  statement fun db =>
    if (db.enrollments.lookup id).isSome then .error (.unique "id")
    else if (db.children.lookup row.childId).isNone ∨ (db.schools.lookup row.schoolId).isNone then
      .error .foreignKey
    else if db.enrollments.rows.any fun r => r.2.childId = row.childId then
      .error (.unique "childId")
    else if row.enrollmentInviteId.isSome ∧
        db.enrollments.rows.any fun r => r.2.enrollmentInviteId = row.enrollmentInviteId then
      .error (.unique "enrollmentInviteId")
    else .ok ((), [.putEnrollment id row])

/-- `payment.create`. -/
def createPayment (id : Id) (row : Payment) : Action Unit :=
  statement fun db =>
    if (db.payments.lookup id).isSome then .error (.unique "id")
    else if (db.enrollments.lookup row.enrollmentId).isNone ∨
        (db.schools.lookup row.schoolId).isNone then
      .error .foreignKey
    else if row.idempotencyKey.isSome ∧
        db.payments.rows.any fun r => r.2.idempotencyKey = row.idempotencyKey then
      .error (.unique "idempotencyKey")
    else if row.paystackReference.isSome ∧
        db.payments.rows.any fun r => r.2.paystackReference = row.paystackReference then
      .error (.unique "paystackReference")
    else .ok ((), [.putPayment id row])

/-- `payment.update`. -/
def updatePayment (id : Id) (data : Payment → Payment) : Action Unit :=
  statement fun db => match db.payments.lookup id with
    | some p => .ok ((), [.putPayment id (data p)])
    | none => .error .recordNotFound

/-- `parent.create`. -/
def createParent (id : Id) (row : Parent) : Action Unit :=
  statement fun db =>
    if (db.parents.lookup id).isSome then .error (.unique "id")
    else if (db.users.lookup row.userId).isNone then .error .foreignKey
    else if db.parents.rows.any fun r => r.2.userId = row.userId then .error (.unique "userId")
    else .ok ((), [.putParent id row])

/-- `child.create`. -/
def createChild (id : Id) (row : Child) : Action Unit :=
  statement fun db =>
    if (db.children.lookup id).isSome then .error (.unique "id")
    else if (db.parents.lookup row.parentId).isNone then .error .foreignKey
    else if db.children.rows.any fun r => r.2 = row then
      .error (.unique "parentId,fullName,className")
    else .ok ((), [.putChild id row])

/-- `parent.createMany` of one row with `skipDuplicates`. -/
def createParentIfNew (id : Id) (row : Parent) : Action Unit :=
  statement fun db =>
    if (db.parents.lookup id).isSome ∨ db.parents.rows.any fun r => r.2.userId = row.userId then
      .ok ((), [])
    else if (db.users.lookup row.userId).isNone then .error .foreignKey
    else .ok ((), [.putParent id row])

/-- `child.createMany` of one row with `skipDuplicates`. -/
def createChildIfNew (id : Id) (row : Child) : Action Unit :=
  statement fun db =>
    if (db.children.lookup id).isSome ∨ db.children.rows.any fun r => r.2 = row then .ok ((), [])
    else if (db.parents.lookup row.parentId).isNone then .error .foreignKey
    else .ok ((), [.putChild id row])

/-- `enrollmentInvite.create` under the id Prisma generated for it, with the CHECK
    constraints of the table. -/
def createInvite (id : Id) (row : EnrollmentInvite) : Action Unit :=
  statement fun db =>
    if (db.invites.lookup id).isSome then .error (.unique "id")
    else if (db.schools.lookup row.schoolId).isNone ∨ (db.users.lookup row.createdByUserId).isNone
      then .error .foreignKey
    else if ¬ (0 < row.totalSchoolFee ∧ 0 ≤ row.amountAlreadyPaid ∧
        row.amountAlreadyPaid ≤ row.totalSchoolFee ∧ row.planStartDate < row.termEndDate) then
      .error .database
    else match db.inviteClash id row with
      | some target => .error (.unique target)
      | none => .ok ((), [.putInvite id row])

/-- `payment.deleteMany` for an enrollment: the number of rows. -/
def deletePayments (enrollmentId : Id) : Action Nat :=
  statement fun db =>
    let rows := db.paymentsOf enrollmentId fun _ => true
    .ok (rows.length, rows.map fun r => .deletePayment r.1 r.2)

/-- `childEnrollment.delete`. -/
def deleteEnrollment (id : Id) : Action Unit :=
  statement fun db => match db.enrollments.lookup id with
    | some row =>
      if db.payments.rows.any fun r => r.2.enrollmentId = id then .error .foreignKey
      else .ok ((), [.deleteEnrollment id row])
    | none => .error .recordNotFound

/-- `child.delete`. -/
def deleteChild (id : Id) : Action Unit :=
  statement fun db => match db.children.lookup id with
    | some row =>
      if db.enrollments.rows.any fun r => r.2.childId = id then .error .foreignKey
      else .ok ((), [.deleteChild id row])
    | none => .error .recordNotFound

/-- `webhookEvent.create`. -/
def createWebhookEvent (dedupeKey : String) (row : WebhookEvent) : Action Unit :=
  statement fun db =>
    if (db.webhookEvents.lookup dedupeKey).isSome then .error (.unique "dedupeKey")
    else .ok ((), [.putWebhookEvent dedupeKey row])

/-- `webhookEvent.update`. -/
def updateWebhookEvent (dedupeKey : String) (data : WebhookEvent → WebhookEvent) : Action Unit :=
  statement fun db => match db.webhookEvents.lookup dedupeKey with
    | some row => .ok ((), [.putWebhookEvent dedupeKey (data row)])
    | none => .error .recordNotFound

/-- `webhookEvent.delete`. -/
def deleteWebhookEvent (dedupeKey : String) : Action Unit :=
  statement fun db => match db.webhookEvents.lookup dedupeKey with
    | some _ => .ok ((), [.deleteWebhookEvent dedupeKey])
    | none => .error .recordNotFound

/-- `AuditService.record`. -/
def record (entry : AuditEntry) : Action Unit := statement fun _ => .ok ((), [.audit entry])

/-- `tx.notification.create`. -/
def insertNotification (n : Notification) : Action Unit :=
  statement fun _ => .ok ((), [.notification n])

end Lopay
