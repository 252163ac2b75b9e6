import Lopay.Money
import Lopay.Transactions.Logic
import Lopay.Transactions.Table

/-!
# The database

Rows, enumerations and unique keys as `prisma/schema.prisma` declares them; every
column that some modelled function reads or writes is here. Instants are
milliseconds, amounts kobo. A write puts one whole row, appends to a log, or takes
a `FOR UPDATE` lock; `store` says what each write does and which rows, and which
entries of unique indexes, it locks until its transaction ends.
-/

namespace Lopay

abbrev Id := String

inductive UserRole where
  | SUPER_ADMIN | SCHOOL_OWNER | PARENT
deriving DecidableEq

inductive PaymentStatus where
  | PENDING | ACTIVE | COMPLETED | DEFAULTED | FAILED
deriving DecidableEq

inductive PaymentTransactionStatus where
  | PENDING | SUCCESS | FAILED | REVERSED
deriving DecidableEq

inductive PaymentType where
  | FIRST_PAYMENT | INSTALLMENT | MIGRATED_PAYMENT
deriving DecidableEq

inductive PaymentReceiver where
  | PLATFORM | SCHOOL
deriving DecidableEq

inductive InstallmentFrequency where
  | WEEKLY | MONTHLY
deriving DecidableEq

inductive AuditAction where
  | PAYMENT_CONFIRMED | PAYMENT_REJECTED | PAYMENT_REVERSED
  | FIRST_PAYMENT_CONFIRMED | FIRST_PAYMENT_SETTLED | FIRST_PAYMENT_REJECTED
  | FIRST_PAYMENT_PAID | ENROLLMENT_DEFAULTED | PAYMENT_DISPUTED
  | ENROLLMENT_INVITE_CREATED | ENROLLMENT_INVITE_CLAIMED | ENROLLMENT_INVITE_DISPUTED
  | ENROLLMENT_INVITE_REVOKED | ENROLLMENT_INVITE_RELEASED | MIGRATED_PAYMENT_AMENDED
deriving DecidableEq

inductive EnrollmentInviteStatus where
  | PENDING | CLAIMED | DISPUTED | REVOKED | EXPIRED
deriving DecidableEq

inductive NotificationType where
  | PAYMENT | ALERT

/-! ### Rows -/

structure User where
  email : String
  role : UserRole
  fullName : Option String
  name : Option String
  phoneNumber : Option String
  phoneHash : Option String

structure School where
  name : String
  phone : String
  ownerId : Id
  paystackSubaccountCode : Option String
  paystackSubaccountActive : Bool
  deletedAt : Option Int
  migrationDeadline : Int

structure ClassFee where
  schoolId : Id
  className : String
  feeAmount : Int
  isActive : Bool

structure Parent where
  userId : Id
  phoneNumber : String

structure Child where
  parentId : Id
  fullName : String
  className : String
deriving DecidableEq

structure ChildEnrollment where
  childId : Id
  schoolId : Id
  className : String
  totalSchoolFee : Int
  platformFee : Int
  schoolMinimumFee : Int
  firstPaymentPaid : Int
  remainingBalance : Int
  paymentStatus : PaymentStatus
  installmentFrequency : InstallmentFrequency
  termStartDate : Int
  termEndDate : Int
  enrollmentInviteId : Option Id

structure Payment where
  enrollmentId : Id
  schoolId : Id
  idempotencyKey : Option String
  amountPaid : Int
  platformAmount : Int
  schoolAmount : Int
  receiver : PaymentReceiver
  paymentType : PaymentType
  status : PaymentTransactionStatus
  isConfirmed : Bool
  paymentDate : Int
  receiptUrl : Option String
  paystackReference : Option String
  paystackAccessCode : Option String
  amountCharged : Option Int
  paystackFee : Option Int
  actualPaystackFee : Option Int
  transactionCharge : Option Int
deriving DecidableEq

structure EnrollmentInvite where
  schoolId : Id
  createdByUserId : Id
  studentName : String
  className : String
  totalSchoolFee : Int
  amountAlreadyPaid : Int
  phoneNumber : String
  parentPhoneHash : String
  installmentFrequency : InstallmentFrequency
  planStartDate : Int
  termEndDate : Int
  tokenHash : String
  expiresAt : Int
  status : EnrollmentInviteStatus
  disputeReason : Option String
  disputedAt : Option Int
  revokedAt : Option Int
  revokedByUserId : Option Id
  claimedByUserId : Option Id
  claimedAt : Option Int
  claimantPhoneMatched : Option Bool

/-- Statuses that still occupy the one-invite-per-student slot. -/
def SLOT_HOLDING_STATUSES : List EnrollmentInviteStatus := [.PENDING, .DISPUTED, .CLAIMED]

/-! ### Errors -/

/-- A failed call to Paystack: its refusal, or no usable answer at all (a timeout,
    a 5xx, an open circuit). -/
inductive PaystackError where
  | api (providerStatus : Nat) (paystackMessage : String)
  | unavailable
deriving DecidableEq

/-- What a call can throw. `unique` is a violated unique index (`P2002`),
    `recordNotFound` an update of an absent row (`P2025`), `foreignKey` a dangling
    relation (`P2003`), and `database` every other failure of a statement or a
    commit. -/
inductive Err where
  | badRequest (message : String)
  | notFound (message : String)
  | forbidden (message : String)
  | internal (message : String)
  | unique (target : String)
  | recordNotFound
  | foreignKey
  | database
  | paystack (error : PaystackError)
  | notification
deriving DecidableEq

/-- The text kept with an unprocessed webhook: given, or an error's message. -/
inductive ErrorText where
  | text (s : String)
  | messageOf (e : Err)

/-! ### Webhooks and logs -/

/-- The fields of `data` in a Paystack event that the handlers read. -/
structure PaystackWebhookData where
  id : Option String
  reference : Option String
  fees : Option Int

structure PaystackWebhookEvent where
  event : Option String
  data : Option PaystackWebhookData

/-- What a `WebhookEvent` row keeps of what happened. -/
inductive WebhookPayload where
  | event (event : PaystackWebhookEvent)
  | conflict (paymentId enrollmentId schoolId : Id) (localStatus : PaymentTransactionStatus)
      (amountPaid : Int) (actualPaystackFee : Option Int)

/-- Stored under its `dedupeKey`. -/
structure WebhookEvent where
  provider : String
  eventType : String
  reference : Option String
  payload : WebhookPayload
  processedAt : Option Int
  error : Option ErrorText

structure Notification where
  userId : Id
  title : String
  message : String
  type : NotificationType
  link : Option String

/-- A JSON leaf in the `before`, `after` and `metadata` columns. -/
inductive AuditValue where
  | null
  | num (n : Int)
  | bool (b : Bool)
  | str (s : String)
  | transaction (s : PaymentTransactionStatus)
  | plan (s : PaymentStatus)
  | type (t : PaymentType)
  | invite (s : EnrollmentInviteStatus)
  | rows (items : List (List (String × AuditValue)))

abbrev AuditFields := List (String × AuditValue)

structure AuditActor where
  userId : Id
  role : Option UserRole

structure AuditEntry where
  action : AuditAction
  entityType : String
  entityId : Id
  actor : Option AuditActor
  schoolId : Option Id
  reason : Option String
  before : Option AuditFields
  after : Option AuditFields
  metadata : Option AuditFields

/-- The committed database. -/
structure Db where
  users : Transactions.Table Id User
  schools : Transactions.Table Id School
  classFees : Transactions.Table Id ClassFee
  parents : Transactions.Table Id Parent
  children : Transactions.Table Id Child
  enrollments : Transactions.Table Id ChildEnrollment
  payments : Transactions.Table Id Payment
  invites : Transactions.Table Id EnrollmentInvite
  webhookEvents : Transactions.Table String WebhookEvent
  auditLogs : List AuditEntry
  notifications : List Notification

/-! ### Writes and locks -/

inductive Write where
  | lockEnrollment (id : Id)
  | putParent (id : Id) (row : Parent)
  | putChild (id : Id) (row : Child)
  | putEnrollment (id : Id) (row : ChildEnrollment)
  | putPayment (id : Id) (row : Payment)
  | putInvite (id : Id) (row : EnrollmentInvite)
  | putWebhookEvent (dedupeKey : String) (row : WebhookEvent)
  | deleteWebhookEvent (dedupeKey : String)
  | deletePayment (id : Id) (row : Payment)
  | deleteEnrollment (id : Id) (row : ChildEnrollment)
  | deleteChild (id : Id) (row : Child)
  | audit (entry : AuditEntry)
  | notification (row : Notification)

/-- A locked row, or a locked entry of a unique index. -/
inductive Lock where
  | parent (id : Id)
  | child (id : Id)
  | enrollment (id : Id)
  | payment (id : Id)
  | invite (id : Id)
  | webhookEvent (dedupeKey : String)
  | parentUserId (userId : Id)
  | childIdentity (parentId : Id) (fullName className : String)
  | enrollmentChildId (childId : Id)
  | enrollmentInviteId (inviteId : Id)
  | idempotencyKey (key : String)
  | paystackReference (reference : String)
  | inviteTokenHash (tokenHash : String)
  | liveStudent (schoolId : Id) (studentName className : String)
  | migratedStudent (schoolId : Id) (studentName : String)
deriving DecidableEq

/-- `lower` of the database. -/
def lower (text : String) : String := text.map Char.toLower

def Write.apply : Write → Db → Db
  | .lockEnrollment _, db => db
  | .putParent k r, db => { db with parents := db.parents.insert k r }
  | .putChild k r, db => { db with children := db.children.insert k r }
  | .putEnrollment k r, db => { db with enrollments := db.enrollments.insert k r }
  | .putPayment k r, db => { db with payments := db.payments.insert k r }
  | .putInvite k r, db => { db with invites := db.invites.insert k r }
  | .putWebhookEvent k r, db => { db with webhookEvents := db.webhookEvents.insert k r }
  | .deleteWebhookEvent k, db => { db with webhookEvents := db.webhookEvents.erase k }
  | .deletePayment k _, db => { db with payments := db.payments.erase k }
  | .deleteEnrollment k _, db => { db with enrollments := db.enrollments.erase k }
  | .deleteChild k _, db => { db with children := db.children.erase k }
  | .audit entry, db => { db with auditLogs := db.auditLogs ++ [entry] }
  | .notification row, db => { db with notifications := db.notifications ++ [row] }

def Write.locks : Write → List Lock
  | .lockEnrollment k => [.enrollment k]
  | .putParent k r => [.parent k, .parentUserId r.userId]
  | .putChild k r | .deleteChild k r =>
    [.child k, .childIdentity r.parentId r.fullName r.className]
  | .putEnrollment k r | .deleteEnrollment k r =>
    .enrollment k :: .enrollmentChildId r.childId ::
      (r.enrollmentInviteId.map Lock.enrollmentInviteId).toList
  | .putPayment k r | .deletePayment k r =>
    .payment k :: ((r.idempotencyKey.map Lock.idempotencyKey).toList ++
      (r.paystackReference.map Lock.paystackReference).toList)
  | .putInvite k r => .invite k :: .inviteTokenHash r.tokenHash ::
      ((if r.status ∈ SLOT_HOLDING_STATUSES then
        [Lock.liveStudent r.schoolId r.studentName r.className] else []) ++
      (if r.status = .CLAIMED then [Lock.migratedStudent r.schoolId (lower r.studentName)] else []))
  | .putWebhookEvent k _ => [.webhookEvent k]
  | .deleteWebhookEvent k => [.webhookEvent k]
  | .audit _ => []
  | .notification _ => []

def store : Transactions.Store Db Write Lock where
  apply := Write.apply
  locks := Write.locks

open Transactions

/-- What holding a lock keeps the same. For an entry of a unique index over payments
    this is that nobody else comes to hold the value. -/
def agree : Lock → Db → Db → Prop
  | .enrollment k, s, t => t.enrollments.lookup k = s.enrollments.lookup k
  | .payment k, s, t => t.payments.lookup k = s.payments.lookup k
  | .invite k, s, t => t.invites.lookup k = s.invites.lookup k
  | .webhookEvent k, s, t => t.webhookEvents.lookup k = s.webhookEvents.lookup k
  | .paystackReference r, s, t => ∀ k p, t.payments.lookup k = some p →
      p.paystackReference = some r → s.payments.lookup k = some p
  | .idempotencyKey key, s, t => ∀ k p, t.payments.lookup k = some p →
      p.idempotencyKey = some key → s.payments.lookup k = some p
  | _, _, _ => True

@[simp] theorem store_apply (w : Write) (db : Db) : store.apply w db = w.apply db := rfl

@[simp] theorem store_locks (w : Write) : store.locks w = w.locks := rfl

theorem store_frame : store.Frame agree where
  refl := by
    intro k s
    cases k <;> simp only [agree]
    · intro k p hp _
      exact hp
    · intro k p hp _
      exact hp
  trans := by
    intro k s t u hst htu
    cases k <;> simp only [agree] at hst htu ⊢
    · exact htu.trans hst
    · exact htu.trans hst
    · exact htu.trans hst
    · exact htu.trans hst
    · intro k p hp hkey
      exact hst k p (htu k p hp hkey) hkey
    · intro k p hp hr
      exact hst k p (htu k p hp hr) hr
  frame := by
    intro k w s hk
    cases k with
    | enrollment k =>
      cases w with
      | putEnrollment k' r =>
        have hne : k ≠ k' := by
          rintro rfl
          exact hk List.mem_cons_self
        exact AList.lookup_insert_ne hne
      | deleteEnrollment k' r =>
        have hne : k ≠ k' := by
          rintro rfl
          exact hk List.mem_cons_self
        exact AList.lookup_erase_ne hne
      | _ => rfl
    | payment k =>
      cases w with
      | putPayment k' r =>
        have hne : k ≠ k' := by
          rintro rfl
          exact hk List.mem_cons_self
        exact AList.lookup_insert_ne hne
      | deletePayment k' r =>
        have hne : k ≠ k' := by
          rintro rfl
          exact hk List.mem_cons_self
        exact AList.lookup_erase_ne hne
      | _ => rfl
    | invite k =>
      cases w with
      | putInvite k' r =>
        have hne : k ≠ k' := by
          rintro rfl
          exact hk List.mem_cons_self
        exact AList.lookup_insert_ne hne
      | _ => rfl
    | webhookEvent k =>
      cases w with
      | putWebhookEvent k' r =>
        have hne : k ≠ k' := by
          rintro rfl
          exact hk List.mem_cons_self
        exact AList.lookup_insert_ne hne
      | deleteWebhookEvent k' =>
        have hne : k ≠ k' := by
          rintro rfl
          exact hk List.mem_cons_self
        exact AList.lookup_erase_ne hne
      | _ => rfl
    | idempotencyKey key =>
      cases w with
      | putPayment k' row =>
        intro j p hp hkey
        rcases Table.lookup_insert_some hp with ⟨rfl, rfl⟩ | ⟨-, hold⟩
        · exact absurd (by simp [Write.locks, hkey]) hk
        · exact hold
      | deletePayment k' row => exact fun j p hp _ => Table.lookup_of_erase hp
      | _ => exact fun _ _ hp _ => hp
    | paystackReference r =>
      cases w with
      | putPayment k' row =>
        intro j p hp hr
        rcases Table.lookup_insert_some hp with ⟨rfl, rfl⟩ | ⟨-, hold⟩
        · exact absurd (by simp [Write.locks, hr]) hk
        · exact hold
      | deletePayment k' row => exact fun j p hp _ => Table.lookup_of_erase hp
      | _ => exact fun _ _ hp _ => hp
    | _ => trivial

end Lopay
