import Lopay.Books.Coherent

/-!
# Postings: what a committed transaction does to the books

Whatever operation runs, and whatever runs beside it, the writes it commits at once
come down to an `Entry`: at most one payment row put, at most one enrollment row put,
at most one audit row. `Posting E s kind entry` lists the entries that exist, one
constructor for each way the source changes the books, in terms of the rows in the
database `s` that the commit lands on.

A transaction may have decided something on a database older than `s`. Where that
shows, the constructor names the older database `c` and relates it to `s` by `E`;
with nobody running beside it, `E` is equality.
-/

namespace Lopay

open Transactions

/-! ### Entries -/

structure Entry where
  payment : Option (Id × Payment)
  plan : Option (Id × ChildEnrollment)
  audit : Option AuditEntry

/-- The payments after an entry. -/
def Entry.payments (entry : Entry) (s : Db) : Table Id Payment :=
  match entry.payment with
  | some (k, p) => s.payments.insert k p
  | none => s.payments

/-- The enrollment under a key after an entry. -/
def Entry.enrollment (entry : Entry) (s : Db) (k : Id) : Option ChildEnrollment :=
  match entry.plan with
  | some (k', e) => if k = k' then some e else s.enrollments.lookup k
  | none => s.enrollments.lookup k

/-- `t`, reached from `s` by writes that lock `locks`, is `s` with the entry made. -/
structure Entry.Made (entry : Entry) (s t : Db) (locks : List Lock) : Prop where
  payments : t.payments = entry.payments s
  enrollments : ∀ k, t.enrollments.lookup k = entry.enrollment s k
  auditLogs : t.auditLogs = s.auditLogs ++ entry.audit.toList
  locked : ∀ k e, entry.plan = some (k, e) → Lock.enrollment k ∈ locks
  children : ∀ k c, s.children.lookup k = some c → t.children.lookup k = some c
  parented : s.Parented → t.Parented
  parents : ∀ k r, s.parents.lookup k = some r → t.parents.lookup k = some r
  schools : t.schools = s.schools
  users : t.users = s.users
  classFees : t.classFees = s.classFees

/-! ### Rows after an operation -/

def Payment.confirmedOn (p : Payment) (date : Int) : Payment :=
  { p with isConfirmed := true, status := .SUCCESS, paymentDate := date }

def Payment.paidOn (p : Payment) (date : Int) (fee : Option Int) : Payment :=
  { p.confirmedOn date with actualPaystackFee := fee }

/-- The balance after an installment: clamped at zero, where the plan is complete. -/
def ChildEnrollment.paidDown (e : ChildEnrollment) (amount : Int) : ChildEnrollment :=
  if e.remainingBalance - amount ≤ 0 then
    { e with remainingBalance := 0, paymentStatus := .COMPLETED }
  else { e with remainingBalance := e.remainingBalance - amount }

/-- The plan after its first payment was credited. -/
def ChildEnrollment.openedBy (e : ChildEnrollment) (amount : Int) : ChildEnrollment :=
  { e with
    remainingBalance := max 0 (e.remainingBalance - amount)
    paymentStatus := if e.remainingBalance - amount ≤ 0 then .COMPLETED else .ACTIVE }

/-- The plan after an installment was taken back; `before` is the row as it was read
    ahead of the update. -/
def ChildEnrollment.restored (e : ChildEnrollment) (amount : Int) (before : ChildEnrollment) :
    ChildEnrollment :=
  { e with
    remainingBalance := min (e.remainingBalance + amount) before.totalSchoolFee
    paymentStatus := if before.paymentStatus = .COMPLETED then .ACTIVE else before.paymentStatus }

/-- The plan after its card payment was disputed. -/
def ChildEnrollment.disputed (e before : ChildEnrollment) : ChildEnrollment :=
  if before.paymentStatus = .ACTIVE ∨ before.paymentStatus = .COMPLETED then
    { e with paymentStatus := .FAILED, remainingBalance := before.totalSchoolFee }
  else { e with paymentStatus := .FAILED }

/-- The plan after its migrated amount was restated. -/
def ChildEnrollment.amended (e : ChildEnrollment) (newAmount installmentsPaid : Int) :
    ChildEnrollment :=
  { e with
    firstPaymentPaid := newAmount
    remainingBalance := e.totalSchoolFee - newAmount - installmentsPaid
    paymentStatus := statusAfterMigratedAmendment e.paymentStatus
      (e.totalSchoolFee - newAmount - installmentsPaid) }

/-! ### The ways to change the books -/

/-- What an entry is for, with the arguments that single the operation out. -/
inductive Kind where
  | confirm (paymentId : Id)
  | reverse (paymentId : Id)
  | reject (paymentId schoolId : Id)
  | rejectFirst (paymentId : Id)
  | fail (reference : String)
  | credit (action : AuditAction)
  | dispute (reference : String)
  | markDefaulted (enrollmentId : Id)
  | sweepDefaulted
  | openPlan (reference : Option String)
  | reopenPlan (reference : Option String)
  | submit
  | migrate
  | amend
  | releaseKey
  | storeAccessCode (paymentId : Id)
  | aside

/-- The payments that `reject`, `rejectFirst` and `fail` close. -/
def Kind.Closes (kind : Kind) (k : Id) (p : Payment) : Prop :=
  match kind with
  | .reject paymentId schoolId => k = paymentId ∧ p.schoolId = schoolId
  | .rejectFirst paymentId => k = paymentId ∧ p.paymentType = .FIRST_PAYMENT ∧
      p.receiver = .PLATFORM ∧ p.paystackReference = none
  | .fail reference => p.paystackReference = some reference ∧ p.status = .PENDING
  | _ => False

/-- The audit actions that record a credited first payment. -/
def AuditAction.CreditsFirst (action : AuditAction) : Prop :=
  action = .FIRST_PAYMENT_SETTLED ∨ action = .FIRST_PAYMENT_CONFIRMED ∨
    action = .FIRST_PAYMENT_PAID

def AuditEntry.IsAbout (a : AuditEntry) (action : AuditAction) (entityId : Id) : Prop :=
  a.action = action ∧ a.entityId = entityId

/-- A new first payment `p` under the key `k`, for the PENDING plan `e`. -/
structure Opens (s : Db) (k : Id) (p : Payment) (e : ChildEnrollment) : Prop where
  fresh : s.payments.lookup k = none
  schoolId : p.schoolId = e.schoolId
  paymentType : p.paymentType = .FIRST_PAYMENT
  receiver : p.receiver = .PLATFORM
  status : p.status = .PENDING
  isConfirmed : p.isConfirmed = false
  accessCode : p.paystackAccessCode = none
  amount : 0 ≤ p.schoolAmount
  new_reference : ∀ k' q r, s.payments.lookup k' = some q → q.paystackReference = some r →
    p.paystackReference ≠ some r
  new_key : ∀ k' q key, s.payments.lookup k' = some q → q.idempotencyKey = some key →
    p.idempotencyKey ≠ some key
  fee : 0 < e.totalSchoolFee
  balance : e.remainingBalance = e.totalSchoolFee
  pending : e.paymentStatus = .PENDING
  notMigrated : e.enrollmentInviteId = none

inductive Posting (E : Db → Db → Prop) (s : Db) : Kind → Entry → Prop
  /-- The school confirms an installment. -/
  | confirm {k : Id} {p : Payment} {e : ChildEnrollment} {date : Int} {a : AuditEntry} :
      s.payments.lookup k = some p → p.paymentType = .INSTALLMENT → p.isConfirmed = false →
      s.enrollments.lookup p.enrollmentId = some e → a.IsAbout .PAYMENT_CONFIRMED k →
      Posting E s (.confirm k)
        ⟨some (k, p.confirmedOn date), some (p.enrollmentId, e.paidDown p.amountPaid), some a⟩
  /-- The school takes its confirmation back. -/
  | reverse {k : Id} {p : Payment} {e before : ChildEnrollment} {c : Db} {a : AuditEntry} :
      s.payments.lookup k = some p → p.paymentType = .INSTALLMENT → p.isConfirmed = true →
      p.status = .SUCCESS → s.enrollments.lookup p.enrollmentId = some e →
      E c s → Coherent c → c.enrollments.lookup p.enrollmentId = some before →
      a.IsAbout .PAYMENT_REVERSED k → c.payments.lookup k = some p →
      Posting E s (.reverse k)
        ⟨some (k, { p with status := .REVERSED, isConfirmed := false }),
          some (p.enrollmentId, e.restored p.amountPaid before), some a⟩
  /-- The school rejects a payment that is not a first payment. -/
  | reject {paymentId schoolId : Id} {p : Payment} {a : AuditEntry} :
      s.payments.lookup paymentId = some p → p.schoolId = schoolId →
      p.paymentType ≠ .FIRST_PAYMENT → p.isConfirmed = false →
      a.IsAbout .PAYMENT_REJECTED paymentId →
      Posting E s (.reject paymentId schoolId)
        ⟨some (paymentId, { p with status := .FAILED }), none, some a⟩
  /-- A first payment is closed without money, and its plan with it. -/
  | close {kind : Kind} {k : Id} {p : Payment} {e : ChildEnrollment} {audit : Option AuditEntry} :
      s.payments.lookup k = some p → kind.Closes k p → p.paymentType = .FIRST_PAYMENT →
      p.isConfirmed = false → s.enrollments.lookup p.enrollmentId = some e →
      (∀ a ∈ audit, a.IsAbout .PAYMENT_REJECTED k ∨ a.IsAbout .FIRST_PAYMENT_REJECTED k) →
      Posting E s kind
        ⟨some (k, { p with status := .FAILED }),
          some (p.enrollmentId, { e with paymentStatus := .FAILED }), audit⟩
  /-- A first payment is credited and opens its plan. -/
  | credit {action : AuditAction} {k : Id} {p : Payment} {e : ChildEnrollment} {date : Int}
      {fee : Option Int} {a : AuditEntry} :
      action.CreditsFirst → s.payments.lookup k = some p → p.paymentType = .FIRST_PAYMENT →
      p.isConfirmed = false → (action = .FIRST_PAYMENT_PAID → p.status = .PENDING) →
      s.enrollments.lookup p.enrollmentId = some e → a.IsAbout action k →
      (action ≠ .FIRST_PAYMENT_PAID → p.paystackReference = none) →
      Posting E s (.credit action)
        ⟨some (k, p.paidOn date fee),
          some (p.enrollmentId, e.openedBy p.schoolAmount), some a⟩
  /-- A captured first payment is taken back. -/
  | dispute {reference : String} {k : Id} {p : Payment} {e before : ChildEnrollment} {c : Db}
      {a : AuditEntry} :
      s.payments.lookup k = some p → p.paystackReference = some reference →
      p.paymentType = .FIRST_PAYMENT → p.status = .SUCCESS →
      s.enrollments.lookup p.enrollmentId = some e → E c s → Coherent c →
      c.enrollments.lookup p.enrollmentId = some before → a.IsAbout .PAYMENT_DISPUTED k →
      Posting E s (.dispute reference)
        ⟨some (k, { p with status := .FAILED, isConfirmed := false }),
          some (p.enrollmentId, e.disputed before), some a⟩
  | markDefaulted {k : Id} {e : ChildEnrollment} {a : AuditEntry} :
      s.enrollments.lookup k = some e → a.IsAbout .ENROLLMENT_DEFAULTED k →
      Posting E s (.markDefaulted k)
        ⟨none, some (k, { e with paymentStatus := .DEFAULTED }), some a⟩
  | sweepDefaulted {k : Id} {e : ChildEnrollment} {a : AuditEntry} :
      s.enrollments.lookup k = some e → e.paymentStatus = .ACTIVE → 0 < e.remainingBalance →
      a.IsAbout .ENROLLMENT_DEFAULTED k →
      Posting E s .sweepDefaulted ⟨none, some (k, { e with paymentStatus := .DEFAULTED }), some a⟩
  /-- A plan is created with its first payment. -/
  | openPlan {reference : Option String} {k k' : Id} {p : Payment} {e : ChildEnrollment} :
      s.enrollments.lookup k' = none → Opens s k p e → p.enrollmentId = k' →
      p.paystackReference = reference →
      (∃ c, s.children.lookup e.childId = some c) →
      (∃ school, s.schools.lookup e.schoolId = some school) →
      Posting E s (.openPlan reference) ⟨some (k, p), some (k', e), none⟩
  /-- A plan is opened again for a new first payment. -/
  | reopenPlan {reference : Option String} {k k' : Id} {p : Payment} {e₀ e : ChildEnrollment} :
      s.enrollments.lookup k' = some e₀ → e₀.Continues e → Opens s k p e → p.enrollmentId = k' →
      p.paystackReference = reference →
      Posting E s (.reopenPlan reference) ⟨some (k, p), some (k', e), none⟩
  /-- An installment is submitted within what is still available; the plan is only
      locked. -/
  | submit {k : Id} {p : Payment} {e : ChildEnrollment} :
      s.payments.lookup k = none → (∀ k' q key, s.payments.lookup k' = some q →
        q.idempotencyKey = some key → p.idempotencyKey ≠ some key) →
      p.paymentType = .INSTALLMENT → p.status = .PENDING →
      p.isConfirmed = false → p.paystackReference = none → 0 < p.amountPaid →
      p.schoolAmount = p.amountPaid → s.enrollments.lookup p.enrollmentId = some e →
      p.schoolId = e.schoolId →
      p.amountPaid + Enrollment.installmentsReserved p.enrollmentId s ≤ e.remainingBalance →
      Posting E s .submit ⟨some (k, p), some (p.enrollmentId, e), none⟩
  /-- A migrated plan is opened by the claim of its invite. -/
  | migrate {k k' inviteId childId : Id} {invite : EnrollmentInvite} {now : Int} {a : AuditEntry} :
      s.payments.lookup k = none → s.enrollments.lookup k' = none →
      0 < invite.totalSchoolFee → 0 ≤ invite.amountAlreadyPaid →
      invite.amountAlreadyPaid ≤ invite.totalSchoolFee →
      (∃ c, s.children.lookup childId = some c) →
      (∃ school, s.schools.lookup invite.schoolId = some school) →
      a.IsAbout .ENROLLMENT_INVITE_CLAIMED k →
      Posting E s .migrate
        ⟨some (k, Ledger.migratedPayment k' invite now),
          some (k', Ledger.migratedEnrollment inviteId invite childId), some a⟩
  /-- The amount a migrated plan opened with is corrected. -/
  | amend {k : Id} {p : Payment} {e : ChildEnrollment} {newAmount : Int} {a : AuditEntry} :
      s.payments.lookup k = some p → p.paymentType = .MIGRATED_PAYMENT → p.status = .SUCCESS →
      0 ≤ newAmount → s.enrollments.lookup p.enrollmentId = some e →
      0 ≤ e.totalSchoolFee - newAmount - Ledger.installmentsConfirmed p.enrollmentId s →
      a.IsAbout .MIGRATED_PAYMENT_AMENDED k →
      Posting E s .amend
        ⟨some (k, { p with amountPaid := newAmount, schoolAmount := newAmount }),
          some (p.enrollmentId,
            e.amended newAmount (Ledger.installmentsConfirmed p.enrollmentId s)), some a⟩
  /-- The idempotency key of a settled payment is released. -/
  | releaseKey {k : Id} {p : Payment} :
      s.payments.lookup k = some p →
      Posting E s .releaseKey ⟨some (k, { p with idempotencyKey := none }), none, none⟩
  /-- The access code of an accepted charge is stored. -/
  | storeAccessCode {k : Id} {p : Payment} {accessCode : String} :
      s.payments.lookup k = some p →
      Posting E s (.storeAccessCode k)
        ⟨some (k, { p with paystackAccessCode := some accessCode }), none, none⟩
  /-- Rows beside the books: parents, children, webhook events. -/
  | aside : Posting E s .aside ⟨none, none, none⟩

/-- The writes `ws`, committed on `s`, make an entry of this kind. -/
def Posts (E : Db → Db → Prop) (kind : Kind) (s : Db) (ws : List Write) : Prop :=
  ∃ entry, Posting E s kind entry ∧ entry.Made s (store.applyAll ws s) (store.locksOf ws)

theorem Posting.mono {E E' : Db → Db → Prop} (hE : ∀ s t, E s t → E' s t) {s : Db} {kind : Kind}
    {entry : Entry} (h : Posting E s kind entry) : Posting E' s kind entry := by
  cases h with
  | confirm h₁ h₂ h₃ h₄ h₅ => exact .confirm h₁ h₂ h₃ h₄ h₅
  | reverse h₁ h₂ h₃ h₄ h₅ h₆ h₇ h₈ h₉ h₁₀ =>
    exact .reverse h₁ h₂ h₃ h₄ h₅ (hE _ _ h₆) h₇ h₈ h₉ h₁₀
  | reject h₁ h₂ h₃ h₄ h₅ => exact .reject h₁ h₂ h₃ h₄ h₅
  | close h₁ h₂ h₃ h₄ h₅ h₆ => exact .close h₁ h₂ h₃ h₄ h₅ h₆
  | credit h₁ h₂ h₃ h₄ h₅ h₆ h₇ h₈ => exact .credit h₁ h₂ h₃ h₄ h₅ h₆ h₇ h₈
  | dispute h₁ h₂ h₃ h₄ h₅ h₆ h₇ h₈ h₉ => exact .dispute h₁ h₂ h₃ h₄ h₅ (hE _ _ h₆) h₇ h₈ h₉
  | markDefaulted h₁ h₂ => exact .markDefaulted h₁ h₂
  | sweepDefaulted h₁ h₂ h₃ h₄ => exact .sweepDefaulted h₁ h₂ h₃ h₄
  | openPlan h₁ h₂ h₃ h₄ h₅ h₆ => exact .openPlan h₁ h₂ h₃ h₄ h₅ h₆
  | reopenPlan h₁ h₂ h₃ h₄ h₅ => exact .reopenPlan h₁ h₂ h₃ h₄ h₅
  | submit h₁ h₂ h₃ h₄ h₅ h₆ h₇ h₈ h₉ h₁₀ h₁₁ =>
    exact .submit h₁ h₂ h₃ h₄ h₅ h₆ h₇ h₈ h₉ h₁₀ h₁₁
  | migrate h₁ h₂ h₃ h₄ h₅ h₆ h₇ h₈ => exact .migrate h₁ h₂ h₃ h₄ h₅ h₆ h₇ h₈
  | amend h₁ h₂ h₃ h₄ h₅ h₆ h₇ => exact .amend h₁ h₂ h₃ h₄ h₅ h₆ h₇
  | releaseKey h₁ => exact .releaseKey h₁
  | storeAccessCode h₁ => exact .storeAccessCode h₁
  | aside => exact .aside

theorem Posts.mono {E E' : Db → Db → Prop} (hE : ∀ s t, E s t → E' s t) {kind : Kind} {s : Db}
    {ws : List Write} (h : Posts E kind s ws) : Posts E' kind s ws := by
  obtain ⟨entry, hposting, hmade⟩ := h
  exact ⟨entry, hposting.mono hE, hmade⟩

end Lopay
