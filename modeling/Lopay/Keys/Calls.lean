import Lopay.Books.Jobs
import Lopay.Transactions.Counting

/-!
# Calls that take an idempotency key

`submitInstallmentPayment` and `initiateFirstPayment` with what they answer, and what the
answer may be about: a payment on a plan of one of the caller's children that the request
names. `KeyInHand` says that the payment under the caller's key is such a payment, or a
settled one of the caller's.
-/

namespace Lopay

open Transactions Enrollment

inductive KeyedCall where
  | submitInstallmentPayment (enrollmentId : Id) (amountPaid : ℚ) (user : AuthUser)
      (receiptUrl idempotencyKey : Option String)
  | initiateFirstPayment (env : Environment) (dto : CreateEnrollmentDto) (userId : Id)

inductive KeyedReply where
  | submitted (reply : InstallmentReply)
  | initiated (reply : InitiationReply)

/-- The enrollment is one of a child of the user. -/
def Db.Owns (db : Db) (userId enrollmentId : Id) : Prop :=
  ∃ plan, db.plan? enrollmentId = some plan ∧ plan.parent.userId = userId

namespace KeyedCall

def action : KeyedCall → Action KeyedReply
  | submitInstallmentPayment enrollmentId amountPaid user receiptUrl idempotencyKey =>
    KeyedReply.submitted <$> Enrollment.submitInstallmentPayment enrollmentId amountPaid user
      receiptUrl idempotencyKey
  | initiateFirstPayment env dto userId =>
    KeyedReply.initiated <$> Enrollment.initiateFirstPayment env dto userId

def userId : KeyedCall → Id
  | submitInstallmentPayment _ _ user _ _ => user.userId
  | initiateFirstPayment _ _ userId => userId

/-- The key of the request, if it has one. -/
def key? : KeyedCall → Option String
  | submitInstallmentPayment _ _ _ _ idempotencyKey => given idempotencyKey
  | initiateFirstPayment _ dto _ => given dto.idempotencyKey

def receiptUrl : KeyedCall → Option String
  | submitInstallmentPayment _ _ _ receiptUrl _ => receiptUrl
  | initiateFirstPayment _ dto _ => dto.receiptUrl

/-- The request names this plan: by its enrollment, or by its school and its child. -/
def Concerns : KeyedCall → Plan → Prop
  | submitInstallmentPayment enrollmentId .., plan => plan.id = enrollmentId
  | initiateFirstPayment _ dto _, plan => plan.row.schoolId = dto.schoolId ∧
    match given dto.childId with
    | some childId => plan.row.childId = childId
    | none => given dto.childName = some plan.child.fullName ∧ plan.child.className = dto.className

variable (call : KeyedCall)

/-- The enrollment is one of a child of the caller that the request names. -/
def Names (db : Db) (enrollmentId : Id) : Prop :=
  ∃ plan, db.plan? enrollmentId = some plan ∧ plan.parent.userId = call.userId ∧
    call.Concerns plan

/-- The payment under the key of the request is one of the caller's; and one that would be
    replayed is on the plan that the request names. -/
def KeyInHand (db : Db) : Prop :=
  ∀ key k p, call.key? = some key → db.payments.lookup k = some p →
    p.idempotencyKey = some key → db.Owns call.userId p.enrollmentId ∧
      (isReplayableIntent p.status = true → call.Names db p.enrollmentId)

instance (plan : Plan) : Decidable (call.Concerns plan) :=
  match call with
  | submitInstallmentPayment enrollmentId .. => inferInstanceAs (Decidable (plan.id = enrollmentId))
  | initiateFirstPayment _ dto _ =>
    have : Decidable (match given dto.childId with
        | some childId => plan.row.childId = childId
        | none => given dto.childName = some plan.child.fullName ∧
          plan.child.className = dto.className) :=
      match given dto.childId with
      | some childId => inferInstanceAs (Decidable (plan.row.childId = childId))
      | none => inferInstanceAs (Decidable (_ ∧ _))
    inferInstanceAs (Decidable (_ ∧ _))

instance (db : Db) (enrollmentId : Id) : Decidable (call.Names db enrollmentId) :=
  decidable_of_iff ((db.plan? enrollmentId).any fun plan =>
      plan.parent.userId = call.userId ∧ call.Concerns plan) <| by
    simp only [Option.any_eq_true, Names, decide_eq_true_eq]

instance (db : Db) (userId enrollmentId : Id) : Decidable (db.Owns userId enrollmentId) :=
  decidable_of_iff ((db.plan? enrollmentId).any fun plan => plan.parent.userId = userId) <| by
    simp only [Option.any_eq_true, Db.Owns, decide_eq_true_eq]

instance (db : Db) : Decidable (call.KeyInHand db) :=
  decidable_of_iff (∀ r ∈ db.payments.rows, r.2.idempotencyKey = call.key? → call.key?.isSome →
      db.Owns call.userId r.2.enrollmentId ∧
        (isReplayableIntent r.2.status = true → call.Names db r.2.enrollmentId)) <| by
    constructor
    · intro h key k p hcall hp hkey
      refine h (k, p) (Table.mem_rows.mpr hp) (hkey.trans hcall.symm) ?_
      rw [hcall]
      rfl
    · rintro h ⟨k, p⟩ hr hkey hsome
      obtain ⟨key, hcall⟩ := Option.isSome_iff_exists.mp hsome
      exact h key k p hcall (Table.mem_rows.mp hr) (hkey.trans hcall)

/-- No payment comes under the key of the request, or changes its status there, but on the
    plan that the request names. -/
def KeyStill (s t : Db) : Prop :=
  ∀ key k p, call.key? = some key → t.payments.lookup k = some p →
    p.idempotencyKey = some key → call.Names t p.enrollmentId ∨
      ∃ q, s.payments.lookup k = some q ∧ q.idempotencyKey = some key ∧ q.status = p.status

/-- The payment is under the key of the request. -/
def Keyed (p : Payment) : Prop := ∃ key, call.key? = some key ∧ p.idempotencyKey = some key

/-- The receipt path is acceptable, so that the request is looked at. -/
def Admitted : Prop := ownsReceiptPath call.receiptUrl call.userId = true

end KeyedCall

/-- The reply is about the payment `p` with the key `k`: an intent that is answered again is
    about the payment under the key of the request or under the reference that it shows, a
    charge that has been started about the payment that was handed to Paystack. -/
def KeyedReply.Describes (call : KeyedCall) (log : Exchanges) (db : Db) (k : Id) (p : Payment) :
    KeyedReply → Prop
  | submitted reply => ∃ plan, db.plan? p.enrollmentId = some plan ∧ reply = installmentReply p plan
  | initiated (.replay intent) => intent = intentReply p ∧
    (call.Keyed p ∨ (given p.paystackReference).isSome)
  | initiated (.started init amountCharged depositToSchool platformFee paystackFee) =>
    (∃ params, ⟨.initializeTransaction params, .ok init⟩ ∈ log ∧ params.paymentId = k ∧
      params.enrollmentId = p.enrollmentId) ∧
    p.amountCharged.map (fun kobo => Money.toNaira kobo) = some amountCharged ∧
    Money.toNaira p.schoolAmount = depositToSchool ∧
    Money.toNaira p.platformAmount = platformFee ∧
    p.paystackFee.map (fun kobo => Money.toNaira kobo) = some paystackFee

/-- The database in which no payment of another user carries the key of the request. -/
def Db.forgetting (db : Db) (call : KeyedCall) : Db :=
  { db with
    payments := ⟨db.payments.entries.map fun r =>
        if call.key?.isSome ∧ r.2.idempotencyKey = call.key? ∧
            (db.plan? r.2.enrollmentId).map (·.parent.userId) ≠ some call.userId then
          ⟨r.1, { r.2 with idempotencyKey := none }⟩
        else r, by
      have hkeys : (db.payments.entries.map fun r =>
          if call.key?.isSome ∧ r.2.idempotencyKey = call.key? ∧
              (db.plan? r.2.enrollmentId).map (·.parent.userId) ≠ some call.userId then
            (⟨r.1, { r.2 with idempotencyKey := none }⟩ : Sigma fun _ : Id => Payment)
          else r).keys = db.payments.entries.keys := by
        simp only [List.keys, List.map_map]
        apply List.map_congr_left
        intro r _
        simp only [Function.comp]
        split <;> rfl
      rw [List.NodupKeys, hkeys]
      exact db.payments.nodupKeys⟩ }

end Lopay
