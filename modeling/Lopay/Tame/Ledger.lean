import Lopay.Tame.Statements

/-!
# The jobs of the ledger are tame

Half of the ledger decides by `isConfirmed` and half by `status`, and several updates
write one column only. Each of them keeps the two in step on the rows that pass its own
guard, whatever has been committed since they were read.
-/

namespace Lopay

open Transactions

set_option synthInstance.maxSize 4000

/-! ### What follows a payment that has been flipped -/

section Crediting

variable {P : Db → List Write → Prop} [AdmitsUnpaid P]

namespace Ledger

instance (enrollmentId : Id) (schoolAmountKobo : Int) :
    Routine.Keeps P (creditFirstPaymentToBalance enrollmentId schoolAmountKobo) := by
  unfold creditFirstPaymentToBalance
  infer_instance

instance (payment : PaymentOfPlan) (reference : String) (actualFeeKobo : Option Int) :
    Routine.Keeps P (escalateReconcileConflict payment reference actualFeeKobo) := by
  unfold escalateReconcileConflict
  infer_instance

instance (payment : PaymentOfPlan) (reference : String) (actualFeeKobo : Option Int)
    (actor : Option AuditActor) :
    Routine.Keeps P (creditCardPayment payment reference actualFeeKobo actor) := by
  unfold creditCardPayment
  infer_instance

instance (payment : PaymentOfPlan) (credited : Credited) :
    Routine.Keeps P (announceCardPayment payment credited) := by
  unfold announceCardPayment
  infer_instance

end Ledger

end Crediting

section Methods

variable {P : Db → List Write → Prop} [AdmitsTame P]

/-! ### Installments -/

namespace Ledger

instance (paymentId schoolId : Id) (actor : AuditActor) :
    Routine.Keeps P (confirmPayment paymentId schoolId actor) := by
  unfold confirmPayment
  have hflip (now : Int) : Routine.Keeps P (updatePayments paymentId
      (fun p => p.schoolId = schoolId ∧ p.isConfirmed = false ∧ p.paymentType = .INSTALLMENT)
      (fun p => { p with isConfirmed := true, status := .SUCCESS, paymentDate := now })) := by
    apply keeps_updatePayments
    simp [Payment.Agrees]
  infer_instance

instance (paymentId schoolId : Id) (actor : AuditActor) :
    Routine.Keeps P (rejectPayment paymentId schoolId actor) := by
  unfold rejectPayment
  have hflip : Routine.Keeps P (updatePayments paymentId
      (fun p => p.schoolId = schoolId ∧ p.isConfirmed = false)
      (fun p => { p with status := .FAILED })) := by
    apply keeps_updatePayments
    intro p hguard hp
    simp_all [Payment.Agrees]
  infer_instance

instance (paymentId schoolId : Id) (actor : AuditActor) (reason : Option String) :
    Routine.Keeps P (reversePayment paymentId schoolId actor reason) := by
  unfold reversePayment
  have hflip : Routine.Keeps P (updatePayments paymentId
      (fun p => p.schoolId = schoolId ∧ p.isConfirmed = true ∧ p.status = .SUCCESS ∧
        p.paymentType = .INSTALLMENT)
      (fun p => { p with status := .REVERSED, isConfirmed := false })) := by
    apply keeps_updatePayments
    simp [Payment.Agrees]
  infer_instance

/-! ### Manual first payments -/

instance (paymentId : Id) (actor : AuditActor) :
    Routine.Keeps P (settleFirstPayment paymentId actor) := by
  unfold settleFirstPayment
  have hflip (id : Id) : Routine.Keeps P (updatePayments id (fun p => p.isConfirmed = false)
      (fun p => { p with isConfirmed := true, status := .SUCCESS })) := by
    apply keeps_updatePayments
    simp [Payment.Agrees]
  infer_instance

instance (paymentId : Id) (actor : AuditActor) :
    Routine.Keeps P (rejectFirstPayment paymentId actor) := by
  unfold rejectFirstPayment
  have hflip (id : Id) : Routine.Keeps P (updatePayments id (fun p => p.isConfirmed = false)
      (fun p => { p with status := .FAILED })) := by
    apply keeps_updatePayments
    intro p hguard hp
    simp_all [Payment.Agrees]
  infer_instance

instance (enrollmentId schoolId : Id) (actor : AuditActor) :
    Routine.Keeps P (confirmFirstPayment enrollmentId schoolId actor) := by
  unfold confirmFirstPayment
  have hflip (id : Id) (now : Int) : Routine.Keeps P (updatePayments id
      (fun p => p.isConfirmed = false)
      (fun p => { p with isConfirmed := true, status := .SUCCESS, paymentDate := now })) := by
    apply keeps_updatePayments
    simp [Payment.Agrees]
  apply Routine.Keeps.before
  apply keeps_transaction
  refine .andThen fun found => .andThen fun enrollment => .andThen fun _ => .andThen fun _ =>
    .andThen fun first => ?_
  cases first with
  | none => infer_instance
  | some r => infer_instance

/-! ### Card payments -/

instance (reference : String) (actualFeeKobo : Option Int) (actor : Option AuditActor) :
    Routine.Keeps P (reconcilePaystackPayment reference actualFeeKobo actor) := by
  unfold reconcilePaystackPayment
  have hflip (id : Id) (now : Int) : Routine.Keeps P (updatePayments id
      (fun p => p.status = .PENDING)
      (fun p => { p with
        status := .SUCCESS, isConfirmed := true, actualPaystackFee := actualFeeKobo
        paymentDate := now })) := by
    apply keeps_updatePayments
    simp [Payment.Agrees]
  apply Routine.Keeps.andThen
  intro found
  cases found with
  | none => infer_instance
  | some payment =>
    apply Routine.Keeps.otherwise
    apply Routine.Keeps.otherwise
    apply Routine.Keeps.andThen
    intro processed
    cases processed with
    | none => infer_instance
    | some credited => infer_instance

instance (reference : String) : Routine.Keeps P (failPaystackPayment reference) := by
  unfold failPaystackPayment
  have hflip (id : Id) : Routine.Keeps P (updatePayments id (fun p => p.status = .PENDING)
      (fun p => { p with status := .FAILED })) := by
    apply keeps_updatePayments
    intro p hguard hp
    simp_all [Payment.Agrees]
  apply Routine.Keeps.andThen
  intro found
  cases found with
  | none => infer_instance
  | some payment => infer_instance

instance (reference eventType : String) :
    Routine.Keeps P (reversePaystackPaymentByDispute reference eventType) := by
  unfold reversePaystackPaymentByDispute
  have hflip (id : Id) : Routine.Keeps P (updatePayments id (fun p => p.status = .SUCCESS)
      (fun p => { p with status := .FAILED, isConfirmed := false })) := by
    apply keeps_updatePayments
    simp [Payment.Agrees]
  apply Routine.Keeps.andThen
  intro found
  cases found with
  | none => infer_instance
  | some payment =>
    apply Routine.Keeps.andThen
    intro flipped
    cases flipped with
    | none => infer_instance
    | some toParent => infer_instance

/-! ### Defaulted plans -/

instance (enrollmentId schoolId : Id) (actor : AuditActor) :
    Routine.Keeps P (markEnrollmentAsDefaulted enrollmentId schoolId actor) := by
  unfold markEnrollmentAsDefaulted
  infer_instance

instance (enrollment : Plan) : Routine.Keeps P (markEnrollmentDefaultedBySweep enrollment) := by
  unfold markEnrollmentDefaultedBySweep
  apply Routine.Keeps.andThen
  intro flipped
  cases flipped with
  | none => infer_instance
  | some toParent => infer_instance

/-! ### Migrated plans -/

instance (inviteId : Id) (invite : EnrollmentInvite) (childId parentUserId : Id)
    (actor : AuditActor) :
    Routine.Keeps P (recordMigratedEnrollment inviteId invite childId parentUserId actor) := by
  unfold recordMigratedEnrollment
  have hcreate (id enrollmentId : Id) (now : Int) :
      Routine.Keeps P (createPayment id (migratedPayment enrollmentId invite now)) := by
    apply keeps_createPayment
    simp [Payment.Agrees, migratedPayment]
  infer_instance

instance (enrollmentId childId inviteId schoolId : Id) (actor : AuditActor)
    (reason : Option String) : Routine.Keeps P
      (releaseMigratedEnrollment enrollmentId childId inviteId schoolId actor reason) := by
  unfold releaseMigratedEnrollment
  refine .andThen fun found => .andThen fun (enrollment, payments) => ?_
  infer_instance

end Ledger

instance : Routine.Keeps P DefaulterDetection.runDetection := by
  unfold DefaulterDetection.runDetection
  infer_instance

/-! ### First payments of parents -/

namespace Enrollment

instance (receiptUrl : Option String) (userId : Id) :
    Routine.Keeps P (assertOwnedReceiptPath receiptUrl userId) := by
  unfold assertOwnedReceiptPath
  infer_instance

instance (schoolId : Id) (className : String) :
    Routine.Keeps P (resolveActiveClassFee schoolId className) := by
  unfold resolveActiveClassFee
  infer_instance

instance (schoolId : Id) : Routine.Keeps P (assertSchoolAcceptsOnlinePayments schoolId) := by
  unfold assertSchoolAcceptsOnlinePayments
  infer_instance

instance (userId : Id) : Routine.Keeps P (resolveParent userId) := by
  unfold resolveParent
  apply Routine.Keeps.andThen
  intro found
  cases found with
  | some r => infer_instance
  | none =>
    refine .andThen fun user => .andThen fun (user, schoolPhone) => ?_
    infer_instance

instance (dto : CreateEnrollmentDto) (parentId : Id) :
    Routine.Keeps P (resolveChild dto parentId) := by
  unfold resolveChild
  split
  · infer_instance
  · apply Routine.Keeps.andThen
    intro existing
    cases existing with
    | some childId => infer_instance
    | none =>
      apply Routine.Keeps.caught
      intro error
      cases error <;> infer_instance
  · infer_instance

instance (dto : CreateEnrollmentDto) (userId : Id) (allowPendingRetry : Bool) :
    Routine.Keeps P (resolveEnrollmentTarget dto userId allowPendingRetry) := by
  unfold resolveEnrollmentTarget
  refine .andThen fun parentId => .andThen fun childId => .andThen fun existing => ?_
  cases existing with
  | none => infer_instance
  | some r => infer_instance

instance (enrollmentId : Id) : Routine.Keeps P (resolvePendingFirstPayment enrollmentId) := by
  unfold resolvePendingFirstPayment
  apply Routine.Keeps.andThen
  intro found
  cases found with
  | none => infer_instance
  | some r =>
    dsimp only
    split
    · infer_instance
    · apply Routine.Keeps.otherwise
      apply Routine.Keeps.andThen
      intro verified
      cases verdict verified with
      | dead => infer_instance
      | paid fees => infer_instance
      | undecided => infer_instance

instance (dto : CreateEnrollmentDto) (figures : DepositCalculation) (depositKobo : Int)
    (childId : Id) (reuseEnrollmentId : Option Id) :
    Routine.Keeps P (openEnrollment dto figures depositKobo childId reuseEnrollmentId) := by
  unfold openEnrollment
  cases reuseEnrollmentId with
  | some id => infer_instance
  | none => infer_instance

instance (school : Option School) (n : Id → Notification) :
    Routine.Keeps P (notifySchoolOwner school n) := by
  unfold notifySchoolOwner
  split <;> infer_instance

instance (school : Option School) (childName : String) (dto : CreateEnrollmentDto) :
    Routine.Keeps P (announceManualEnrollmentInitiated school childName dto) := by
  unfold announceManualEnrollmentInitiated
  infer_instance

instance (idempotencyKey : Option String) : Routine.Keeps P (paymentUnderKey idempotencyKey) := by
  unfold paymentUnderKey
  split <;> infer_instance

instance (dto : CreateEnrollmentDto) (userId : Id) : Routine.Keeps P (enrollChild dto userId) := by
  unfold enrollChild
  have hcreate (figures : DepositCalculation) (depositKobo : Int) (id enrollmentId : Id)
      (now : Int) : Routine.Keeps P
        (createPayment id (manualFirstPayment dto figures depositKobo enrollmentId now)) := by
    apply keeps_createPayment
    simp [Payment.Agrees, manualFirstPayment]
  apply Routine.Keeps.andThen
  intro replayed
  cases replayed with
  | some existing => infer_instance
  | none =>
    refine .andThen fun target => .andThen fun classFee => ?_
    dsimp only
    split
    · infer_instance
    · apply Routine.Keeps.andThen
      intro result
      cases result with
      | inr replay => infer_instance
      | inl created => infer_instance

/-- A key is released; the flags stay. -/
instance (idempotencyKey : Option String) : Routine.Keeps P (replayIntent idempotencyKey) := by
  unfold replayIntent
  have hrelease (id : Id) (status : PaymentTransactionStatus) : Routine.Keeps P (updatePayments id
      (fun p => p.status = status) (fun p => { p with idempotencyKey := none })) := by
    apply keeps_updatePayments
    intro p _ hp
    exact hp
  split
  · infer_instance
  · apply Routine.Keeps.andThen
    intro found
    cases found with
    | none => infer_instance
    | some existing => infer_instance

instance (dto : CreateEnrollmentDto) (figures : DepositCalculation) (charge : GrossUp)
    (depositKobo : Int) (reference : String) (childId : Id) (reuseEnrollmentId : Option Id) :
    Routine.Keeps P (createFirstPayment dto figures charge depositKobo reference childId
      reuseEnrollmentId) := by
  unfold createFirstPayment
  have hcreate (id enrollmentId : Id) (now : Int) : Routine.Keeps P (createPayment id
      (cardFirstPayment dto figures charge depositKobo reference enrollmentId now)) := by
    apply keeps_createPayment
    simp [Payment.Agrees, cardFirstPayment]
  infer_instance

instance (env : Environment) (dto : CreateEnrollmentDto) (figures : DepositCalculation)
    (charge : GrossUp) (email subaccount reference : String) (childId paymentId : Id)
    (payment : Payment) : Routine.Keeps P (startCharge env dto figures charge email subaccount
      reference childId paymentId payment) := by
  unfold startCharge
  have hcode (code : String) : Routine.Keeps P (updatePayment paymentId
      fun p => { p with paystackAccessCode := some code }) := by
    apply keeps_updatePayment
    intro p hp
    exact hp
  apply Routine.Keeps.andThen
  intro init
  cases init with
  | error err => infer_instance
  | ok init => infer_instance

instance (env : Environment) (dto : CreateEnrollmentDto) (userId : Id) (classFee : ClassFee)
    (subaccount : String) (childId : Id) (reuseEnrollmentId : Option Id) : Routine.Keeps P
      (chargeFirstPayment env dto userId classFee subaccount childId reuseEnrollmentId) := by
  unfold chargeFirstPayment
  dsimp only
  split
  · infer_instance
  · split
    · infer_instance
    · refine .andThen fun user => .andThen fun email => .andThen fun uuid =>
        .andThen fun created => ?_
      cases created with
      | inr existing => infer_instance
      | inl created => infer_instance

instance (env : Environment) (dto : CreateEnrollmentDto) (userId : Id) :
    Routine.Keeps P (initiateFirstPayment env dto userId) := by
  unfold initiateFirstPayment
  refine .andThen fun _ => .andThen fun replayed => ?_
  cases replayed with
  | some existing => infer_instance
  | none =>
    refine .andThen fun classFee => .andThen fun subaccount => .andThen fun target => ?_
    cases target.pendingEnrollmentId with
    | none => infer_instance
    | some pendingEnrollmentId =>
      apply Routine.Keeps.andThen
      intro pending
      cases pending with
      | some intent => infer_instance
      | none => infer_instance

instance (enrollmentId : Id) (amountPaid : ℚ) (user : AuthUser)
    (receiptUrl idempotencyKey : Option String) : Routine.Keeps P
      (submitInstallmentPayment enrollmentId amountPaid user receiptUrl idempotencyKey) := by
  unfold submitInstallmentPayment
  have hcreate (id schoolId : Id) (amountPaidKobo now : Int) : Routine.Keeps P (createPayment id
      (installmentPayment enrollmentId schoolId amountPaidKobo receiptUrl idempotencyKey now)) := by
    apply keeps_createPayment
    simp [Payment.Agrees, installmentPayment]
  refine .andThen fun _ => .andThen fun replayed => ?_
  cases replayed with
  | some existing => infer_instance
  | none =>
    refine .andThen fun found => .andThen fun enrollment => .andThen fun _ => .andThen fun _ =>
      .andThen fun result => ?_
    cases result with
    | inr existing => infer_instance
    | inl payment => infer_instance

/-! ### Webhooks and the sweep -/

instance (eventType : String) (reference : Option String) :
    Routine.Keeps P (reverseDisputed eventType reference) := by
  unfold reverseDisputed
  split <;> infer_instance

instance (reference : Option String) : Routine.Keeps P (disputedPayment reference) := by
  unfold disputedPayment
  split <;> infer_instance

instance (eventType : String) (reference : Option String) :
    Routine.Keeps P (recordPaystackDispute eventType reference) := by
  unfold recordPaystackDispute
  infer_instance

instance (event : PaystackWebhookEvent) : Routine.Keeps P (dispatch event) := by
  unfold dispatch
  dsimp only
  split <;> infer_instance

instance (event : PaystackWebhookEvent) : Routine.Keeps P (deliveryIdentity event) := by
  unfold deliveryIdentity
  split <;> infer_instance

instance (event : PaystackWebhookEvent) (key : String) :
    Routine.Keeps P (storeWebhookEvent event key) := by
  unfold storeWebhookEvent
  infer_instance

instance (event : PaystackWebhookEvent) (key : String) :
    Routine.Keeps P (dispatchLogged event key) := by
  unfold dispatchLogged
  infer_instance

instance (event : PaystackWebhookEvent) : Routine.Keeps P (processPaystackWebhookEvent event) := by
  unfold processPaystackWebhookEvent
  infer_instance

end Enrollment

instance (now : Int) (payment : String × Int) :
    Routine.Keeps P (PaystackReconciliation.sweepPayment now payment) := by
  unfold PaystackReconciliation.sweepPayment
  apply Routine.Keeps.andThen
  intro result
  cases result with
  | error _ => infer_instance
  | ok result => infer_instance

instance : Routine.Keeps P PaystackReconciliation.runSweep := by
  unfold PaystackReconciliation.runSweep
  infer_instance

end Methods

/-! ### Amending -/

section Amending

variable {P : Db → List Write → Prop}

/-- `restateInvite` writes the row it finds with another amount, or nothing. -/
theorem keeps_restateInvite {inviteId : Option Id} {amountAlreadyPaid : Int} (hnil : ∀ v, P v [])
    (h : ∀ v id i, v.invites.lookup id = some i →
      P v [.putInvite id { i with amountAlreadyPaid }]) :
    Routine.Keeps P (Ledger.restateInvite inviteId amountAlreadyPaid) := by
  unfold Ledger.restateInvite
  cases inviteId with
  | none => infer_instance
  | some inviteId =>
    unfold statement
    apply Routine.Keeps.exec hnil
    intro v a ws hf
    cases hi : v.invites.lookup inviteId with
    | none =>
      simp only [hi, Except.ok.injEq, Prod.mk.injEq] at hf
      rw [← hf.2]
      exact hnil v
    | some invite =>
      simp only [hi, Except.ok.injEq, Prod.mk.injEq] at hf
      rw [← hf.2]
      exact h v inviteId invite hi

/-- A condition on statements under which the amount on an invite may be restated. -/
class AdmitsAmounts (P : Db → List Write → Prop) : Prop where
  restate : ∀ inviteId amountAlreadyPaid,
    Routine.Keeps P (Ledger.restateInvite inviteId amountAlreadyPaid)

instance (inviteId : Option Id) (amountAlreadyPaid : Int) [AdmitsAmounts P] :
    Routine.Keeps P (Ledger.restateInvite inviteId amountAlreadyPaid) :=
  AdmitsAmounts.restate inviteId amountAlreadyPaid

/-- The amount on an invite is none of its rules. -/
instance [AdmitsRestating P] : AdmitsAmounts P where
  restate := by
    intro inviteId amountAlreadyPaid
    apply keeps_restateInvite admits_nil
    exact fun v id i hi => AdmitsRestating.restating v _ (restating_putInvite hi rfl)

variable [AdmitsTame P] [AdmitsAmounts P]

namespace Ledger

instance (enrollmentId : Id) (newAmountKobo : Int) (schoolId : Id) (actor : AuditActor)
    (reason : Option String) : Routine.Keeps P
      (amendMigratedPayment enrollmentId newAmountKobo schoolId actor reason) := by
  unfold amendMigratedPayment
  have hrestate (id : Id) (previousAmount : Int) : Routine.Keeps P (updatePayments id
      (fun p => p.amountPaid = previousAmount ∧ p.status = .SUCCESS ∧
        p.paymentType = .MIGRATED_PAYMENT)
      (fun p => { p with amountPaid := newAmountKobo, schoolAmount := newAmountKobo })) := by
    apply keeps_updatePayments
    intro p _ hp
    exact hp
  refine .andThen fun _ => .andThen fun found => .andThen fun (enrollment, payments) =>
    .andThen fun order => .andThen fun (migratedId, migrated) => ?_
  infer_instance

end Ledger

/-- Every job on the ledger restates at most an amount of an invite. -/
instance Job.keeps (j : Job) : Routine.Keeps P j.action := by
  cases j <;> exact .map

end Amending

end Lopay
