import Lopay.GrossUp
import Lopay.Transactions.Requests
import Lopay.Tame.Statements
import Lopay.Transactions.Alone

/-!
# The split of a card payment

What `initiateFirstPayment` writes on a new payment, what it sends to Paystack and what is
credited to the plan when the charge lands are shares of one amount. They add up to the
kobo: the school nets its share and the platform its fee after Paystack's.
-/

namespace Lopay

open Transactions Enrollment

/-- Of the amount charged, the school gets its share and the platform, after Paystack's
    fee, its own. -/
structure SplitsTo (vatRate : ℚ) (figures : DepositCalculation) (charged cut : Int) : Prop where
  school : charged - cut = figures.amountToSchool
  platform : cut - paystackFee charged vatRate = figures.platformFee

/-- The row of a charge carries its figures. -/
structure Payment.Split (vatRate : ℚ) (figures : DepositCalculation) (p : Payment) : Prop where
  base : p.amountPaid = figures.amountToSchool + figures.platformFee
  school : p.schoolAmount = figures.amountToSchool
  platform : p.platformAmount = figures.platformFee
  charge : ∃ charged cut, p.amountCharged = some charged ∧ p.transactionCharge = some cut ∧
    p.paystackFee = some (Lopay.paystackFee charged vatRate) ∧
      SplitsTo vatRate figures charged cut

/-- A request to Paystack to charge carries them too. -/
def Call.Splits (vatRate : ℚ) (figures : DepositCalculation) : Call → Prop
  | .initializeTransaction params =>
    SplitsTo vatRate figures params.amountKobo params.transactionChargeKobo
  | _ => True

/-- A statement that creates no payments but those that satisfy `Q`. -/
def Creates (Q : Payment → Prop) (v : Db) (ws : List Write) : Prop :=
  ∀ k p, v.payments.lookup k = none → (store.applyAll ws v).payments.lookup k = some p → Q p

/-! ### What is written -/

section Writes

variable {Q : Payment → Prop}

theorem creates_none {v : Db} {ws : List Write}
    (h : (store.applyAll ws v).payments = v.payments) : Creates Q v ws := by
  intro k p hfresh hp
  rw [h, hfresh] at hp
  cases hp

instance : AdmitsStill (Creates Q) := ⟨fun _ _ h => creates_none h.payments⟩

/-- A write of a row that is there creates nothing. -/
theorem creates_old {v : Db} {id : Id} {p q : Payment} (hp : v.payments.lookup id = some p) :
    Creates Q v [.putPayment id q] := by
  intro k r hfresh hr
  rcases Table.lookup_insert_some hr with ⟨rfl, -⟩ | ⟨-, hold⟩
  · rw [hp] at hfresh
    cases hfresh
  · rw [hfresh] at hold
    cases hold

theorem creates_new {v : Db} {id : Id} {q : Payment} (hq : Q q) :
    Creates Q v [.putPayment id q] := by
  intro k r hfresh hr
  rcases Table.lookup_insert_some hr with ⟨-, rfl⟩ | ⟨-, hold⟩
  · exact hq
  · rw [hfresh] at hold
    cases hold

instance (id : Id) (filter : Payment → Bool) (data : Payment → Payment) :
    Routine.Keeps (Creates Q) (updatePayments id filter data) := by
  apply Routine.Keeps.exec admits_nil
  intro v a ws hf
  split at hf
  · next p hp =>
    split at hf
    · obtain ⟨-, rfl⟩ := Prod.mk.inj (Except.ok.inj hf)
      exact creates_old hp
    · obtain ⟨-, rfl⟩ := Prod.mk.inj (Except.ok.inj hf)
      exact admits_nil v
  · obtain ⟨-, rfl⟩ := Prod.mk.inj (Except.ok.inj hf)
    exact admits_nil v

instance (id : Id) (data : Payment → Payment) :
    Routine.Keeps (Creates Q) (updatePayment id data) := by
  apply Routine.Keeps.exec admits_nil
  intro v a ws hf
  split at hf
  · next p hp =>
    obtain ⟨-, rfl⟩ := Prod.mk.inj (Except.ok.inj hf)
    exact creates_old hp
  · cases hf

theorem keeps_creates {id : Id} {row : Payment} (hrow : Q row) :
    Routine.Keeps (Creates Q) (createPayment id row) := by
  apply Routine.Keeps.exec admits_nil
  intro v a ws hf
  split_ifs at hf
  obtain ⟨-, rfl⟩ := Prod.mk.inj (Except.ok.inj hf)
  exact creates_new hrow

instance (id : Id) (data : ChildEnrollment → ChildEnrollment) :
    Routine.Keeps (Creates Q) (updateEnrollment id data) := by
  apply Routine.Keeps.exec admits_nil
  intro v a ws hf
  split at hf
  · obtain ⟨-, rfl⟩ := Prod.mk.inj (Except.ok.inj hf)
    exact creates_none rfl
  · cases hf

instance (id : Id) (row : ChildEnrollment) :
    Routine.Keeps (Creates Q) (createEnrollment id row) := by
  apply Routine.Keeps.exec admits_nil
  intro v a ws hf
  split_ifs at hf
  obtain ⟨-, rfl⟩ := Prod.mk.inj (Except.ok.inj hf)
  exact creates_none rfl

instance (reference : String) :
    Routine.Keeps (Creates Q) (Ledger.failPaystackPayment reference) := by
  unfold Ledger.failPaystackPayment
  apply Routine.Keeps.andThen
  intro found
  cases found with
  | none => infer_instance
  | some payment => infer_instance

instance (dto : CreateEnrollmentDto) (figures : DepositCalculation) (depositKobo : Int)
    (childId : Id) (reuseEnrollmentId : Option Id) : Routine.Keeps (Creates Q)
      (openEnrollment dto figures depositKobo childId reuseEnrollmentId) := by
  unfold openEnrollment
  cases reuseEnrollmentId with
  | some id => infer_instance
  | none => infer_instance

instance (env : Environment) (dto : CreateEnrollmentDto) (figures : DepositCalculation)
    (charge : GrossUp) (email subaccount reference : String) (childId paymentId : Id)
    (payment : Payment) : Routine.Keeps (Creates Q)
      (startCharge env dto figures charge email subaccount reference childId paymentId payment) := by
  unfold startCharge
  apply Routine.Keeps.andThen
  intro init
  cases init with
  | error err => infer_instance
  | ok init => infer_instance

end Writes

/-! ### What is sent -/

section Requests

variable {vatRate : ℚ} {figures : DepositCalculation} {α : Type}

instance (f : Db → Except Err (α × List Write)) :
    Routine.Asks store (Call.Splits vatRate figures) (statement f) := .exec

instance (q : Db → α) : Routine.Asks store (Call.Splits vatRate figures) (read q) := .query

instance (m : Action α) [Routine.Asks store (Call.Splits vatRate figures) m] :
    Routine.Asks store (Call.Splits vatRate figures) (transaction m) := .transaction

instance : Routine.Asks store (Call.Splits vatRate figures) (ask .now) := .ask trivial

instance : Routine.Asks store (Call.Splits vatRate figures) (ask .randomUUID) := .ask trivial

instance (n : Notification) :
    Routine.Asks store (Call.Splits vatRate figures) (ask (.createNotification n)) := .ask trivial

instance (targets : ChangeTargets) :
    Routine.Asks store (Call.Splits vatRate figures) (ask (.emitEnrollmentsChanged targets)) :=
  .ask trivial

instance (targets : ChangeTargets) :
    Routine.Asks store (Call.Splits vatRate figures) (ask (.emitPaymentsChanged targets)) :=
  .ask trivial

instance (reference : String) :
    Routine.Asks store (Call.Splits vatRate figures) (Ledger.failPaystackPayment reference) := by
  unfold Ledger.failPaystackPayment
  apply Routine.Asks.andThen
  intro found
  cases found with
  | none => infer_instance
  | some payment =>
    unfold updatePayments updateEnrollment createNotification emitChanges Routine.throwIf
    infer_instance

theorem createFirstPayment_asks {dto : CreateEnrollmentDto} {figures' : DepositCalculation}
    {charge : GrossUp} {depositKobo : Int} {reference : String} {childId : Id}
    {reuseEnrollmentId : Option Id} : Routine.Asks store (Call.Splits vatRate figures)
      (createFirstPayment dto figures' charge depositKobo reference childId reuseEnrollmentId) := by
  have hopen : Routine.Asks store (Call.Splits vatRate figures)
      (openEnrollment dto figures' depositKobo childId reuseEnrollmentId) := by
    unfold openEnrollment updateEnrollment createEnrollment
    cases reuseEnrollmentId with
    | some id => infer_instance
    | none => infer_instance
  unfold createFirstPayment createPayment
  infer_instance

end Requests

section Charge

variable {env : Environment} {dto : CreateEnrollmentDto} {figures : DepositCalculation}
  {charge : GrossUp}

/-- The charge that nets the base, cut by the platform's fee and Paystack's. -/
theorem splitsTo_of (hfee : charge.paystackFee = paystackFee charge.amountCharged env.vatRate)
    (hnet : charge.amountCharged - charge.paystackFee =
      figures.amountToSchool + figures.platformFee) :
    SplitsTo env.vatRate figures charge.amountCharged (figures.platformFee + charge.paystackFee) := by
  constructor
  · omega
  · omega

theorem cardFirstPayment_split {deposit now : Int} {reference : String} {enrollmentId : Id}
    (hdeposit : deposit = figures.amountToSchool + figures.platformFee)
    (hfee : charge.paystackFee = paystackFee charge.amountCharged env.vatRate)
    (hnet : charge.amountCharged - charge.paystackFee =
      figures.amountToSchool + figures.platformFee) :
    (cardFirstPayment dto figures charge deposit reference enrollmentId now).Split
      env.vatRate figures where
  base := hdeposit
  school := rfl
  platform := rfl
  charge := ⟨_, _, rfl, rfl, congrArg some hfee, splitsTo_of hfee hnet⟩

variable {classFee : ClassFee}

theorem chargeFirstPayment_creates (hfigures : calculateInitialPayment classFee.feeAmount
      (Money.fromNaira dto.firstPaymentPaid) = .ok figures)
    (hcharge : grossUp (figures.amountToSchool + figures.platformFee) env.vatRate = .ok charge)
    (hfee : charge.paystackFee = paystackFee charge.amountCharged env.vatRate)
    (hnet : charge.amountCharged - charge.paystackFee =
      figures.amountToSchool + figures.platformFee)
    (userId : Id) (subaccount : String) (childId : Id) (reuseEnrollmentId : Option Id) :
    Routine.Keeps (Creates (Payment.Split env.vatRate figures))
      (chargeFirstPayment env dto userId classFee subaccount childId reuseEnrollmentId) := by
  have hdeposit : Money.fromNaira dto.firstPaymentPaid =
      figures.amountToSchool + figures.platformFee := by
    have := calculateInitialPayment_ok hfigures
    omega
  have hcreate (reference : String) : Routine.Keeps (Creates (Payment.Split env.vatRate figures))
      (createFirstPayment dto figures charge (Money.fromNaira dto.firstPaymentPaid) reference childId
        reuseEnrollmentId) := by
    have hrow (id enrollmentId : Id) (now : Int) :
        Routine.Keeps (Creates (Payment.Split env.vatRate figures)) (createPayment id
          (cardFirstPayment dto figures charge (Money.fromNaira dto.firstPaymentPaid) reference
            enrollmentId now)) :=
      keeps_creates (cardFirstPayment_split hdeposit hfee hnet)
    unfold createFirstPayment
    infer_instance
  unfold chargeFirstPayment
  simp only [hfigures, hcharge]
  refine .andThen fun user => .andThen fun email => .andThen fun uuid => .andThen fun created => ?_
  cases created with
  | inl created => infer_instance
  | inr existing => infer_instance

theorem chargeFirstPayment_asks (hfigures : calculateInitialPayment classFee.feeAmount
      (Money.fromNaira dto.firstPaymentPaid) = .ok figures)
    (hcharge : grossUp (figures.amountToSchool + figures.platformFee) env.vatRate = .ok charge)
    (hfee : charge.paystackFee = paystackFee charge.amountCharged env.vatRate)
    (hnet : charge.amountCharged - charge.paystackFee =
      figures.amountToSchool + figures.platformFee)
    (userId : Id) (subaccount : String) (childId : Id) (reuseEnrollmentId : Option Id) :
    Routine.Asks store (Call.Splits env.vatRate figures)
      (chargeFirstPayment env dto userId classFee subaccount childId reuseEnrollmentId) := by
  have hcreate (reference : String) : Routine.Asks store (Call.Splits env.vatRate figures)
      (createFirstPayment dto figures charge (Money.fromNaira dto.firstPaymentPaid) reference childId
        reuseEnrollmentId) := createFirstPayment_asks
  have hstart (email reference : String) (paymentId : Id) (payment : Payment) :
      Routine.Asks store (Call.Splits env.vatRate figures) (startCharge env dto figures charge email
        subaccount reference childId paymentId payment) := by
    have hinit : Routine.Asks store (Call.Splits env.vatRate figures) (ask (.initializeTransaction
        { email
          amountKobo := charge.amountCharged
          reference
          subaccount
          transactionChargeKobo := figures.platformFee + charge.paystackFee
          callbackUrl := env.callbackUrl
          paymentId
          enrollmentId := payment.enrollmentId
          schoolId := dto.schoolId
          childId })) := .ask (splitsTo_of hfee hnet)
    unfold startCharge
    apply Routine.Asks.andThen
    intro init
    cases init with
    | error err => infer_instance
    | ok init =>
      unfold updatePayment
      infer_instance
  unfold chargeFirstPayment
  simp only [hfigures, hcharge]
  refine .andThen fun user => .andThen fun email => .andThen fun uuid => .andThen fun created => ?_
  cases created with
  | inl created => infer_instance
  | inr existing => infer_instance

end Charge

/-! ### What is credited -/

section Credit

variable {fees deposit : Int} {figures : DepositCalculation}

theorem calculateInitialPayment_remaining
    (h : calculateInitialPayment fees deposit = .ok figures) :
    figures.remainingBalance = figures.schoolFees - figures.amountToSchool := by
  unfold calculateInitialPayment at h
  simp only at h
  split_ifs at h
  rw [← Except.ok.inj h]

/-- The plan after its first payment. -/
def creditedPlan (figures : DepositCalculation) (e : ChildEnrollment) : ChildEnrollment :=
  { e with
    remainingBalance := figures.remainingBalance
    paymentStatus := if figures.remainingBalance = 0 then .COMPLETED else .ACTIVE }

/-- Crediting the school's share to the whole fee leaves what the figures say. -/
theorem creditFirstPaymentToBalance_opening
    (hfigures : calculateInitialPayment fees deposit = .ok figures) {s v : Db} {x : Context}
    (hx : x.Inside store s v) {id : Id} {e : ChildEnrollment}
    (he : v.enrollments.lookup id = some e) (hopening : e.remainingBalance = figures.schoolFees) :
    (Ledger.creditFirstPaymentToBalance id figures.amountToSchool).alone store (fun _ => True)
      (fun credited y => credited.remainingBalance = figures.remainingBalance ∧
        (credited.isCompleted = true ↔ figures.remainingBalance = 0) ∧
        ∃ v', y.Inside store s v' ∧ v'.enrollments.lookup id = some (creditedPlan figures e)) x := by
  have hremaining := calculateInitialPayment_remaining hfigures
  obtain ⟨-, -, -, -, hshare, -, -⟩ := calculateInitialPayment_ok hfigures
  unfold Ledger.creditFirstPaymentToBalance
  apply Routine.wp_bind
  apply Routine.alone_inside_exec hx
  intro decremented ws hf y hy
  simp only [he, Except.ok.injEq, Prod.mk.injEq] at hf
  obtain ⟨rfl, rfl⟩ := hf
  have hleft : e.remainingBalance - figures.amountToSchool = figures.remainingBalance := by
    rw [hopening, hremaining]
  have hbalance : max 0 figures.remainingBalance = figures.remainingBalance := by omega
  have hdone : figures.remainingBalance ≤ 0 ↔ figures.remainingBalance = 0 := by omega
  simp only [hleft, hbalance] at hy ⊢
  apply Routine.wp_bind
  apply Routine.alone_inside_exec hy
  intro _ ws' hf' z hz
  simp only [Store.applyAll_cons, Store.applyAll_nil, store_apply, Write.apply,
    AList.lookup_insert, Except.ok.injEq, Prod.mk.injEq] at hf'
  obtain ⟨-, rfl⟩ := hf'
  refine Routine.wp_pure ⟨rfl, by simp [hdone], _, hz, ?_⟩
  simp only [Store.applyAll_cons, Store.applyAll_nil, store_apply, Write.apply,
    AList.lookup_insert, creditedPlan, hdone, decide_eq_true_eq]

end Credit

/-- The shares of a first payment by card add up to the kobo, in the row that is written, in
    the request that is sent to Paystack and in the balance that the plan is left with. -/
theorem card_split_conserves (raw : Option ℚ) (env : Environment) (dto : CreateEnrollmentDto)
    (classFee : ClassFee) (figures : DepositCalculation)
    (henv : env.vatRate = paystackVatRate raw)
    (hfigures : calculateInitialPayment classFee.feeAmount (Money.fromNaira dto.firstPaymentPaid) =
      .ok figures)
    (hbase : 0 < figures.amountToSchool + figures.platformFee) :
    figures.amountToSchool + figures.platformFee = Money.fromNaira dto.firstPaymentPaid ∧
    0 ≤ figures.amountToSchool ∧
    (∃ charge, grossUp (figures.amountToSchool + figures.platformFee) env.vatRate = .ok charge ∧
      SplitsTo env.vatRate figures charge.amountCharged
        (figures.platformFee + charge.paystackFee)) ∧
    (∀ userId subaccount childId reuseEnrollmentId,
      Routine.Keeps (Creates (Payment.Split env.vatRate figures))
        (chargeFirstPayment env dto userId classFee subaccount childId reuseEnrollmentId) ∧
      Routine.Asks store (Call.Splits env.vatRate figures)
        (chargeFirstPayment env dto userId classFee subaccount childId reuseEnrollmentId)) ∧
    ∀ (s v : Db) (x : Context) (id : Id) (e : ChildEnrollment), x.Inside store s v →
      v.enrollments.lookup id = some e → e.remainingBalance = figures.schoolFees →
      (Ledger.creditFirstPaymentToBalance id figures.amountToSchool).alone store (fun _ => True)
        (fun credited y => credited.remainingBalance = figures.remainingBalance ∧
          (credited.isCompleted = true ↔ figures.remainingBalance = 0) ∧
          ∃ v', y.Inside store s v' ∧ v'.enrollments.lookup id = some (creditedPlan figures e))
        x := by
  obtain ⟨hv, hv'⟩ := paystackVatRate_bounds raw
  rw [← henv] at hv hv'
  obtain ⟨charge, hcharge, hfee, hnet⟩ := grossUp_exact hv hv' hbase
  have hok := calculateInitialPayment_ok hfigures
  refine ⟨by omega, hok.2.2.2.1, ⟨charge, hcharge, splitsTo_of hfee hnet⟩, ?_, ?_⟩
  · intro userId subaccount childId reuseEnrollmentId
    exact ⟨chargeFirstPayment_creates hfigures hcharge hfee hnet _ _ _ _,
      chargeFirstPayment_asks hfigures hcharge hfee hnet _ _ _ _⟩
  · intro s v x id e hx he hopening
    exact creditFirstPaymentToBalance_opening hfigures hx he hopening

/-- The smallest deposit on a fee of ₦100,000. -/
theorem card_split_conserves_smallest :
    ∃ charge, grossUp 2750000 (75 / 1000) = .ok charge ∧
      charge.amountCharged - (250000 + charge.paystackFee) = 2500000 := by
  have hrates : Money.percent 10000000 PLATFORM_FEE_RATE = 250000 ∧
      Money.percent 10000000 FIRST_PAYMENT_DEPOSIT_RATE = 2500000 ∧
      Money.fromNaira 27500 = 2750000 := by decide +kernel
  have hfigures : calculateInitialPayment 10000000
      (Money.fromNaira (enrollment none).firstPaymentPaid) =
        .ok ⟨10000000, 250000, 2750000, 2750000, 2500000, 7500000⟩ := by
    simp [calculateInitialPayment, enrollment, hrates]
  have h := card_split_conserves none environment (enrollment none) ⟨"school", "JSS1", 10000000, true⟩
    _ rfl hfigures (by decide)
  obtain ⟨charge, hcharge, hsplit⟩ := h.2.2.1
  exact ⟨charge, hcharge, hsplit.school⟩

end Lopay
