import Lopay.Balances

/-!
# What submitted installments reserve

A parent may submit installments up to what the balance has left over the submissions that are
still waiting, and this is checked under the lock of the plan. So whatever runs beside, the waiting
installments of a plan fit in its balance, as long as nothing but the waiting installments
themselves is credited beyond what they leave of it. Then no credit is ever cut off at zero.
-/

namespace Lopay

open Transactions

variable {E : Db → Db → Prop} {s t : Db} {kind : Kind} {entry : Entry} {locks : List Lock} {id : Id}

/-! ### Room for the submissions -/

/-- Every plan costs what it did. -/
def SameFees (s t : Db) : Prop :=
  ∀ id e e', s.enrollments.lookup id = some e → t.enrollments.lookup id = some e' →
    e'.totalSchoolFee = e.totalSchoolFee

/-- No plan gets another fee; and where a payment that is not a waiting installment gains credit,
    there is room for the gain beside the waiting installments of the plan. -/
structure LeavesRoom (s t : Db) : Prop where
  fees : SameFees s t
  gains : ∀ k p q e, s.payments.lookup k = some p → t.payments.lookup k = some q →
    p.isReservation = false → s.enrollments.lookup p.enrollmentId = some e →
    creditOn p.enrollmentId p < creditOn p.enrollmentId q →
    creditOn p.enrollmentId q - creditOn p.enrollmentId p +
      Enrollment.installmentsReserved p.enrollmentId s ≤ e.remainingBalance

instance (s t : Db) : Decidable (SameFees s t) :=
  decidable_of_iff (∀ r ∈ s.enrollments.rows, ∀ e' ∈ t.enrollments.lookup r.1,
    e'.totalSchoolFee = r.2.totalSchoolFee) <| by
    constructor
    · intro h id e e' he he'
      exact h (id, e) (Table.mem_rows.mpr he) e' he'
    · intro h r hr e' he'
      exact h r.1 r.2 e' (Table.mem_rows.mp hr) he'

instance (s t : Db) : Decidable (LeavesRoom s t) :=
  decidable_of_iff (SameFees s t ∧ ∀ r ∈ s.payments.rows, ∀ q ∈ t.payments.lookup r.1,
    r.2.isReservation = false → ∀ e ∈ s.enrollments.lookup r.2.enrollmentId,
    creditOn r.2.enrollmentId r.2 < creditOn r.2.enrollmentId q →
    creditOn r.2.enrollmentId q - creditOn r.2.enrollmentId r.2 +
      Enrollment.installmentsReserved r.2.enrollmentId s ≤ e.remainingBalance) <| by
    constructor
    · rintro ⟨hfees, hgains⟩
      refine ⟨hfees, fun k p q e hp hq hnot he => ?_⟩
      exact hgains (k, p) (Table.mem_rows.mpr hp) q hq hnot e he
    · rintro ⟨hfees, hgains⟩
      refine ⟨hfees, fun r hr q hq hnot e he => ?_⟩
      exact hgains r.1 r.2 q e (Table.mem_rows.mp hr) hq hnot he

theorem SameFees.heeded : Heeded fun _ => SameFees where
  refl := by
    intro _ s id e e' he he'
    rw [Option.some.inj (he.symm.trans he')]
  trans := by
    intro _ s t u hst _ hfirst hthen id e e'' he he''
    rcases hst.enrollments id e he with ⟨e', he', -⟩
    exact (hthen id e' e'' he' he'').trans (hfirst id e e' he he')

/-- The waiting installments fit in the balance, and the balance in the fee; the balance of a
    migrated plan is what its payments leave. -/
structure Roomy (id : Id) (s : Db) (e : ChildEnrollment) : Prop where
  reserved : Enrollment.installmentsReserved id s ≤ e.remainingBalance
  balance : e.remainingBalance ≤ e.totalSchoolFee
  migrated : e.enrollmentInviteId ≠ none → e.remainingBalance = e.totalSchoolFee - credited id s

/-- Every plan has room for its waiting installments. -/
def HasRoom (s : Db) : Prop := s.enrollments.Forall fun id e => Roomy id s e

/-! ### What waits on a plan -/

theorem amountOn_nonneg (hs : Coherent s) {k : Id} {p : Payment}
    (hp : s.payments.lookup k = some p) : 0 ≤ amountOn id Payment.isReservation p := by
  unfold amountOn
  split
  · next hcond =>
    have htype : p.paymentType = .INSTALLMENT := (of_decide_eq_true hcond.2).1
    exact ((hs.payments k p hp).installment htype).1.le
  · exact le_refl 0

theorem amountOn_reservation {p : Payment} (h : p.isReservation = true) :
    amountOn p.enrollmentId Payment.isReservation p = p.amountPaid := by
  simp [amountOn, h]

theorem amountOn_other {p : Payment} (h : p.isReservation = false) :
    amountOn id Payment.isReservation p = 0 := by
  simp [amountOn, h]

namespace Coherent

theorem installmentsReserved_nonneg (hs : Coherent s) (id : Id) :
    0 ≤ Enrollment.installmentsReserved id s :=
  Table.total_nonneg fun _ _ hp => amountOn_nonneg hs hp

/-- A waiting installment is part of what is reserved. -/
theorem amountPaid_le_reserved (hs : Coherent s) {k : Id} {p : Payment}
    (hp : s.payments.lookup k = some p) (h : p.isReservation = true) :
    p.amountPaid ≤ Enrollment.installmentsReserved p.enrollmentId s := by
  rw [← amountOn_reservation h]
  exact Table.le_total (f := fun _ => amountOn p.enrollmentId Payment.isReservation)
    (fun _ _ hq => amountOn_nonneg hs hq) hp

/-- Nothing waits on a plan that does not exist. -/
theorem installmentsReserved_none (hs : Coherent s) (h : s.enrollments.lookup id = none) :
    Enrollment.installmentsReserved id s = 0 := by
  have hzero : Enrollment.installmentsReserved id s = Table.total (fun _ _ => 0) s.payments := by
    unfold Enrollment.installmentsReserved Db.sumAmountPaid
    apply Table.total_congr
    intro k p hp
    apply if_neg
    rintro ⟨rfl, -⟩
    rcases hs.planOf hp with ⟨e, he, -⟩
    rw [h] at he
    cases he
  rw [hzero]
  unfold Table.total
  simp

end Coherent

/-- A posting that leaves a plan alone reserves nothing more on it. -/
theorem Posting.reserved_elsewhere (hs : Coherent s) (h : Posting E s kind entry)
    (hm : entry.Made s t locks) (hplan : ∀ e, entry.plan ≠ some (id, e)) :
    Enrollment.installmentsReserved id t ≤ Enrollment.installmentsReserved id s := by
  rw [hm.installmentsReserved]
  have helsewhere : ∀ p, p.enrollmentId ≠ id → amountOn id Payment.isReservation p = 0 :=
    fun p hp => if_neg fun h => hp h.1
  rcases h.gain_elsewhere hplan (f := amountOn id Payment.isReservation) helsewhere
      (fun _ => rfl) (fun _ _ => rfl) with hzero | ⟨k, p, hp, -, -, heq⟩
  · rw [hzero, Int.add_zero]
  · -- A rejected payment stops being a reservation.
    have hafter : amountOn id Payment.isReservation { p with status := .FAILED } = 0 :=
      amountOn_other (by simp [Payment.isReservation])
    have hbefore : 0 ≤ amountOn id Payment.isReservation p := amountOn_nonneg hs hp
    omega

/-! ### What postings leave -/

/-- Where a credit fits, nothing is cut off. -/
theorem ChildEnrollment.paidDown_of_le {e : ChildEnrollment} {amount : Int}
    (h : amount ≤ e.remainingBalance) :
    (e.paidDown amount).remainingBalance = e.remainingBalance - amount := by
  unfold ChildEnrollment.paidDown
  split
  · simp only
    omega
  · rfl

theorem ChildEnrollment.openedBy_of_le {e : ChildEnrollment} {amount : Int}
    (h : amount ≤ e.remainingBalance) :
    (e.openedBy amount).remainingBalance = e.remainingBalance - amount := by
  unfold ChildEnrollment.openedBy
  simp only
  omega

/-- What a payment gains is there beside what waits once it is credited. -/
theorem LeavesRoom.fits (hroom : HasRoom s) (hleaves : LeavesRoom s t)
    (hm : entry.Made s t locks) {k : Id} {p q : Payment} {e : ChildEnrollment}
    (hk : entry.payment = some (k, q)) (hp : s.payments.lookup k = some p)
    (he : s.enrollments.lookup p.enrollmentId = some e)
    (hbefore : creditOn p.enrollmentId p = 0) (hafter : 0 ≤ creditOn p.enrollmentId q)
    (hsame : p.isReservation = true → creditOn p.enrollmentId q = p.amountPaid)
    (hdecided : q.isReservation = false) :
    creditOn p.enrollmentId q + Enrollment.installmentsReserved p.enrollmentId t ≤
      e.remainingBalance := by
  have hreserved := hm.installmentsReserved p.enrollmentId
  rw [Entry.gain_old _ hk hp, amountOn_other hdecided] at hreserved
  have hroomy := (hroom _ e he).reserved
  by_cases hwaits : p.isReservation = true
  · rw [amountOn_reservation hwaits] at hreserved
    have := hsame hwaits
    omega
  · have hnot := Bool.eq_false_iff.mpr hwaits
    rw [amountOn_other hnot] at hreserved
    by_cases hgain : creditOn p.enrollmentId p < creditOn p.enrollmentId q
    · have := hleaves.gains k p q e hp (hm.payment_put hk) hnot he hgain
      omega
    · omega

/-- A credit that fits leaves room. -/
theorem Roomy.paid {e e' : ChildEnrollment} {amount : Int} (h : Roomy id s e)
    (hbalance : e'.remainingBalance = e.remainingBalance - amount)
    (hfee : e'.totalSchoolFee = e.totalSchoolFee)
    (hinvite : e'.enrollmentInviteId = e.enrollmentInviteId) (hamount : 0 ≤ amount)
    (hfits : amount + Enrollment.installmentsReserved id t ≤ e.remainingBalance)
    (hcredited : credited id t = credited id s + amount) : Roomy id t e' := by
  rcases h with ⟨-, hle, hmigrated⟩
  refine ⟨?_, ?_, fun hnew => ?_⟩
  · omega
  · omega
  · rw [hinvite] at hnew
    have := hmigrated hnew
    omega

/-- The plan a posting puts has room for what waits on it. -/
theorem Posting.roomy (hs : Coherent s) (hroom : HasRoom s) (hleaves : LeavesRoom s t)
    (h : Posting (fun c s => Stable c s ∧ SameFees c s) s kind entry) (hm : entry.Made s t locks)
    {e' : ChildEnrollment} (hk : entry.plan = some (id, e')) : Roomy id t e' := by
  have hreserved := hm.installmentsReserved id
  have hcredited := hm.credited id
  have hnonneg := (h.coherent (fun c hc => hc.1) hs hm).installmentsReserved_nonneg id
  cases h with
  | @confirm k p e date a hp htype hunconfirmed he =>
    rcases Prod.mk.inj (Option.some.inj hk) with ⟨rfl, rfl⟩
    have hpos := ((hs.payments _ _ hp).installment htype).1
    have hafter : creditOn p.enrollmentId (p.confirmedOn date) = p.amountPaid := by
      simp [creditOn, Payment.isCredited, Payment.confirmedOn, Payment.worth, htype]
    have hfits := hleaves.fits hroom hm rfl hp he (creditOn_unconfirmed hunconfirmed)
      (by omega) (fun _ => hafter) (by simp [Payment.isReservation, Payment.confirmedOn])
    rw [hafter] at hfits
    rw [Entry.gain_old _ rfl hp, hafter, creditOn_unconfirmed hunconfirmed] at hcredited
    refine (hroom _ e he).paid (ChildEnrollment.paidDown_of_le ?_) (by simp) ?_ hpos.le hfits ?_
    · omega
    · exact (ChildEnrollment.paidDown_continues e p.amountPaid).enrollmentInviteId
    · omega
  | @reverse k p e before c a hp htype hconfirmed hstatus he hc _ hbefore =>
    rcases Prod.mk.inj (Option.some.inj hk) with ⟨rfl, rfl⟩
    have hfee := hc.2 _ before e hbefore he
    have hpos := ((hs.payments _ _ hp).installment htype).1
    have hcredit := creditOn_confirmed hstatus hconfirmed
    have hworth : p.worth = p.amountPaid := by simp [Payment.worth, htype]
    have hle := hs.worth_le_credited hp hstatus hconfirmed
    have hafter : creditOn p.enrollmentId { p with status := .REVERSED, isConfirmed := false } =
      0 := creditOn_unconfirmed rfl
    rw [Entry.gain_old _ rfl hp, amountOn_other (by simp [Payment.isReservation]),
      amountOn_other (by simp [Payment.isReservation, hconfirmed])] at hreserved
    rw [Entry.gain_old _ rfl hp, hafter, hcredit] at hcredited
    rcases hroom _ e he with ⟨hwaiting, hbalance, hmigrated⟩
    unfold ChildEnrollment.restored
    refine ⟨?_, ?_, fun hinvite => ?_⟩
    · simp only
      omega
    · simp only
      omega
    · have := hmigrated hinvite
      simp only
      omega
  | @close _ k p e audit hp _ htype hunconfirmed he =>
    rcases Prod.mk.inj (Option.some.inj hk) with ⟨rfl, rfl⟩
    rw [Entry.gain_old _ rfl hp, amountOn_other (by simp [Payment.isReservation]),
      amountOn_other (by simp [Payment.isReservation, htype])] at hreserved
    rcases hroom _ e he with ⟨hwaiting, hbalance, -⟩
    refine ⟨?_, hbalance, fun hinvite => absurd (hs.not_migrated hp htype he) hinvite⟩
    simp only
    omega
  | @credit action k p e date fee a _ hp htype hunconfirmed _ he =>
    rcases Prod.mk.inj (Option.some.inj hk) with ⟨rfl, rfl⟩
    have hamount := (hs.payments _ _ hp).first htype
    have hafter : creditOn p.enrollmentId (p.paidOn date fee) = p.schoolAmount := by
      simp [creditOn, Payment.isCredited, Payment.paidOn, Payment.confirmedOn, Payment.worth, htype]
    have hfits := hleaves.fits hroom hm rfl hp he (creditOn_unconfirmed hunconfirmed)
      (by omega) (by simp [Payment.isReservation, htype])
      (by simp [Payment.isReservation, Payment.paidOn, Payment.confirmedOn])
    rw [hafter] at hfits
    rw [Entry.gain_old _ rfl hp, hafter, creditOn_unconfirmed hunconfirmed] at hcredited
    refine (hroom _ e he).paid (ChildEnrollment.openedBy_of_le ?_) rfl rfl hamount hfits ?_
    · omega
    · omega
  | @dispute reference k p e before c a hp _ htype hsuccess he hc _ hbefore =>
    rcases Prod.mk.inj (Option.some.inj hk) with ⟨rfl, rfl⟩
    have hfee := hc.2 _ before e hbefore he
    rw [Entry.gain_old _ rfl hp, amountOn_other (by simp [Payment.isReservation, htype]),
      amountOn_other (by simp [Payment.isReservation, htype])] at hreserved
    rcases hroom _ e he with ⟨hwaiting, hbalance, -⟩
    have hnot := hs.not_migrated hp htype he
    unfold ChildEnrollment.disputed
    split
    · refine ⟨?_, hfee.ge, fun hinvite => absurd hnot hinvite⟩
      simp only
      omega
    · refine ⟨?_, hbalance, fun hinvite => absurd hnot hinvite⟩
      simp only
      omega
  | markDefaulted he | sweepDefaulted he =>
    rcases Prod.mk.inj (Option.some.inj hk) with ⟨rfl, rfl⟩
    rw [Entry.gain_none _ rfl, Int.add_zero] at hreserved hcredited
    rcases hroom _ _ he with ⟨hwaiting, hbalance, hmigrated⟩
    exact ⟨hreserved ▸ hwaiting, hbalance, hcredited ▸ hmigrated⟩
  | @openPlan reference k k' p e hnew ho hplan =>
    rcases Prod.mk.inj (Option.some.inj hk) with ⟨rfl, rfl⟩
    have hfee := ho.fee
    have hbalance := ho.balance
    rw [Entry.gain_new _ rfl ho.fresh, amountOn_other (by simp [Payment.isReservation, ho.paymentType]),
      hs.installmentsReserved_none hnew] at hreserved
    refine ⟨?_, hbalance.le, fun hinvite => absurd ho.notMigrated hinvite⟩
    omega
  | @reopenPlan reference k k' p e₀ e he _ ho hplan =>
    rcases Prod.mk.inj (Option.some.inj hk) with ⟨rfl, rfl⟩
    have hfee := hleaves.fees k' e₀ e he (hm.plan_put rfl)
    have hbalance := ho.balance
    rw [Entry.gain_new _ rfl ho.fresh, amountOn_other (by simp [Payment.isReservation, ho.paymentType]),
      Int.add_zero] at hreserved
    rcases hroom _ e₀ he with ⟨hwaiting, hle, -⟩
    refine ⟨?_, hbalance.le, fun hinvite => absurd ho.notMigrated hinvite⟩
    omega
  | @submit k p e hfresh _ htype hstatus hunconfirmed _ _ _ he _ hwithin =>
    rcases Prod.mk.inj (Option.some.inj hk) with ⟨rfl, rfl⟩
    have hwaits : p.isReservation = true := by
      simp [Payment.isReservation, htype, hstatus, hunconfirmed]
    rw [Entry.gain_new _ rfl hfresh, amountOn_reservation hwaits] at hreserved
    rw [Entry.gain_new _ rfl hfresh, creditOn_unconfirmed hunconfirmed, Int.add_zero] at hcredited
    rcases hroom _ e he with ⟨-, hbalance, hmigrated⟩
    refine ⟨?_, hbalance, hcredited ▸ hmigrated⟩
    omega
  | @migrate k k' inviteId childId invite now a hfresh hnew hfee hpaid hle =>
    rcases Prod.mk.inj (Option.some.inj hk) with ⟨rfl, rfl⟩
    have hafter : creditOn k' (Ledger.migratedPayment k' invite now) = invite.amountAlreadyPaid :=
      by simp [creditOn, Payment.isCredited, Ledger.migratedPayment, Payment.worth]
    rw [Entry.gain_new _ rfl hfresh,
      amountOn_other (by simp [Payment.isReservation, Ledger.migratedPayment]),
      hs.installmentsReserved_none hnew] at hreserved
    rw [Entry.gain_new _ rfl hfresh, hafter, hs.credited_none hnew] at hcredited
    refine ⟨?_, ?_, fun _ => ?_⟩
    · simp only [Ledger.migratedEnrollment, deriveMigratedPlan]
      omega
    · simp only [Ledger.migratedEnrollment, deriveMigratedPlan]
      omega
    · simp only [Ledger.migratedEnrollment, deriveMigratedPlan]
      omega
  | @amend k p e newAmount a hp htype hstatus hnew he hwithin =>
    rcases Prod.mk.inj (Option.some.inj hk) with ⟨rfl, rfl⟩
    have hconfirmed := (hs.payments _ _ hp).confirmed.mpr hstatus
    have hcredit := creditOn_confirmed hstatus hconfirmed
    have hworth : p.worth = p.amountPaid := by simp [Payment.worth, htype]
    have hafter : creditOn p.enrollmentId
        { p with amountPaid := newAmount, schoolAmount := newAmount } = newAmount := by
      simp [creditOn, Payment.isCredited, Payment.worth, htype, hstatus, hconfirmed]
    have hnot : p.isReservation = false := by simp [Payment.isReservation, htype]
    have hall := hs.credited_migrated hp htype
    have hinvite : e.enrollmentInviteId ≠ none := by
      rcases hs.planOf hp with ⟨e₀, he₀, -, hmigrated, -⟩
      rw [Option.some.inj (he.symm.trans he₀)]
      exact hmigrated htype
    rcases hroom _ e he with ⟨hwaiting, hbalance, hmigrated⟩
    have hleft := hmigrated hinvite
    rw [Entry.gain_old _ rfl hp, amountOn_other hnot,
      amountOn_other (by simp [Payment.isReservation, htype])] at hreserved
    rw [Entry.gain_old _ rfl hp, hafter, hcredit] at hcredited
    have hnonnegPaid := hs.installmentsConfirmed_nonneg p.enrollmentId
    unfold ChildEnrollment.amended
    refine ⟨?_, ?_, fun _ => ?_⟩
    · simp only
      by_cases hgain : p.amountPaid < newAmount
      · have hfits := hleaves.gains k p _ e hp (hm.payment_put rfl) hnot he (by omega)
        omega
      · omega
    · simp only
      omega
    · simp only
      omega
  | reject | releaseKey | storeAccessCode | aside => cases hk

/-- A posting that credits a payment takes all of its worth off the balance. -/
theorem Posting.credits_in_full (hs : Coherent s) (hroom : HasRoom s) (hleaves : LeavesRoom s t)
    (h : Posting (fun c s => Stable c s ∧ SameFees c s) s kind entry) (hm : entry.Made s t locks)
    {k : Id} {p q : Payment} {e : ChildEnrollment} (hp : s.payments.lookup k = some p)
    (hq : t.payments.lookup k = some q) (hbefore : p.isCredited = false)
    (hafter : q.isCredited = true) (he : s.enrollments.lookup p.enrollmentId = some e) :
    ∃ e', t.enrollments.lookup p.enrollmentId = some e' ∧
      e'.remainingBalance = e.remainingBalance - q.worth := by
  have hnonneg := (h.coherent (fun c hc => hc.1) hs hm).installmentsReserved_nonneg p.enrollmentId
  rcases hm.payment_cases hq with hput | ⟨hold, -⟩
  · cases h with
    | @confirm k p' e' date a hp' htype hunconfirmed he' =>
      rcases Prod.mk.inj (Option.some.inj hput) with ⟨rfl, rfl⟩
      obtain rfl := Option.some.inj (hp.symm.trans hp')
      obtain rfl := Option.some.inj (he.symm.trans he')
      have hworth : (p.confirmedOn date).worth = p.amountPaid := by
        simp [Payment.worth, Payment.confirmedOn, htype]
      have hcredit : creditOn p.enrollmentId (p.confirmedOn date) = p.amountPaid := by
        simp [creditOn, Payment.isCredited, Payment.confirmedOn, Payment.worth, htype]
      have hpos := ((hs.payments _ _ hp).installment htype).1
      have hfits := hleaves.fits hroom hm rfl hp he (creditOn_unconfirmed hunconfirmed)
        (by omega) (fun _ => hcredit) (by simp [Payment.isReservation, Payment.confirmedOn])
      refine ⟨_, hm.plan_put rfl, ?_⟩
      rw [hworth, ChildEnrollment.paidDown_of_le (by omega)]
    | @credit action k p' e' date fee a _ hp' htype hunconfirmed _ he' =>
      rcases Prod.mk.inj (Option.some.inj hput) with ⟨rfl, rfl⟩
      obtain rfl := Option.some.inj (hp.symm.trans hp')
      obtain rfl := Option.some.inj (he.symm.trans he')
      have hworth : (p.paidOn date fee).worth = p.schoolAmount := by
        simp [Payment.worth, Payment.paidOn, Payment.confirmedOn, htype]
      have hcredit : creditOn p.enrollmentId (p.paidOn date fee) = p.schoolAmount := by
        simp [creditOn, Payment.isCredited, Payment.paidOn, Payment.confirmedOn, Payment.worth,
          htype]
      have hamount := (hs.payments _ _ hp).first htype
      have hfits := hleaves.fits hroom hm rfl hp he (creditOn_unconfirmed hunconfirmed)
        (by omega) (by simp [Payment.isReservation, htype])
        (by simp [Payment.isReservation, Payment.paidOn, Payment.confirmedOn])
      refine ⟨_, hm.plan_put rfl, ?_⟩
      rw [hworth, ChildEnrollment.openedBy_of_le (by omega)]
    | amend hp' _ hstatus =>
      rcases Prod.mk.inj (Option.some.inj hput) with ⟨rfl, rfl⟩
      obtain rfl := Option.some.inj (hp.symm.trans hp')
      simp [Payment.isCredited, hstatus, (hs.payments _ _ hp).confirmed.mpr hstatus] at hbefore
    | releaseKey hp' | storeAccessCode hp' =>
      rcases Prod.mk.inj (Option.some.inj hput) with ⟨rfl, rfl⟩
      obtain rfl := Option.some.inj (hp.symm.trans hp')
      have hsame : p.isCredited = true := hafter
      rw [hbefore] at hsame
      cases hsame
    | reverse | reject | close | dispute =>
      rcases Prod.mk.inj (Option.some.inj hput) with ⟨rfl, rfl⟩
      simp [Payment.isCredited] at hafter
    | openPlan _ ho | reopenPlan _ _ ho =>
      rcases Prod.mk.inj (Option.some.inj hput) with ⟨rfl, rfl⟩
      simp [Payment.isCredited, ho.isConfirmed] at hafter
    | submit _ _ _ _ hunconfirmed =>
      rcases Prod.mk.inj (Option.some.inj hput) with ⟨rfl, rfl⟩
      simp [Payment.isCredited, hunconfirmed] at hafter
    | migrate hfresh =>
      rcases Prod.mk.inj (Option.some.inj hput) with ⟨rfl, rfl⟩
      rw [hfresh] at hp
      cases hp
    | markDefaulted | sweepDefaulted | aside => cases hput
  · obtain rfl := Option.some.inj (hp.symm.trans hold)
    rw [hbefore] at hafter
    cases hafter

/-! ### Runs -/

/-- A database with the books in order and room on every plan. -/
def InRoom (s : Db) : Prop := Coherent s ∧ HasRoom s

theorem Opening.inRoom (h : Opening s) : InRoom s := by
  refine ⟨h.coherent, fun id e he => ?_⟩
  rw [h.enrollments, AList.lookup_empty] at he
  cases he

/-- What a run does whose steps leave room. -/
def LeavingRoom (t : Service) (_ : Event Job Answer) (t' : Service) : Prop :=
  LeavesRoom t.store t'.store

instance (t : Service) (e : Event Job Answer) (t' : Service) : Decidable (LeavingRoom t e t') :=
  inferInstanceAs (Decidable (LeavesRoom t.store t'.store))

variable {u u' : Service}

/-- A step of such a run commits nothing, or one posting. -/
theorem reach_leaving (hu : Sys.Reach store Job.program LeavingRoom InRoom u)
    {e : Event Job Answer} (hstep : u.step store Job.program e = some u')
    (hleaves : LeavingRoom u e u') : u'.store = u.store ∨ ∃ kind entry ws,
      Posting (fun c s => Stable c s ∧ SameFees c s) u.store kind entry ∧
      entry.Made u.store u'.store (store.locksOf ws) := by
  rcases reach_heeded SameFees.heeded (fun _ _ _ _ hguard _ _ _ => hguard.fees) (fun _ h => h.1) hu
    hstep hleaves with hsame | ⟨pid, ch, x, kind, ws, -, -, -, ⟨entry, hposting, hmade⟩, hstore⟩
  · exact .inl hsame
  · rw [hstore]
    exact .inr ⟨kind, entry, ws, hposting, hmade⟩

theorem reach_inRoom (hu : Sys.Reach store Job.program LeavingRoom InRoom u) :
    InRoom u.store := by
  refine ⟨reach_coherent (fun _ h => h.1) hu, ?_⟩
  induction hu with
  | init hs => exact hs.2
  | @step u u' e hu hstep hleaves ih =>
    have hcoh := reach_coherent (fun _ h => h.1) hu
    rcases reach_leaving hu hstep hleaves with hsame | ⟨kind, entry, ws, hposting, hmade⟩
    · rw [hsame]
      exact ih
    · intro id e' he'
      rcases hmade.enrollment_cases he' with hput | ⟨hold, hother⟩
      · exact hposting.roomy hcoh ih hleaves hmade hput
      · rcases ih id e' hold with ⟨hwaiting, hbalance, hmigrated⟩
        have hfewer := hposting.reserved_elsewhere hcoh hmade hother
        refine ⟨hfewer.trans hwaiting, hbalance, ?_⟩
        rw [hposting.credited_elsewhere hmade hother]
        exact hmigrated

/-- The school is about to commit its confirmation of the receipt `x4`; in the meantime another
    receipt, `y4`, has been submitted on the plan `a6`. -/
def twoReceipts : List (Event Job Answer) :=
  uninterrupted 0 (.enrollChild (enrollment none) "parent") "a" 18 ++
  uninterrupted 1 (.settleFirstPayment "a8" admin) "b" 12 ++
  uninterrupted 2 (.submitInstallmentPayment "a6" 25000 parentUser none none) "x" 10 ++
  uninterrupted 3 (.confirmPayment "x4" "school" owner) "c" 3 ++
  uninterrupted 4 (.submitInstallmentPayment "a6" 50000 parentUser none none) "y" 10 ++
  goingOn 3 "c" 3 6

end Lopay
