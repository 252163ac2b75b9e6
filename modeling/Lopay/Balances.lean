import Lopay.Books.Credits
import Lopay.Books.Jobs

/-!
# Balances

What runs of the jobs keep true of the balance of a plan when each job runs by itself:
it stays between zero and the fee and agrees with the status, and as far as no credit
was clamped it is what the confirmed payments leave open.
-/

namespace Lopay

open Transactions

variable {s : Db} {kind : Kind} {entry : Entry}

/-! ### Bounds and status -/

/-- The balance is within the fee and agrees with the status. -/
structure ChildEnrollment.Balanced (e : ChildEnrollment) : Prop where
  nonneg : 0 ≤ e.remainingBalance
  le_fee : e.remainingBalance ≤ e.totalSchoolFee
  completed : e.paymentStatus = .COMPLETED → e.remainingBalance = 0
  active : e.paymentStatus = .ACTIVE → 0 < e.remainingBalance

theorem Coherent.installmentsConfirmed_nonneg (hs : Coherent s) (enrollmentId : Id) :
    0 ≤ Ledger.installmentsConfirmed enrollmentId s := by
  unfold Ledger.installmentsConfirmed Db.sumAmountPaid
  apply Table.total_nonneg
  intro k p hp
  split
  · next hcond =>
    have htype : p.paymentType = .INSTALLMENT := (of_decide_eq_true hcond.2).1
    exact ((hs.payments k p hp).installment htype).1.le
  · exact le_refl 0

namespace ChildEnrollment.Balanced

variable {e : ChildEnrollment}

theorem paidDown (h : e.Balanced) {amount : Int} (hpos : 0 < amount) :
    (e.paidDown amount).Balanced := by
  obtain ⟨hnonneg, hle, hcompleted, hactive⟩ := h
  unfold ChildEnrollment.paidDown
  split
  · exact ⟨le_refl 0, hnonneg.trans hle, fun _ => rfl, nofun⟩
  · refine ⟨?_, ?_, fun hc => ?_, fun _ => ?_⟩
    · simp only
      omega
    · simp only
      omega
    · have := hcompleted hc
      omega
    · simp only
      omega

theorem openedBy (h : e.Balanced) {amount : Int} (hamount : 0 ≤ amount) :
    (e.openedBy amount).Balanced := by
  obtain ⟨hnonneg, hle, -, -⟩ := h
  unfold ChildEnrollment.openedBy
  refine ⟨le_max_left _ _, ?_, ?_, ?_⟩
  · simp only
    omega
  · simp only
    split
    · intro _
      omega
    · exact nofun
  · simp only
    split
    · exact nofun
    · intro _
      omega

theorem restored (h : e.Balanced) (hfee : 0 < e.totalSchoolFee) {amount : Int}
    (hpos : 0 < amount) : (e.restored amount e).Balanced := by
  obtain ⟨hnonneg, hle, hcompleted, hactive⟩ := h
  unfold ChildEnrollment.restored
  refine ⟨?_, ?_, ?_, ?_⟩
  · simp only
    omega
  · simp only
    omega
  · simp only
    split
    · exact nofun
    · next hne => exact fun hc => absurd hc hne
  · simp only
    intro _
    omega

/-- A plan that is neither ACTIVE nor COMPLETED only has bounds to keep. -/
theorem of_bounds (hnonneg : 0 ≤ e.remainingBalance) (hle : e.remainingBalance ≤ e.totalSchoolFee)
    (hcompleted : e.paymentStatus ≠ .COMPLETED) (hactive : e.paymentStatus ≠ .ACTIVE) :
    e.Balanced :=
  ⟨hnonneg, hle, fun h => absurd h hcompleted, fun h => absurd h hactive⟩

theorem disputed (h : e.Balanced) : (e.disputed e).Balanced := by
  obtain ⟨hnonneg, hle, -, -⟩ := h
  unfold ChildEnrollment.disputed
  split
  · exact of_bounds (hnonneg.trans hle) (le_refl _) nofun nofun
  · exact of_bounds hnonneg hle nofun nofun

theorem amended (h : e.Balanced) {newAmount installmentsPaid : Int} (hnew : 0 ≤ newAmount)
    (hpaid : 0 ≤ installmentsPaid)
    (hwithin : 0 ≤ e.totalSchoolFee - newAmount - installmentsPaid) :
    (e.amended newAmount installmentsPaid).Balanced := by
  obtain ⟨-, -, hcompleted, hactive⟩ := h
  unfold ChildEnrollment.amended statusAfterMigratedAmendment
  refine ⟨hwithin, ?_, ?_, ?_⟩
  · simp only
    omega
  · simp only
    split
    · intro _
      omega
    · split
      · exact nofun
      · next hne => exact fun hc => absurd hc hne
  · simp only
    split
    · exact nofun
    · intro _
      omega

end ChildEnrollment.Balanced

/-- The opening position of a migrated plan. -/
theorem migratedEnrollment_balanced {invite : EnrollmentInvite}
    (hpaid : 0 ≤ invite.amountAlreadyPaid)
    (hle : invite.amountAlreadyPaid ≤ invite.totalSchoolFee) (inviteId childId : Id) :
    (Ledger.migratedEnrollment inviteId invite childId).Balanced := by
  unfold Ledger.migratedEnrollment deriveMigratedPlan
  refine ⟨le_max_left _ _, ?_, ?_, ?_⟩
  · simp only
    omega
  · simp only
    split
    · next h => exact fun _ => h
    · exact nofun
  · simp only
    split
    · exact nofun
    · intro _
      omega

/-- The plan a posting puts is balanced if the plans were. -/
theorem Posting.balanced (hs : Coherent s) (hb : s.enrollments.Forall fun _ e => e.Balanced)
    (h : Posting (· = ·) s kind entry) {k : Id} {e' : ChildEnrollment}
    (hk : entry.plan = some (k, e')) : e'.Balanced := by
  cases h with
  | confirm hp htype _ he =>
    obtain ⟨rfl, rfl⟩ := Prod.mk.inj (Option.some.inj hk)
    exact (hb _ _ he).paidDown ((hs.payments _ _ hp).installment htype).1
  | @reverse _ _ e before c _ hp htype _ _ he hc _ hbefore =>
    obtain ⟨rfl, rfl⟩ := Prod.mk.inj (Option.some.inj hk)
    subst hc
    obtain rfl := Option.some.inj (he.symm.trans hbefore)
    exact (hb _ _ he).restored (hs.enrollments _ _ he).fee
      ((hs.payments _ _ hp).installment htype).1
  | close _ _ _ _ he =>
    obtain ⟨rfl, rfl⟩ := Prod.mk.inj (Option.some.inj hk)
    exact .of_bounds (hb _ _ he).nonneg (hb _ _ he).le_fee nofun nofun
  | credit _ hp htype _ _ he =>
    obtain ⟨rfl, rfl⟩ := Prod.mk.inj (Option.some.inj hk)
    exact (hb _ _ he).openedBy ((hs.payments _ _ hp).first htype)
  | @dispute _ _ _ e before c _ _ _ _ _ he hc _ hbefore =>
    obtain ⟨rfl, rfl⟩ := Prod.mk.inj (Option.some.inj hk)
    subst hc
    obtain rfl := Option.some.inj (he.symm.trans hbefore)
    exact (hb _ _ he).disputed
  | markDefaulted he | sweepDefaulted he =>
    obtain ⟨rfl, rfl⟩ := Prod.mk.inj (Option.some.inj hk)
    exact .of_bounds (hb _ _ he).nonneg (hb _ _ he).le_fee nofun nofun
  | openPlan _ ho | reopenPlan _ _ ho =>
    obtain ⟨rfl, rfl⟩ := Prod.mk.inj (Option.some.inj hk)
    have hbalance := ho.balance
    have hfee := ho.fee
    refine .of_bounds ?_ ?_ ?_ ?_
    · omega
    · omega
    · rw [ho.pending]
      exact nofun
    · rw [ho.pending]
      exact nofun
  | submit _ _ _ _ _ _ _ _ he =>
    obtain ⟨rfl, rfl⟩ := Prod.mk.inj (Option.some.inj hk)
    exact hb _ _ he
  | migrate _ _ _ hpaid hle =>
    obtain ⟨rfl, rfl⟩ := Prod.mk.inj (Option.some.inj hk)
    exact migratedEnrollment_balanced hpaid hle _ _
  | amend _ _ _ hnew he hwithin =>
    obtain ⟨rfl, rfl⟩ := Prod.mk.inj (Option.some.inj hk)
    exact (hb _ _ he).amended hnew (hs.installmentsConfirmed_nonneg _) hwithin
  | reject | releaseKey | storeAccessCode | aside => cases hk

theorem Posts.balanced (hs : Coherent s) (hb : s.enrollments.Forall fun _ e => e.Balanced)
    {ws : List Write} (h : Posts (· = ·) kind s ws) :
    (store.applyAll ws s).enrollments.Forall fun _ e => e.Balanced := by
  obtain ⟨entry, hposting, hmade⟩ := h
  intro k e he
  rcases hmade.enrollment_cases he with hput | ⟨hold, -⟩
  · exact hposting.balanced hs hb hput
  · exact hb k e hold

/-- The balances of every serial run. -/
theorem serial_balanced (hs : Serial store Job.program (fun _ _ _ => True) Opening s) :
    s.enrollments.Forall fun _ e => e.Balanced := by
  suffices hinv : Coherent s ∧ s.enrollments.Forall fun _ e => e.Balanced from hinv.2
  refine serial_invariant (I := fun s => Coherent s ∧ s.enrollments.Forall fun _ e => e.Balanced)
    (fun s h => h.1) ?_ ?_ hs
  · intro s hs
    refine ⟨hs.coherent, ?_⟩
    intro k e he
    rw [hs.enrollments, AList.lookup_empty] at he
    cases he
  · rintro j kind s ws - - ⟨hcoh, hbalanced⟩ hposts
    have hstable : ∀ c, c = s → Stable c s := by
      rintro c rfl
      exact .refl c
    exact ⟨hposts.coherent hstable hcoh, hposts.balanced hcoh hbalanced⟩

/-- Run one after the other, in any order, the jobs keep every balance between zero and
    the fee and in agreement with the status. -/
theorem balance_within_fee (hs : Serial store Job.program (fun _ _ _ => True) Opening s)
    {id : Id} {e : ChildEnrollment} (he : s.enrollments.lookup id = some e) :
    0 ≤ e.remainingBalance ∧ e.remainingBalance ≤ e.totalSchoolFee ∧
      (e.paymentStatus = .COMPLETED → e.remainingBalance = 0) ∧
      (e.paymentStatus = .ACTIVE → 0 < e.remainingBalance) := by
  obtain ⟨hnonneg, hle, hcompleted, hactive⟩ := serial_balanced hs id e he
  exact ⟨hnonneg, hle, hcompleted, hactive⟩

theorem balance_within_fee_confirmed : ∃ s e,
    execSerial store Job.program (fun _ _ _ => true)
      [(.enrollChild (enrollment none) "parent", smoothly "a"),
       (.settleFirstPayment "a8" admin, smoothly "b"),
       (.submitInstallmentPayment "a6" 75000 parentUser none none, smoothly "x"),
       (.confirmPayment "x4" "school" owner, smoothly "c")] oneFamily = some s ∧
    s.enrollments.lookup "a6" = some e ∧ 0 ≤ e.remainingBalance ∧
      e.remainingBalance ≤ e.totalSchoolFee ∧
      (e.paymentStatus = .COMPLETED → e.remainingBalance = 0) ∧
      (e.paymentStatus = .ACTIVE → 0 < e.remainingBalance) := by
  have hruns : ((execSerial store Job.program (fun _ _ _ => true)
      [(.enrollChild (enrollment none) "parent", smoothly "a"),
       (.settleFirstPayment "a8" admin, smoothly "b"),
       (.submitInstallmentPayment "a6" 75000 parentUser none none, smoothly "x"),
       (.confirmPayment "x4" "school" owner, smoothly "c")] oneFamily).bind fun s =>
      s.enrollments.lookup "a6").isSome = true := by
    decide +kernel
  obtain ⟨e, he⟩ := Option.isSome_iff_exists.mp hruns
  obtain ⟨s, hs, he⟩ := Option.bind_eq_some_iff.mp he
  exact ⟨s, e, hs, he, balance_within_fee
    (Serial.of_exec (fun _ _ _ _ => trivial) (.init oneFamily_opening) hs) he⟩

/-! ### Conservation -/

/-- The balance of a plan is what its confirmed payments leave open. -/
def Conserved (id : Id) (s : Db) : Prop :=
  ∀ e, s.enrollments.lookup id = some e →
    e.remainingBalance = max 0 (e.totalSchoolFee - credited id s)

/-- The step from `s` to `t` opens the plan `id` again for a new first payment. -/
def Reopens (s t : Db) (id : Id) : Prop :=
  (∃ e, s.enrollments.lookup id = some e) ∧ ∃ k p, s.payments.lookup k = none ∧
    t.payments.lookup k = some p ∧ p.paymentType = .FIRST_PAYMENT ∧ p.enrollmentId = id

/-- The step from `s` to `t` takes the confirmed payment `p` back. -/
def TakesBack (s t : Db) (p : Payment) : Prop :=
  p.isCredited = true ∧ ∃ k q, s.payments.lookup k = some p ∧ t.payments.lookup k = some q ∧
    q.isCredited = false

/-- No plan with confirmed payments is opened again, and none is taken back while the
    confirmed payments of the plan exceed its fee, unless it is all of them. -/
structure Unclamped (s t : Db) : Prop where
  reopen : ∀ id, Reopens s t id → credited id s = 0
  reverse : ∀ p e, TakesBack s t p → s.enrollments.lookup p.enrollmentId = some e →
    credited p.enrollmentId s ≤ e.totalSchoolFee ∨ credited p.enrollmentId s = p.worth

instance (s t : Db) : Decidable (Unclamped s t) :=
  decidable_of_iff (∀ r ∈ t.payments.rows,
    (s.payments.lookup r.1 = none → r.2.paymentType = .FIRST_PAYMENT →
      (s.enrollments.lookup r.2.enrollmentId).isSome → credited r.2.enrollmentId s = 0) ∧
    ∀ p ∈ s.payments.lookup r.1, p.isCredited = true → r.2.isCredited = false →
      ∀ e ∈ s.enrollments.lookup p.enrollmentId,
        credited p.enrollmentId s ≤ e.totalSchoolFee ∨ credited p.enrollmentId s = p.worth) <| by
    constructor
    · intro h
      constructor
      · rintro id ⟨⟨e, he⟩, k, p, hfresh, hp, htype, rfl⟩
        exact (h (k, p) (Table.mem_rows.mpr hp)).1 hfresh htype (by rw [he]; rfl)
      · rintro p e ⟨hcredited, k, q, hp, hq, huncredited⟩ he
        exact (h (k, q) (Table.mem_rows.mpr hq)).2 p hp hcredited huncredited e he
    · rintro ⟨hreopen, hreverse⟩ ⟨k, q⟩ hq
      have hlookup := Table.mem_rows.mp hq
      constructor
      · intro hfresh htype hplan
        obtain ⟨e, he⟩ := Option.isSome_iff_exists.mp hplan
        exact hreopen _ ⟨⟨e, he⟩, k, q, hfresh, hlookup, htype, rfl⟩
      · intro p hp hcredited huncredited e he
        exact hreverse p e ⟨hcredited, k, q, hp, hlookup, huncredited⟩ he

/-- The fee a withdrawal has read is still that of the plan. -/
def SameFee (E : Db → Db → Prop) (s : Db) (kind : Kind) : Prop :=
  ∀ k p c before e, kind = .reverse k → E c s → c.payments.lookup k = some p →
    c.enrollments.lookup p.enrollmentId = some before →
    s.enrollments.lookup p.enrollmentId = some e → before.totalSchoolFee = e.totalSchoolFee

/-- The plan a posting puts has the balance that its confirmed payments leave open. -/
theorem Posting.conserved {E : Db → Db → Prop} {t : Db} {locks : List Lock} (hs : Coherent s)
    (hunclamped : Unclamped s t) (hfees : SameFee E s kind)
    (hdispute : ∀ reference, kind ≠ .dispute reference) (h : Posting E s kind entry)
    (hm : entry.Made s t locks) {id : Id} {e' : ChildEnrollment}
    (hk : entry.plan = some (id, e'))
    (hcons : (∀ reference, kind ≠ .reopenPlan reference) → Conserved id s) :
    e'.remainingBalance = max 0 (e'.totalSchoolFee - credited id t) := by
  have hcredited := hm.credited id
  cases h with
  | @confirm k p e date a hp htype hunconfirmed he =>
    obtain ⟨rfl, rfl⟩ := Prod.mk.inj (Option.some.inj hk)
    have hbefore := hcons (by simp) e he
    have hpos := ((hs.payments _ _ hp).installment htype).1
    have hafter : creditOn p.enrollmentId (p.confirmedOn date) = p.amountPaid := by
      simp [creditOn, Payment.isCredited, Payment.confirmedOn, Payment.worth, htype]
    rw [Entry.gain_old _ rfl hp, hafter, creditOn_unconfirmed hunconfirmed] at hcredited
    rw [hcredited]
    unfold ChildEnrollment.paidDown
    split
    · simp only
      omega
    · simp only
      omega
  | @reverse k p e before c a hp htype hconfirmed hstatus he hc _ hbefore _ hread =>
    obtain ⟨rfl, rfl⟩ := Prod.mk.inj (Option.some.inj hk)
    have hsame := hfees k p c before e rfl hc hread hbefore he
    have hrow := hcons (by simp) e he
    have hfee := (hs.enrollments _ _ he).fee
    have hpos := ((hs.payments _ _ hp).installment htype).1
    have hworth : p.worth = p.amountPaid := by simp [Payment.worth, htype]
    have hcredit := creditOn_confirmed hstatus hconfirmed
    have hle := hs.worth_le_credited hp hstatus hconfirmed
    have hafter : creditOn p.enrollmentId { p with status := .REVERSED, isConfirmed := false } =
      0 := creditOn_unconfirmed rfl
    have htaken : TakesBack s t p := by
      refine ⟨by simp [Payment.isCredited, hstatus, hconfirmed], k, _, hp, hm.payment_put rfl, ?_⟩
      simp [Payment.isCredited]
    have hwithin := hunclamped.reverse p e htaken he
    rw [Entry.gain_old _ rfl hp, hafter, hcredit] at hcredited
    rw [hcredited]
    unfold ChildEnrollment.restored
    simp only
    omega
  | @close _ k p e audit hp hcloses _ hunconfirmed he =>
    obtain ⟨rfl, rfl⟩ := Prod.mk.inj (Option.some.inj hk)
    have hafter : creditOn p.enrollmentId { p with status := .FAILED } = 0 :=
      creditOn_unconfirmed hunconfirmed
    rw [Entry.gain_old _ rfl hp, hafter, creditOn_unconfirmed hunconfirmed] at hcredited
    rw [hcredited, Int.sub_self, Int.add_zero]
    refine hcons ?_ e he
    rintro reference rfl
    exact hcloses
  | @credit action k p e date fee a _ hp htype hunconfirmed _ he =>
    obtain ⟨rfl, rfl⟩ := Prod.mk.inj (Option.some.inj hk)
    have hbefore := hcons (by simp) e he
    have hnonneg := (hs.payments _ _ hp).first htype
    have hafter : creditOn p.enrollmentId (p.paidOn date fee) = p.schoolAmount := by
      simp [creditOn, Payment.isCredited, Payment.paidOn, Payment.confirmedOn, Payment.worth, htype]
    rw [Entry.gain_old _ rfl hp, hafter, creditOn_unconfirmed hunconfirmed] at hcredited
    rw [hcredited]
    unfold ChildEnrollment.openedBy
    simp only
    omega
  | dispute => exact absurd rfl (hdispute _)
  | markDefaulted he | sweepDefaulted he =>
    obtain ⟨rfl, rfl⟩ := Prod.mk.inj (Option.some.inj hk)
    have hbefore := hcons (by simp) _ he
    rw [hcredited, Entry.gain_none _ rfl, Int.add_zero]
    exact hbefore
  | @openPlan reference k k' p e hnew ho hplan =>
    obtain ⟨rfl, rfl⟩ := Prod.mk.inj (Option.some.inj hk)
    have hfee := ho.fee
    rw [Entry.gain_new _ rfl ho.fresh, creditOn_unconfirmed ho.isConfirmed,
      hs.credited_none hnew] at hcredited
    rw [hcredited, ho.balance]
    omega
  | @reopenPlan reference k k' p e₀ e he hc ho hplan =>
    obtain ⟨rfl, rfl⟩ := Prod.mk.inj (Option.some.inj hk)
    have hfee := ho.fee
    have hzero := hunclamped.reopen k'
      ⟨⟨e₀, he⟩, k, p, ho.fresh, hm.payment_put rfl, ho.paymentType, hplan⟩
    rw [Entry.gain_new _ rfl ho.fresh, creditOn_unconfirmed ho.isConfirmed, hzero] at hcredited
    rw [hcredited, ho.balance]
    omega
  | submit hfresh _ _ _ hunconfirmed _ _ _ he =>
    obtain ⟨rfl, rfl⟩ := Prod.mk.inj (Option.some.inj hk)
    rw [Entry.gain_new _ rfl hfresh, creditOn_unconfirmed hunconfirmed, Int.add_zero] at hcredited
    rw [hcredited]
    exact hcons (by simp) _ he
  | @migrate k k' inviteId childId invite now a hfresh hnew hfee hpaid hle =>
    obtain ⟨rfl, rfl⟩ := Prod.mk.inj (Option.some.inj hk)
    have hafter : creditOn k' (Ledger.migratedPayment k' invite now) = invite.amountAlreadyPaid :=
      by simp [creditOn, Payment.isCredited, Ledger.migratedPayment, Payment.worth]
    rw [Entry.gain_new _ rfl hfresh, hafter, hs.credited_none hnew] at hcredited
    rw [hcredited]
    simp only [Ledger.migratedEnrollment, deriveMigratedPlan]
    omega
  | @amend k p e newAmount a hp htype hstatus hnew he hwithin =>
    obtain ⟨rfl, rfl⟩ := Prod.mk.inj (Option.some.inj hk)
    have hconfirmed := (hs.payments _ _ hp).confirmed.mpr hstatus
    have hcredit := creditOn_confirmed hstatus hconfirmed
    have hworth : p.worth = p.amountPaid := by simp [Payment.worth, htype]
    have hafter : creditOn p.enrollmentId
        { p with amountPaid := newAmount, schoolAmount := newAmount } = newAmount := by
      simp [creditOn, Payment.isCredited, Payment.worth, htype, hstatus, hconfirmed]
    rw [Entry.gain_old _ rfl hp, hafter, hcredit, hs.credited_migrated hp htype] at hcredited
    rw [hcredited]
    unfold ChildEnrollment.amended
    simp only
    omega
  | reject | releaseKey | storeAccessCode | aside => cases hk

theorem Posts.conserved (hs : Coherent s) (hcons : ∀ id, Conserved id s) {ws : List Write}
    (hunclamped : Unclamped s (store.applyAll ws s))
    (hdispute : ∀ reference, kind ≠ .dispute reference) (h : Posts (· = ·) kind s ws) (id : Id) :
    Conserved id (store.applyAll ws s) := by
  obtain ⟨entry, hposting, hmade⟩ := h
  intro e he
  rcases hmade.enrollment_cases he with hput | ⟨hold, hother⟩
  · refine hposting.conserved hs hunclamped ?_ hdispute hmade hput fun _ => hcons id
    rintro k p c before e - rfl - hbefore he
    rw [Option.some.inj (hbefore.symm.trans he)]
  · rw [hposting.credited_elsewhere hmade hother]
    exact hcons id e hold

/-- Run one after the other without disputes, the jobs keep every balance at what the
    confirmed payments leave open, as long as no plan with confirmed payments is opened
    again and nothing is taken back while more than the fee is confirmed. -/
theorem balance_conserved (hs : Serial store Job.program
      (fun j s ws => ¬ j.Disputes ∧ Unclamped s (store.applyAll ws s)) Opening s)
    {id : Id} {e : ChildEnrollment} (he : s.enrollments.lookup id = some e) :
    e.remainingBalance = max 0 (e.totalSchoolFee - credited id s) := by
  have hinv : Coherent s ∧ ∀ id, Conserved id s := by
    refine serial_invariant (I := fun s => Coherent s ∧ ∀ id, Conserved id s) (fun s h => h.1)
      ?_ ?_ hs
    · intro s hs
      refine ⟨hs.coherent, fun id e he => ?_⟩
      rw [hs.enrollments, AList.lookup_empty] at he
      cases he
    · rintro j kind s ws ⟨hdisputes, hunclamped⟩ hmay ⟨hcoh, hcons⟩ hposts
      have hstable : ∀ c, c = s → Stable c s := by
        rintro c rfl
        exact .refl c
      have hkind : ∀ reference, kind ≠ .dispute reference := by
        rintro reference rfl
        exact hdisputes (Job.may_dispute hmay)
      exact ⟨hposts.coherent hstable hcoh, hposts.conserved hcoh hcons hunclamped hkind⟩
  exact hinv.2 id e he

/-- A school confirms an installment and takes the confirmation back. -/
def withdrawnReceipt : List (Job × (Nat → Choice Answer)) :=
  [(.enrollChild (enrollment none) "parent", smoothly "a"),
   (.settleFirstPayment "a8" admin, smoothly "b"),
   (.submitInstallmentPayment "a6" 75000 parentUser none none, smoothly "x"),
   (.confirmPayment "x4" "school" owner, smoothly "c"),
   (.reversePayment "x4" "school" owner none, smoothly "d")]

theorem balance_conserved_withdrawnReceipt : ∃ s e,
    execSerial store Job.program
      (fun j s ws => decide (¬ j.Disputes ∧ Unclamped s (store.applyAll ws s)))
      withdrawnReceipt oneFamily = some s ∧ s.enrollments.lookup "a6" = some e ∧
    e.remainingBalance = max 0 (e.totalSchoolFee - credited "a6" s) := by
  have hruns : ((execSerial store Job.program
      (fun j s ws => decide (¬ j.Disputes ∧ Unclamped s (store.applyAll ws s)))
      withdrawnReceipt oneFamily).bind fun s => s.enrollments.lookup "a6").isSome = true := by
    decide +kernel
  obtain ⟨e, he⟩ := Option.isSome_iff_exists.mp hruns
  obtain ⟨s, hs, he⟩ := Option.bind_eq_some_iff.mp he
  refine ⟨s, e, hs, he, balance_conserved (Serial.of_exec (fun _ _ _ h => ?_)
    (.init oneFamily_opening) hs) he⟩
  exact of_decide_eq_true h

/-- A receipt `x4` is rejected and its money submitted once more as `y4`; then the school
    confirms both, which the clamp at zero absorbs, and takes `y4` back. -/
def receiptConfirmedTwice : List (Job × (Nat → Choice Answer)) :=
  [(.enrollChild (enrollment none) "parent", smoothly "a"),
   (.settleFirstPayment "a8" admin, smoothly "b"),
   (.submitInstallmentPayment "a6" 75000 parentUser none none, smoothly "x"),
   (.rejectPayment "x4" "school" owner, smoothly "c"),
   (.submitInstallmentPayment "a6" 75000 parentUser none none, smoothly "y"),
   (.confirmPayment "y4" "school" owner, smoothly "d"),
   (.confirmPayment "x4" "school" owner, smoothly "e"),
   (.reversePayment "y4" "school" owner none, smoothly "f")]

/-- The family then owes what `x4` covers: without the condition the law fails. -/
theorem balance_conserved_needs_condition :
    ¬ ∀ s, Serial store Job.program (fun j _ _ => ¬ j.Disputes) Opening s →
      ∀ id e, s.enrollments.lookup id = some e → e.paymentStatus ≠ .FAILED →
        e.remainingBalance = max 0 (e.totalSchoolFee - credited id s) := by
  intro hlaw
  have hruns : ((execSerial store Job.program (fun j _ _ => decide (¬ j.Disputes))
      receiptConfirmedTwice oneFamily).any fun s => (s.enrollments.lookup "a6").any fun e =>
        e.paymentStatus ≠ .FAILED ∧
          e.remainingBalance ≠ max 0 (e.totalSchoolFee - credited "a6" s)) = true := by
    decide +kernel
  obtain ⟨s, hs, hany⟩ := (Option.any_eq_true _ _).mp hruns
  obtain ⟨e, he, hcond⟩ := (Option.any_eq_true _ _).mp hany
  obtain ⟨hopen, hwrong⟩ := of_decide_eq_true hcond
  refine hwrong (hlaw s (Serial.of_exec (fun _ _ _ h => ?_) (.init oneFamily_opening) hs) _ e he
    hopen)
  exact of_decide_eq_true h

end Lopay
