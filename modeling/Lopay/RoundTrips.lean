import Lopay.Books.Alone
import Lopay.Corrections
import Lopay.Invites.Undoing

/-!
# A change and the change back

A reversal right after the confirmation puts the balance back where it was, and an amendment
back to the recorded amount does so too if the balance follows from the figures. The status
comes back unless the first of the two calls has cleared the balance: a plan is then COMPLETED
whatever it was before, and opens as ACTIVE.
-/

namespace Lopay

open Transactions

/-! ### Calls that end well -/

variable {α β : Type}

theorem Returns.of_can {m : Action α} {s : Db} (h : m.can store (fun _ _ => True) (.init s)) :
    ∃ a t, Returns m s a t := by
  obtain ⟨ch, a, ha, -⟩ := Prog.alone_of_can (smoothly "" 0) h
  exact ⟨a, _, ch, ha, rfl⟩

/-- What is left is what the method says, whatever is returned for it. -/
theorem Returns.leaves {m : Action α} {f : α → β} {s t : Db} {r : β} {P : Db → Prop}
    (h : Returns (f <$> m) s r t)
    (hm : m.alone store (fun _ => True) (fun _ y => P y.now) (.init s)) : P t := by
  have hmapped : (f <$> m).alone store (fun _ => True) (fun _ y => P y.now) (.init s) :=
    wp_map (fun _ _ h => h) hm
  obtain ⟨y, hy, rfl⟩ := h.post hmapped
  exact hy

theorem Returns.coherent {j : Job} {s t : Db} {r : Reply} (hs : Coherent s)
    (h : Returns j.action s r t) : Coherent t := by
  obtain ⟨ch, -, rfl⟩ := h
  refine Job.alone_invariant (I := Coherent) hs hs ?_ ch
  rintro kind s entry locks t hs - hposting hmade -
  refine hposting.coherent ?_ hs hmade
  rintro _ rfl
  exact .refl _

theorem createNotification_alone {I : Db → Prop} {s v : Db} {x : Context} {n : Notification}
    {ok : Unit → Context → Prop} (h : x.Inside store s v) (hok : ∀ y, y.Inside store s v → ok () y) :
    (createNotification n).alone store I ok x := by
  apply Routine.wp_bind
  apply Routine.alone_inside_ask h
  intro delivered y hy
  apply Routine.alone_throwIf
  exact fun _ => hok y hy

/-! ### Plans in any interleaving -/

/-- Nobody owes less than nothing, or anything on a plan that is COMPLETED. -/
structure ChildEnrollment.Sensible (e : ChildEnrollment) : Prop where
  nonneg : 0 ≤ e.remainingBalance
  completed : e.paymentStatus = .COMPLETED → e.remainingBalance = 0

namespace ChildEnrollment.Sensible

variable {e before : ChildEnrollment}

theorem of_status (hnonneg : 0 ≤ e.remainingBalance) (h : e.paymentStatus ≠ .COMPLETED) :
    e.Sensible :=
  ⟨hnonneg, fun hc => absurd hc h⟩

theorem paidDown (h : e.Sensible) {amount : Int} (hpos : 0 < amount) :
    (e.paidDown amount).Sensible := by
  unfold ChildEnrollment.paidDown
  split
  · exact ⟨le_refl 0, fun _ => rfl⟩
  · next hopen =>
    refine .of_status (by simp only; omega) fun hc => hopen ?_
    have := h.completed hc
    omega

theorem openedBy (amount : Int) : (e.openedBy amount).Sensible := by
  refine ⟨le_max_left _ _, fun hc => ?_⟩
  simp only [ChildEnrollment.openedBy] at hc ⊢
  split at hc
  · omega
  · cases hc

theorem restored (h : e.Sensible) (hfee : 0 < before.totalSchoolFee) {amount : Int}
    (hpos : 0 < amount) : (e.restored amount before).Sensible := by
  have := h.nonneg
  refine .of_status (by simp only [ChildEnrollment.restored]; omega) ?_
  simp only [ChildEnrollment.restored]
  split
  · exact nofun
  · assumption

theorem disputed (h : e.Sensible) (hfee : 0 < before.totalSchoolFee) :
    (e.disputed before).Sensible := by
  unfold ChildEnrollment.disputed
  split
  · exact .of_status hfee.le nofun
  · exact .of_status h.nonneg nofun

theorem amended {newAmount installmentsPaid : Int}
    (hwithin : 0 ≤ e.totalSchoolFee - newAmount - installmentsPaid) :
    (e.amended newAmount installmentsPaid).Sensible := by
  refine ⟨hwithin, fun hc => ?_⟩
  simp only [ChildEnrollment.amended, statusAfterMigratedAmendment] at hc ⊢
  split at hc
  · omega
  · split at hc
    · cases hc
    · contradiction

end ChildEnrollment.Sensible

theorem migratedEnrollment_sensible (inviteId childId : Id) (invite : EnrollmentInvite) :
    (Ledger.migratedEnrollment inviteId invite childId).Sensible := by
  refine ⟨le_max_left _ _, fun hc => ?_⟩
  simp only [Ledger.migratedEnrollment, deriveMigratedPlan] at hc ⊢
  split at hc
  · assumption
  · cases hc

/-- The plan a posting puts is sensible if the plans were. -/
theorem Posting.sensible {E : Db → Db → Prop} {s : Db} {kind : Kind} {entry : Entry}
    (hs : Coherent s) (hb : s.enrollments.Forall fun _ e => e.Sensible)
    (h : Posting E s kind entry) {k : Id} {e' : ChildEnrollment} (hk : entry.plan = some (k, e')) :
    e'.Sensible := by
  cases h with
  | confirm hp htype _ he =>
    obtain ⟨rfl, rfl⟩ := Prod.mk.inj (Option.some.inj hk)
    exact (hb _ _ he).paidDown ((hs.payments _ _ hp).installment htype).1
  | reverse hp htype _ _ he _ hcoh hbefore =>
    obtain ⟨rfl, rfl⟩ := Prod.mk.inj (Option.some.inj hk)
    exact (hb _ _ he).restored (hcoh.enrollments _ _ hbefore).fee
      ((hs.payments _ _ hp).installment htype).1
  | credit =>
    obtain ⟨rfl, rfl⟩ := Prod.mk.inj (Option.some.inj hk)
    exact .openedBy _
  | dispute _ _ _ _ he _ hcoh hbefore =>
    obtain ⟨rfl, rfl⟩ := Prod.mk.inj (Option.some.inj hk)
    exact (hb _ _ he).disputed (hcoh.enrollments _ _ hbefore).fee
  | close _ _ _ _ he | markDefaulted he | sweepDefaulted he =>
    obtain ⟨rfl, rfl⟩ := Prod.mk.inj (Option.some.inj hk)
    exact .of_status (hb _ _ he).nonneg nofun
  | openPlan _ ho | reopenPlan _ _ ho =>
    obtain ⟨rfl, rfl⟩ := Prod.mk.inj (Option.some.inj hk)
    refine .of_status ?_ ?_
    · rw [ho.balance]
      exact ho.fee.le
    · rw [ho.pending]
      exact nofun
  | submit _ _ _ _ _ _ _ _ he =>
    obtain ⟨rfl, rfl⟩ := Prod.mk.inj (Option.some.inj hk)
    exact hb _ _ he
  | migrate =>
    obtain ⟨rfl, rfl⟩ := Prod.mk.inj (Option.some.inj hk)
    exact migratedEnrollment_sensible _ _ _
  | amend _ _ _ _ _ hwithin =>
    obtain ⟨rfl, rfl⟩ := Prod.mk.inj (Option.some.inj hk)
    exact .amended hwithin
  | reject | releaseKey | storeAccessCode | aside => cases hk

theorem reach_sensible {t : Service} (ht : Sys.Reach store Job.program (fun _ _ _ => True) Opening t) :
    t.store.enrollments.Forall fun _ e => e.Sensible := by
  refine reach_invariant (I := fun s => s.enrollments.Forall fun _ e => e.Sensible) Moves.any
    (fun _ _ _ _ _ _ => trivial) (fun _ h => h.coherent) ?_ ?_ ht
  · intro s hs k e he
    rw [hs.enrollments, AList.lookup_empty] at he
    cases he
  · rintro t - - - - kind ws - - - - hcoh hb ⟨entry, hposting, hmade⟩ - k e he
    rcases hmade.enrollment_cases he with hput | ⟨hold, -⟩
    · exact hposting.sensible hcoh hb hput
    · exact hb k e hold

/-! ### An installment is confirmed and taken back -/

section Installment

variable {s : Db} {paymentId schoolId : Id} {p : Payment} {e : ChildEnrollment} {actor : AuditActor}
  {reason : Option String}

/-- The payment and its plan. -/
structure Stands (paymentId : Id) (p : Payment) (e : ChildEnrollment) (s : Db) : Prop where
  payment : s.payments.lookup paymentId = some p
  plan : s.enrollments.lookup p.enrollmentId = some e

/-- The row of a payment that was found. -/
theorem Stands.found (h : Stands paymentId p e s) {c : PaymentOfPlan → Bool}
    {payment : PaymentOfPlan} (hfound : (s.payment? paymentId).filter c = some payment) :
    payment.row = p :=
  Option.some.inj ((filter_eq_payment rfl hfound).symm.trans h.payment)

/-- The payment is updated, and its plan is not. -/
theorem Stands.updatePayments {I : Db → Prop} {v : Db} {x : Context} {filter : Payment → Bool}
    {data : Payment → Payment} {ok : Nat → Context → Prop} (h : Stands paymentId p e v)
    (hx : x.Inside store s v) (hdata : (data p).enrollmentId = p.enrollmentId)
    (hnone : ∀ y, y.Inside store s v → ok 0 y)
    (hsome : ∀ w y, y.Inside store s w → Stands paymentId (data p) e w → ok 1 y) :
    (Lopay.updatePayments paymentId filter data).alone store I ok x := by
  refine Invites.updatePayments_alone hx hnone fun q y hq hy => hsome _ y hy ⟨?_, ?_⟩
  · obtain rfl := Option.some.inj (h.payment.symm.trans hq)
    exact AList.lookup_insert _
  · rw [hdata]
    exact h.plan

theorem Stands.updateEnrollment {I : Db → Prop} {v : Db} {x : Context}
    {data : ChildEnrollment → ChildEnrollment} {ok : ChildEnrollment → Context → Prop}
    (h : Stands paymentId p e v) (hx : x.Inside store s v)
    (hok : ∀ w y, y.Inside store s w → Stands paymentId p (data e) w → ok (data e) y) :
    (Lopay.updateEnrollment p.enrollmentId data).alone store I ok x := by
  refine Invites.updateEnrollment_alone hx fun e' y he' hy => ?_
  obtain rfl := Option.some.inj (h.plan.symm.trans he')
  exact hok _ y hy ⟨h.payment, AList.lookup_insert _⟩

/-- A second update of the plan, made if need be. -/
theorem Stands.updateAgain {I : Db → Prop} {v : Db} {x : Context} {c : Prop} [Decidable c]
    {data : ChildEnrollment → ChildEnrollment} {ok : Unit → Context → Prop}
    (h : Stands paymentId p e v) (hx : x.Inside store s v)
    (hok : ∀ w y, y.Inside store s w → Stands paymentId p (if c then data e else e) w → ok () y) :
    (Routine.onlyIf c do
      let _ ← Lopay.updateEnrollment p.enrollmentId data).alone store I ok x := by
  refine Routine.wp_onlyIf (fun hc => ?_) fun hc => ?_
  · refine Routine.wp_bind (h.updateEnrollment hx fun w y hy hw => Routine.wp_pure (hok w y hy ?_))
    rw [if_pos hc]
    exact hw
  · refine hok v x hx ?_
    rw [if_neg hc]
    exact h

theorem confirmPayment_pays (h : Stands paymentId p e s) :
    (Ledger.confirmPayment paymentId schoolId actor).alone store (fun _ => True)
      (fun _ y => ∃ date, Stands paymentId (p.confirmedOn date) (e.paidDown p.amountPaid) y.now)
      (.init s) := by
  unfold Ledger.confirmPayment
  apply Routine.wp_bind
  apply Routine.alone_outside_query ⟨rfl, rfl⟩
  intro y hy
  apply Routine.wp_bind
  apply Routine.alone_orThrow
  intro payment hfound
  rw [h.found hfound]
  apply Routine.wp_bind
  apply Routine.alone_transaction hy.now
  intro y hy
  apply Routine.wp_bind
  apply Routine.alone_inside_ask hy
  intro now y hy
  apply Routine.wp_bind
  apply h.updatePayments hy rfl
  · intro y hy
    apply Routine.wp_bind
    apply Routine.alone_throwIf
    exact fun h => absurd rfl h
  intro v y hy hv
  apply Routine.wp_bind
  apply Routine.alone_throwIf
  intro _
  apply Routine.wp_bind
  apply Invites.alone_findOrThrow hy
  intro before y _ hy
  apply Routine.wp_bind
  apply hv.updateEnrollment hy
  intro v y hy hv
  apply Routine.wp_bind
  apply hv.updateAgain hy
  intro v y hy hv
  apply Routine.wp_bind
  apply Invites.alone_findOrThrow hy
  intro updatedPayment y _ hy
  apply Routine.wp_bind
  apply Invites.record_alone hy
  intro y hy
  apply Routine.wp_bind
  apply createNotification_alone hy
  intro y hy
  refine ⟨_, hy, trivial, fun u hu => ?_⟩
  apply Routine.wp_bind
  apply Routine.alone_outside_ask hu
  intro _ y hy
  apply Routine.wp_pure
  rw [hy.now]
  refine ⟨now, hv.payment, hv.plan.trans ?_⟩
  simp only [ChildEnrollment.paidDown, decide_eq_true_eq]

theorem reversePayment_restores (h : Stands paymentId p e s) :
    (Ledger.reversePayment paymentId schoolId actor reason).alone store (fun _ => True)
      (fun _ y => y.now.enrollments.lookup p.enrollmentId = some (e.restored p.amountPaid e))
      (.init s) := by
  unfold Ledger.reversePayment
  apply Routine.wp_bind
  apply Routine.alone_outside_query ⟨rfl, rfl⟩
  intro y hy
  apply Routine.wp_bind
  apply Routine.alone_orThrow
  intro payment hfound
  rw [h.found hfound]
  apply Routine.wp_bind
  apply Routine.alone_transaction hy.now
  intro y hy
  apply Routine.wp_bind
  apply h.updatePayments hy rfl
  · intro y hy
    apply Routine.wp_bind
    apply Routine.alone_throwIf
    exact fun h => absurd rfl h
  intro v y hy hv
  apply Routine.wp_bind
  apply Routine.alone_throwIf
  intro _
  apply Routine.wp_bind
  apply Invites.alone_findOrThrow hy
  intro before y hbefore hy
  obtain rfl := Option.some.inj (hv.plan.symm.trans hbefore)
  apply Routine.wp_bind
  apply hv.updateEnrollment hy
  intro v y hy hv
  apply Routine.wp_bind
  apply hv.updateAgain hy
  intro v y hy hv
  apply Routine.wp_bind
  apply Invites.alone_findOrThrow hy
  intro updatedPayment y _ hy
  apply Routine.wp_bind
  apply Invites.record_alone hy
  intro y hy
  apply Routine.wp_bind
  apply createNotification_alone hy
  intro y hy
  refine ⟨_, hy, trivial, fun u hu => ?_⟩
  apply Routine.wp_bind
  apply Routine.alone_outside_ask hu
  intro _ y hy
  apply Routine.wp_pure
  rw [hy.now]
  refine hv.plan.trans ?_
  simp only [ChildEnrollment.restored, decide_eq_true_eq]
  split
  · rfl
  · next hwithin => rw [min_eq_left (not_lt.mp hwithin)]

/-- A second update of a plan that is there, made if need be. -/
theorem At.can_updateAgain {ws : List Write} {x : Context} {c : Prop} [Decidable c] {id : Id}
    {data : ChildEnrollment → ChildEnrollment} {ok : Unit → Context → Prop} (h : At s (some ws) x)
    (he : (store.applyAll ws s).enrollments.lookup id = some e)
    (hok : ∀ w y, (∀ k, (store.applyAll (ws ++ w) s).payments.lookup k =
      (store.applyAll ws s).payments.lookup k) → At s (some (ws ++ w)) y → ok () y) :
    (Routine.onlyIf c do
      let _ ← Lopay.updateEnrollment id data).can store ok x := by
  by_cases hc : c
  · refine Routine.can_onlyIf hc (Routine.can_bind (h.can_updateEnrollment he fun y hy => ?_))
    refine Routine.can_pure (hok _ y (fun k => ?_) hy)
    rw [Store.applyAll_append]
    rfl
  · refine Routine.can_skip hc (hok [] x (fun k => ?_) ?_)
    · rw [List.append_nil]
    · rw [List.append_nil]
      exact h

/-- A school can confirm an installment of its own that it has not confirmed. -/
theorem confirmPayment_can (hs : Coherent s) (h : Stands paymentId p e s)
    (htype : p.paymentType = .INSTALLMENT) (hunconfirmed : p.isConfirmed = false) :
    (Ledger.confirmPayment paymentId p.schoolId actor).can store (fun _ _ => True) (.init s) := by
  obtain ⟨payment, hpayment⟩ := hs.payment?_isSome h.payment
  obtain ⟨-, hrow, -⟩ := Db.payment?_eq_some hpayment
  obtain rfl := Option.some.inj (h.payment.symm.trans hrow)
  unfold Ledger.confirmPayment
  refine Routine.can_bind ((At.init s).can_read fun y hy => ?_)
  refine Routine.can_bind (Routine.can_orThrow (a := payment) ?_ ?_)
  · simp [hpayment, hunconfirmed, htype]
  refine Routine.can_bind (hy.can_transaction fun y hy => ?_)
  refine Routine.can_bind (hy.can_ask (0 : Int) fun y hy => ?_)
  refine Routine.can_bind (hy.can_updatePayments h.payment (by simp [hunconfirmed, htype])
    fun y hy => ?_)
  refine Routine.can_bind (Routine.can_throwIf (by decide) ?_)
  refine Routine.can_bind (hy.can_findOrThrow h.plan fun y hy => ?_)
  refine Routine.can_bind (hy.can_updateEnrollment h.plan fun y hy => ?_)
  refine Routine.can_bind (hy.can_updateAgain (AList.lookup_insert _) fun w y hsame hy => ?_)
  have hthere := (hsame paymentId).trans (AList.lookup_insert _)
  refine Routine.can_bind (hy.can_findOrThrow hthere fun y hy => ?_)
  refine Routine.can_bind (hy.can_record fun y hy => ?_)
  refine Routine.can_bind (hy.can_createNotification fun y hy => ?_)
  refine Routine.can_pure ⟨_, hy, fun u hu => ?_⟩
  exact Routine.can_bind (hu.can_ask () fun y hy => Routine.can_pure trivial)

/-- A school can take a confirmation of its own back. -/
theorem reversePayment_can (hs : Coherent s) (h : Stands paymentId p e s)
    (htype : p.paymentType = .INSTALLMENT) (hconfirmed : p.isConfirmed = true)
    (hstatus : p.status = .SUCCESS) :
    (Ledger.reversePayment paymentId p.schoolId actor reason).can store (fun _ _ => True)
      (.init s) := by
  obtain ⟨payment, hpayment⟩ := hs.payment?_isSome h.payment
  obtain ⟨-, hrow, -⟩ := Db.payment?_eq_some hpayment
  obtain rfl := Option.some.inj (h.payment.symm.trans hrow)
  unfold Ledger.reversePayment
  refine Routine.can_bind ((At.init s).can_read fun y hy => ?_)
  refine Routine.can_bind (Routine.can_orThrow (a := payment) ?_ ?_)
  · simp [hpayment, hconfirmed, hstatus, htype]
  refine Routine.can_bind (hy.can_transaction fun y hy => ?_)
  refine Routine.can_bind (hy.can_updatePayments h.payment
    (by simp [hconfirmed, hstatus, htype]) fun y hy => ?_)
  refine Routine.can_bind (Routine.can_throwIf (by decide) ?_)
  refine Routine.can_bind (hy.can_findOrThrow h.plan fun y hy => ?_)
  refine Routine.can_bind (hy.can_updateEnrollment h.plan fun y hy => ?_)
  refine Routine.can_bind (hy.can_updateAgain (AList.lookup_insert _) fun w y hsame hy => ?_)
  have hthere := (hsame paymentId).trans (AList.lookup_insert _)
  refine Routine.can_bind (hy.can_findOrThrow hthere fun y hy => ?_)
  refine Routine.can_bind (hy.can_record fun y hy => ?_)
  refine Routine.can_bind (hy.can_createNotification fun y hy => ?_)
  refine Routine.can_pure ⟨_, hy, fun u hu => ?_⟩
  exact Routine.can_bind (hu.can_ask () fun y hy => Routine.can_pure trivial)

end Installment

/-! ### The migrated amount is amended and amended back -/

section Amendment

variable {s : Db} {enrollmentId k schoolId : Id} {p : Payment} {e : ChildEnrollment}
  {newAmount : Int} {actor : AuditActor} {reason : Option String}

/-- The plan with its migrated payment, which stands at `p.amountPaid`. -/
structure Migrated (enrollmentId k : Id) (p : Payment) (e : ChildEnrollment) (s : Db) : Prop where
  plan : s.enrollments.lookup enrollmentId = some e
  payment : s.payments.lookup k = some p
  on : p.enrollmentId = enrollmentId
  migrated : p.paymentType = .MIGRATED_PAYMENT
  standing : p.status = .SUCCESS

/-- The migrated payment at another amount. -/
def Payment.restated (p : Payment) (newAmount : Int) : Payment :=
  { p with amountPaid := newAmount, schoolAmount := newAmount }

/-- `t` is `s` with the migrated amount amended. -/
structure Restated (enrollmentId k : Id) (p : Payment) (e : ChildEnrollment) (newAmount : Int)
    (s t : Db) : Prop where
  migrated : Migrated enrollmentId k (p.restated newAmount)
    (e.amended newAmount (Ledger.installmentsConfirmed enrollmentId s)) t
  confirmed : Ledger.installmentsConfirmed enrollmentId t =
    Ledger.installmentsConfirmed enrollmentId s

theorem Restated.kin {v w : Db} (h : Restated enrollmentId k p e newAmount s v) (hvw : Kin v w) :
    Restated enrollmentId k p e newAmount s w := by
  obtain ⟨⟨hplan, hpayment, hon, htype, hstatus⟩, hconfirmed⟩ := h
  refine ⟨⟨?_, ?_, hon, htype, hstatus⟩, ?_⟩
  · rw [hvw.enrollments]
    exact hplan
  · rw [hvw.payments]
    exact hpayment
  · unfold Ledger.installmentsConfirmed Db.sumAmountPaid
    rw [hvw.payments]
    exact hconfirmed

/-- A migrated amount is not one of the installments. -/
theorem Migrated.confirmed (h : Migrated enrollmentId k p e s) {t : Db}
    (ht : t.payments = s.payments.insert k (p.restated newAmount)) :
    Ledger.installmentsConfirmed enrollmentId t = Ledger.installmentsConfirmed enrollmentId s := by
  unfold Ledger.installmentsConfirmed Db.sumAmountPaid
  rw [ht]
  apply Table.total_insert_same h.payment
  simp [Payment.restated, h.migrated]

/-- The two updates of an amendment. -/
theorem Migrated.restate (h : Migrated enrollmentId k p e s) (newAmount : Int) :
    Restated enrollmentId k p e newAmount s (Write.apply (.putEnrollment enrollmentId
      (e.amended newAmount (Ledger.installmentsConfirmed enrollmentId s)))
        (Write.apply (.putPayment k (p.restated newAmount)) s)) where
  migrated := ⟨AList.lookup_insert _, AList.lookup_insert _, h.on, h.migrated, h.standing⟩
  confirmed := h.confirmed rfl

theorem amendMigratedPayment_restates (hs : Coherent s) (h : Migrated enrollmentId k p e s) :
    (Ledger.amendMigratedPayment enrollmentId newAmount schoolId actor reason).alone store
      (fun _ => True) (fun _ y => Correctable enrollmentId newAmount e p s ∧
        Restated enrollmentId k p e newAmount s y.now) (.init s) := by
  unfold Ledger.amendMigratedPayment
  apply Routine.wp_bind
  apply Routine.alone_throwIf
  intro hnonneg
  apply Routine.wp_bind
  apply Routine.alone_outside_query ⟨rfl, rfl⟩
  intro y hy
  apply Routine.wp_bind
  apply Routine.alone_orThrow
  rintro ⟨plan, payments⟩ hfound
  obtain ⟨plan', hplan, hpair⟩ := Option.map_eq_some_iff.mp hfound
  obtain ⟨rfl, rfl⟩ := Prod.mk.inj hpair
  obtain rfl : plan'.row = e :=
    Option.some.inj ((Db.plan?_eq_some (filter_found rfl hplan).1).2.symm.trans h.plan)
  apply Routine.wp_bind
  apply Routine.alone_outside_ask hy
  intro order y hy
  apply Routine.wp_bind
  apply Routine.alone_orThrow
  rintro ⟨m, migrated⟩ hmigrated
  obtain ⟨rfl, rfl⟩ := Prod.mk.inj (Option.some.inj (hmigrated.symm.trans
    (hs.migrated_found h.payment h.on h.migrated h.standing order)))
  apply Routine.wp_bind
  apply Routine.alone_throwIf
  intro hfee
  apply Routine.wp_bind
  apply Routine.alone_throwIf
  intro hdiffers
  apply Routine.wp_bind
  apply Routine.alone_transaction hy.now
  intro y hy
  apply Routine.wp_bind
  apply Invites.lockEnrollment_alone hy
  intro y hy
  apply Routine.wp_bind
  apply Routine.alone_orThrow
  intro locked hlocked
  obtain rfl := Option.some.inj (hlocked.symm.trans h.plan)
  apply Routine.wp_bind
  apply Routine.alone_inside_query hy
  intro y hy
  apply Routine.wp_bind
  apply Routine.alone_throwIf
  intro hwithin
  apply Routine.wp_bind
  apply Invites.updatePayments_alone hy
  · intro y hy
    apply Routine.wp_bind
    apply Routine.alone_throwIf
    exact fun h => absurd rfl h
  intro q y hq hy
  obtain rfl := Option.some.inj (h.payment.symm.trans hq)
  apply Routine.wp_bind
  apply Routine.alone_throwIf
  intro _
  apply Routine.wp_bind
  apply Invites.updateEnrollment_alone hy
  intro e' y he' hy
  obtain rfl := Option.some.inj (h.plan.symm.trans he')
  apply Routine.wp_bind
  apply Invites.restateInvite_alone hy
  intro v y hy hkin
  apply Routine.wp_bind
  apply Invites.record_alone hy
  intro y hy
  have hC : Correctable enrollmentId newAmount plan'.row migrated s :=
    ⟨not_lt.mp hnonneg, not_lt.mp hfee, Ne.symm hdiffers, not_lt.mp hwithin⟩
  have hrestated (entry : AuditEntry) : Restated enrollmentId m migrated plan'.row newAmount s
      (Write.apply (.audit entry) v) :=
    ((h.restate newAmount).kin hkin).kin ⟨rfl, rfl, rfl, rfl⟩
  refine ⟨_, hy, trivial, fun u hu => ?_⟩
  have hhere : Restated enrollmentId m migrated plan'.row newAmount s u.now ∧
      Restated enrollmentId m migrated plan'.row newAmount s (u.view store) := by
    rw [hu.now, hu.view]
    exact ⟨hrestated _, hrestated _⟩
  refine Routine.wp_mono (fun _ _ hz => ⟨hC, hz.1⟩) (fun _ _ h => h) (kin_last ?_ hhere)
  exact fun _ _ h hkin => h.kin hkin

/-- The plan has the balance that its fee, the recorded amount and the installments that have
    been confirmed come to. -/
def InFigures (enrollmentId : Id) (p : Payment) (e : ChildEnrollment) (s : Db) : Prop :=
  e.remainingBalance =
    e.totalSchoolFee - p.amountPaid - Ledger.installmentsConfirmed enrollmentId s

/-- A plan in figures takes the recorded amount again after any amendment. -/
theorem Restated.correctable {t : Db} (hs : Coherent s) (he : e.Sensible)
    (h : Migrated enrollmentId k p e s) (hC : Correctable enrollmentId newAmount e p s)
    (hfigures : InFigures enrollmentId p e s)
    (hrestated : Restated enrollmentId k p e newAmount s t) :
    Correctable enrollmentId p.amountPaid
      (e.amended newAmount (Ledger.installmentsConfirmed enrollmentId s)) (p.restated newAmount)
      t := by
  have hpaid := hs.installmentsConfirmed_nonneg enrollmentId
  have hnonneg := ((hs.payments k p h.payment).migrated h.migrated).2.1
  have hbalance := he.nonneg
  rw [hfigures] at hbalance
  refine ⟨hnonneg, ?_, hC.2.2.1.symm, ?_⟩
  · simp only [ChildEnrollment.amended]
    omega
  · rw [hrestated.confirmed]
    exact hbalance

end Amendment

/-! ### There and back -/

namespace ChildEnrollment

variable {e : ChildEnrollment}

theorem paidDown_restored (he : e.Sensible) {amount : Int} (hpos : 0 < amount)
    (hle : amount ≤ e.remainingBalance) :
    (((e.paidDown amount).restored amount (e.paidDown amount)).remainingBalance =
      e.remainingBalance ↔ e.remainingBalance ≤ e.totalSchoolFee) ∧
    (((e.paidDown amount).restored amount (e.paidDown amount)).paymentStatus = e.paymentStatus ↔
      e.paymentStatus = .ACTIVE ∨ amount < e.remainingBalance) := by
  have hopen : e.paymentStatus ≠ .COMPLETED := fun hc => by
    have := he.completed hc
    omega
  unfold paidDown
  split
  · next hcleared =>
    have hsame : amount = e.remainingBalance := by omega
    subst hsame
    simp [restored, eq_comm]
  · next hleft =>
    have hlt : amount < e.remainingBalance := by omega
    simp [restored, hopen, hlt]

theorem amended_back {newAmount amount paid : Int} (he : e.Sensible) :
    (((e.amended newAmount paid).amended amount paid).remainingBalance = e.remainingBalance ↔
      e.remainingBalance = e.totalSchoolFee - amount - paid) ∧
    (e.remainingBalance = e.totalSchoolFee - amount - paid →
      (((e.amended newAmount paid).amended amount paid).paymentStatus = e.paymentStatus ↔
        e.paymentStatus = .COMPLETED ∨ e.remainingBalance ≠ 0 ∧
          (e.paymentStatus = .ACTIVE ∨ newAmount + paid < e.totalSchoolFee))) := by
  refine ⟨eq_comm, fun hfigures => ?_⟩
  have hnonneg := he.nonneg
  have hcompleted := he.completed
  simp only [amended, statusAfterMigratedAmendment, ← hfigures]
  by_cases hzero : e.remainingBalance = 0
  · simp [hzero, eq_comm]
  · have hopen : e.paymentStatus ≠ .COMPLETED := fun hc => hzero (hcompleted hc)
    have howed : ¬ e.remainingBalance ≤ 0 := by omega
    rw [if_neg howed]
    by_cases hcleared : e.totalSchoolFee - newAmount - paid ≤ 0
    · have hover : ¬ newAmount + paid < e.totalSchoolFee := by omega
      simp [hcleared, hover, hopen, hzero, eq_comm]
    · have hleft : newAmount + paid < e.totalSchoolFee := by omega
      simp [hcleared, hleft, hopen, hzero]

end ChildEnrollment

/-- A pending installment within the balance of its plan. -/
structure Payable (paymentId : Id) (p : Payment) (e : ChildEnrollment) (s : Db) : Prop
    extends Stands paymentId p e s where
  installment : p.paymentType = .INSTALLMENT
  pending : p.status = .PENDING
  within : p.amountPaid ≤ e.remainingBalance

section Calls

variable {s v w : Db} {paymentId schoolId schoolId' : Id} {p : Payment} {e : ChildEnrollment}
  {actor actor' : AuditActor} {reason reason' : Option String} {a b : Reply}

theorem Payable.unconfirmed (hs : Coherent s) (h : Payable paymentId p e s) :
    p.isConfirmed = false := by
  rw [← Bool.not_eq_true, (hs.payments _ _ h.payment).confirmed, h.pending]
  exact nofun

theorem Payable.confirmed (h : Payable paymentId p e s)
    (hconfirm : Returns (Job.confirmPayment paymentId schoolId actor).action s a v) :
    ∃ date, Stands paymentId (p.confirmedOn date) (e.paidDown p.amountPaid) v :=
  Returns.leaves (P := fun t => ∃ date,
    Stands paymentId (p.confirmedOn date) (e.paidDown p.amountPaid) t) hconfirm
    (confirmPayment_pays h.toStands)

/-- The school can do both. -/
theorem Payable.undone (hs : Coherent s) (h : Payable paymentId p e s) (actor actor' : AuditActor)
    (reason : Option String) : ∃ a v b w,
      Returns (Job.confirmPayment paymentId p.schoolId actor).action s a v ∧
      Returns (Job.reversePayment paymentId p.schoolId actor' reason).action v b w := by
  obtain ⟨a, v, hconfirm⟩ : ∃ a v,
      Returns (Job.confirmPayment paymentId p.schoolId actor).action s a v :=
    Returns.of_can (can_map (confirmPayment_can hs h.toStands h.installment (h.unconfirmed hs)))
  obtain ⟨date, hv⟩ := h.confirmed hconfirm
  obtain ⟨b, w, hreverse⟩ : ∃ b w,
      Returns (Job.reversePayment paymentId p.schoolId actor' reason).action v b w :=
    Returns.of_can (can_map (reversePayment_can (p := p.confirmedOn date) (hconfirm.coherent hs) hv
      h.installment rfl rfl))
  exact ⟨a, v, b, w, hconfirm, hreverse⟩

theorem Payable.restored (hs : Coherent s) (he : e.Sensible) (h : Payable paymentId p e s)
    (hconfirm : Returns (Job.confirmPayment paymentId schoolId actor).action s a v)
    (hreverse : Returns (Job.reversePayment paymentId schoolId' actor' reason).action v b w) :
    ∃ e', w.enrollments.lookup p.enrollmentId = some e' ∧
      (e'.remainingBalance = e.remainingBalance ↔ e.remainingBalance ≤ e.totalSchoolFee) ∧
      (e'.paymentStatus = e.paymentStatus ↔
        e.paymentStatus = .ACTIVE ∨ p.amountPaid < e.remainingBalance) := by
  obtain ⟨date, hv⟩ := h.confirmed hconfirm
  have hw := Returns.leaves (P := fun t => t.enrollments.lookup p.enrollmentId =
    some ((e.paidDown p.amountPaid).restored p.amountPaid (e.paidDown p.amountPaid))) hreverse
    (reversePayment_restores (p := p.confirmedOn date) hv)
  refine ⟨_, hw, ChildEnrollment.paidDown_restored he ?_ h.within⟩
  exact ((hs.payments _ _ h.payment).installment h.installment).1

variable {enrollmentId k : Id} {newAmount : Int}

theorem Migrated.amended (hs : Coherent s) (h : Migrated enrollmentId k p e s)
    (hamend : Returns (Job.amendMigratedPayment enrollmentId newAmount schoolId actor reason).action
      s a v) :
    Correctable enrollmentId newAmount e p s ∧ Restated enrollmentId k p e newAmount s v :=
  Returns.leaves (P := fun t => Correctable enrollmentId newAmount e p s ∧
    Restated enrollmentId k p e newAmount s t) hamend (amendMigratedPayment_restates hs h)

/-- Unless a statement fails, a plan in figures can be amended back. -/
theorem Migrated.amends_back (hs : Coherent s) (he : e.Sensible)
    (h : Migrated enrollmentId k p e s)
    (hamend : Returns (Job.amendMigratedPayment enrollmentId newAmount schoolId actor reason).action
      s a v) (hfigures : InFigures enrollmentId p e s) {ch : Nat → Choice Answer}
    (hch : ∀ n, (ch n).fault = false) :
    ∃ b, ((Job.amendMigratedPayment enrollmentId p.amountPaid e.schoolId actor'
      reason').program.alone store ch (.init v)).1 = .ok b := by
  obtain ⟨hC, hrestated⟩ := h.amended hs hamend
  have hcorrectable := hrestated.correctable hs he h hC hfigures
  obtain ⟨hplan, hpayment, hon, htype, hstatus⟩ := hrestated.migrated
  have hsmooth : (Ledger.amendMigratedPayment enrollmentId p.amountPaid e.schoolId actor'
      reason').smooth store (fun _ _ => True) (fun _ _ => False) (.init v) :=
    Routine.wp_mono (fun _ _ _ => trivial) (fun _ _ hnot => hnot hcorrectable)
      (amendMigratedPayment_smooth (hamend.coherent hs) hplan rfl hpayment hon htype hstatus)
  have hjob : (Job.amendMigratedPayment enrollmentId p.amountPaid e.schoolId actor'
      reason').action.smooth store (fun _ _ => True) (fun _ _ => False) (.init v) :=
    wp_map (fun _ _ _ => trivial) hsmooth
  have hends := Prog.alone_undisturbed hch hjob
  generalize hr : (Job.program _).alone store ch (.init v) = r
  rw [Job.program] at hr
  rw [hr] at hends
  obtain ⟨_ | b, y⟩ := r
  · exact hends.elim
  · exact ⟨b, rfl⟩

theorem Migrated.restored (hs : Coherent s) (he : e.Sensible) (h : Migrated enrollmentId k p e s)
    (hamend : Returns (Job.amendMigratedPayment enrollmentId newAmount schoolId actor reason).action
      s a v)
    (hback : Returns (Job.amendMigratedPayment enrollmentId p.amountPaid schoolId' actor'
      reason').action v b w) :
    ∃ e', w.enrollments.lookup enrollmentId = some e' ∧
      (e'.remainingBalance = e.remainingBalance ↔ InFigures enrollmentId p e s) ∧
      (InFigures enrollmentId p e s → (e'.paymentStatus = e.paymentStatus ↔
        e.paymentStatus = .COMPLETED ∨ e.remainingBalance ≠ 0 ∧ (e.paymentStatus = .ACTIVE ∨
          newAmount + Ledger.installmentsConfirmed enrollmentId s < e.totalSchoolFee))) := by
  obtain ⟨-, hv⟩ := h.amended hs hamend
  obtain ⟨-, hw⟩ := hv.migrated.amended (hamend.coherent hs) hback
  refine ⟨_, hw.migrated.plan, ?_⟩
  rw [hv.confirmed]
  exact ChildEnrollment.amended_back he

end Calls

/-- Confirming an installment and taking it back restores the balance of any plan that does not
    owe more than its fee, and the status unless the confirmation has cleared a plan that was not
    ACTIVE. Amending the migrated amount and amending it back restores the balance of a plan in
    figures, and its status likewise. Run one after the other, the jobs let no plan owe more than
    its fee. -/
theorem undo_restores :
    (∀ (t : Service) (paymentId : Id) (p : Payment) (e : ChildEnrollment),
      Sys.Reach store Job.program (fun _ _ _ => True) Opening t → Payable paymentId p e t.store →
      (∀ actor actor' reason, ∃ a v b w,
        Returns (Job.confirmPayment paymentId p.schoolId actor).action t.store a v ∧
        Returns (Job.reversePayment paymentId p.schoolId actor' reason).action v b w) ∧
      ∀ schoolId schoolId' actor actor' reason a v b w,
        Returns (Job.confirmPayment paymentId schoolId actor).action t.store a v →
        Returns (Job.reversePayment paymentId schoolId' actor' reason).action v b w →
        ∃ e', w.enrollments.lookup p.enrollmentId = some e' ∧
          (e'.remainingBalance = e.remainingBalance ↔ e.remainingBalance ≤ e.totalSchoolFee) ∧
          (e'.paymentStatus = e.paymentStatus ↔
            e.paymentStatus = .ACTIVE ∨ p.amountPaid < e.remainingBalance)) ∧
    (∀ (t : Service) (enrollmentId k : Id) (p : Payment) (e : ChildEnrollment),
      Sys.Reach store Job.program (fun _ _ _ => True) Opening t →
      Migrated enrollmentId k p e t.store → ∀ newAmount schoolId actor reason a v,
      Returns (Job.amendMigratedPayment enrollmentId newAmount schoolId actor reason).action
        t.store a v →
      (InFigures enrollmentId p e t.store → ∀ actor' reason' ch, (∀ n, (ch n).fault = false) →
        ∃ b, ((Job.amendMigratedPayment enrollmentId p.amountPaid e.schoolId actor'
          reason').program.alone store ch (.init v)).1 = .ok b) ∧
      ∀ schoolId' actor' reason' b w,
        Returns (Job.amendMigratedPayment enrollmentId p.amountPaid schoolId' actor'
          reason').action v b w →
        ∃ e', w.enrollments.lookup enrollmentId = some e' ∧
          (e'.remainingBalance = e.remainingBalance ↔ InFigures enrollmentId p e t.store) ∧
          (InFigures enrollmentId p e t.store → (e'.paymentStatus = e.paymentStatus ↔
            e.paymentStatus = .COMPLETED ∨ e.remainingBalance ≠ 0 ∧ (e.paymentStatus = .ACTIVE ∨
              newAmount + Ledger.installmentsConfirmed enrollmentId t.store <
                e.totalSchoolFee)))) ∧
    ∀ (s : Db) (enrollmentId : Id) (e : ChildEnrollment),
      Serial store Job.program (fun _ _ _ => True) Opening s →
      s.enrollments.lookup enrollmentId = some e → e.remainingBalance ≤ e.totalSchoolFee := by
  refine ⟨?_, ?_, ?_⟩
  · intro t paymentId p e ht h
    have hs : Coherent t.store := reach_coherent (fun _ h => h.coherent) ht
    refine ⟨h.undone hs, fun schoolId schoolId' actor actor' reason a v b w hconfirm hreverse => ?_⟩
    exact h.restored hs (reach_sensible ht _ e h.plan) hconfirm hreverse
  · intro t enrollmentId k p e ht h newAmount schoolId actor reason a v hamend
    have hs : Coherent t.store := reach_coherent (fun _ h => h.coherent) ht
    have he := reach_sensible ht _ e h.plan
    exact ⟨fun hfigures _ _ _ hch => h.amends_back hs he hamend hfigures hch,
      fun _ _ _ _ _ hback => h.restored hs he hamend hback⟩
  · exact fun s enrollmentId e hs he => (serial_balanced hs enrollmentId e he).le_fee

/-- The job by itself, if it ends well. -/
def ended (j : Job) (seed : String) (s : Db) : Option Db :=
  let r := j.program.alone store (smoothly seed) (.init s)
  if r.1.isOk then some r.2.now else none

theorem returns_of_ended {j : Job} {seed : String} {s v : Db} (h : ended j seed s = some v) :
    ∃ a, Returns j.action s a v := by
  simp only [ended, Option.ite_none_right_eq_some, Option.some.injEq] at h
  obtain ⟨hok, rfl⟩ := h
  exact Returns.of_run hok

/-- A run, one job right after it, and another right after that. -/
def thereAndBack (es : List (Event Job Answer)) (j j' : Job) (found : Db → Db → Bool) : Bool :=
  (Sys.exec store Job.program (fun _ _ _ => true) es (.init oneFamily)).any fun t =>
    (ended j "j" t.store).any fun v => (ended j' "k" v).any fun w => found t.store w

theorem of_thereAndBack (es : List (Event Job Answer)) {j j' : Job} {found : Db → Db → Bool}
    (h : thereAndBack es j j' found = true) : ∃ (t : Service) (v w : Db) (a b : Reply),
      Sys.Reach store Job.program (fun _ _ _ => True) Opening t ∧
      Returns j.action t.store a v ∧ Returns j'.action v b w ∧ found t.store w = true := by
  obtain ⟨t, ht, hany⟩ := (Option.any_eq_true _ _).mp h
  obtain ⟨v, hv, hany⟩ := (Option.any_eq_true _ _).mp hany
  obtain ⟨w, hw, hfound⟩ := (Option.any_eq_true _ _).mp hany
  obtain ⟨a, hj⟩ := returns_of_ended hv
  obtain ⟨b, hj'⟩ := returns_of_ended hw
  exact ⟨t, v, w, a, b, Sys.reach_of_exec (fun _ _ _ _ => trivial) (.init oneFamily_opening) ht, hj,
    hj', hfound⟩

/-- The plan `a6` owes 75000 naira, and the parent says that the installment `x4` is paid. -/
def installmentPending (amount : Rat) : List (Event Job Answer) :=
  uninterrupted 0 (.enrollChild (enrollment none) "parent") "a" 18 ++
  uninterrupted 1 (.settleFirstPayment "a8" admin) "b" 12 ++
  uninterrupted 2 (.submitInstallmentPayment "a6" amount parentUser none none) "x" 10

def confirmPending : Job := .confirmPayment "x4" "school" owner

def reversePending : Job := .reversePayment "x4" "school" owner none

/-- The plan has the installment `x4` pending, and the status `status` and `status'` before and
    after. -/
def foundPending (status status' : PaymentStatus) (s w : Db) : Bool :=
  (s.payments.lookup "x4").any fun p => (s.enrollments.lookup p.enrollmentId).any fun e =>
    (w.enrollments.lookup p.enrollmentId).any fun e' => p.paymentType = .INSTALLMENT ∧
      p.status = .PENDING ∧ p.amountPaid ≤ e.remainingBalance ∧
      e.remainingBalance ≤ e.totalSchoolFee ∧ e.paymentStatus = status ∧ e'.paymentStatus = status'

theorem of_foundPending {status status' : PaymentStatus} {s w : Db}
    (h : foundPending status status' s w = true) : ∃ p e e', Payable "x4" p e s ∧
      e.remainingBalance ≤ e.totalSchoolFee ∧ e.paymentStatus = status ∧
      w.enrollments.lookup p.enrollmentId = some e' ∧ e'.paymentStatus = status' := by
  obtain ⟨p, hp, hany⟩ := (Option.any_eq_true _ _).mp h
  obtain ⟨e, he, hany⟩ := (Option.any_eq_true _ _).mp hany
  obtain ⟨e', he', hcond⟩ := (Option.any_eq_true _ _).mp hany
  obtain ⟨htype, hpending, hwithin, hfee, hstatus, hstatus'⟩ := of_decide_eq_true hcond
  exact ⟨p, e, e', ⟨⟨hp, he⟩, htype, hpending, hwithin⟩, hfee, hstatus, he', hstatus'⟩

/-- The migrated plan `m1` is in figures, and has these statuses before and after. -/
def foundMigrated (status status' : PaymentStatus) (s w : Db) : Bool :=
  (s.payments.lookup "m3").any fun p => (s.enrollments.lookup "m1").any fun e =>
    (w.enrollments.lookup "m1").any fun e' => p.enrollmentId = "m1" ∧
      p.paymentType = .MIGRATED_PAYMENT ∧ p.status = .SUCCESS ∧ p.amountPaid = 4000000 ∧
      e.remainingBalance = e.totalSchoolFee - p.amountPaid -
        Ledger.installmentsConfirmed "m1" s ∧ e.remainingBalance ≠ 0 ∧
      e.paymentStatus = status ∧ e'.paymentStatus = status'

theorem of_foundMigrated {status status' : PaymentStatus} {s w : Db}
    (h : foundMigrated status status' s w = true) : ∃ p e e', Migrated "m1" "m3" p e s ∧
      p.amountPaid = 4000000 ∧ InFigures "m1" p e s ∧ e.remainingBalance ≠ 0 ∧
      e.paymentStatus = status ∧
      w.enrollments.lookup "m1" = some e' ∧ e'.paymentStatus = status' := by
  obtain ⟨p, hp, hany⟩ := (Option.any_eq_true _ _).mp h
  obtain ⟨e, he, hany⟩ := (Option.any_eq_true _ _).mp hany
  obtain ⟨e', he', hcond⟩ := (Option.any_eq_true _ _).mp hany
  obtain ⟨hon, htype, hsuccess, hamount, hfigures, howed, hstatus, hstatus'⟩ :=
    of_decide_eq_true hcond
  exact ⟨p, e, e', ⟨he, hp, hon, htype, hsuccess⟩, hamount, hfigures, howed, hstatus, he',
    hstatus'⟩

/-- Both pairs of calls on an ACTIVE plan. -/
theorem undo_restores_active : ∃ (t u : Service) (v w v' w' : Db) (a b a' b' : Reply)
    (p p' : Payment) (e e' f f' : ChildEnrollment), Payable "x4" p e t.store ∧
    Returns confirmPending.action t.store a v ∧ Returns reversePending.action v b w ∧
    w.enrollments.lookup p.enrollmentId = some e' ∧ e'.remainingBalance = e.remainingBalance ∧
    e'.paymentStatus = e.paymentStatus ∧ Migrated "m1" "m3" p' f u.store ∧
    Returns (correctionTo 10000000).action u.store a' v' ∧
    Returns (correctionTo 4000000).action v' b' w' ∧ w'.enrollments.lookup "m1" = some f' ∧
    f'.remainingBalance = f.remainingBalance ∧ f'.paymentStatus = f.paymentStatus := by
  obtain ⟨t, v, w, a, b, ht, hconfirm, hreverse, hfound⟩ : ∃ (t : Service) (v w : Db) (a b : Reply),
      Sys.Reach store Job.program (fun _ _ _ => True) Opening t ∧
      Returns confirmPending.action t.store a v ∧ Returns reversePending.action v b w ∧
      foundPending .ACTIVE .ACTIVE t.store w = true :=
    of_thereAndBack (installmentPending 75000) (by decide +kernel)
  obtain ⟨p, e, -, hpayable, hfee, hactive, -⟩ := of_foundPending hfound
  obtain ⟨e', he', hbalance, hstatus⟩ := (undo_restores.1 t "x4" p e ht hpayable).2 _ _ _ _ _ a v b w
    hconfirm hreverse
  obtain ⟨u, v', w', a', b', hu, hamend, hback, hfound⟩ :
      ∃ (t : Service) (v w : Db) (a b : Reply),
        Sys.Reach store Job.program (fun _ _ _ => True) Opening t ∧
        Returns (correctionTo 10000000).action t.store a v ∧
        Returns (correctionTo 4000000).action v b w ∧
        foundMigrated .ACTIVE .ACTIVE t.store w = true :=
    of_thereAndBack migratedPlanOpen (by decide +kernel)
  obtain ⟨p', f, -, hmigrated, hamount, hfigures, howed, hactive', -⟩ := of_foundMigrated hfound
  have hrecorded : Returns (Job.amendMigratedPayment "m1" p'.amountPaid "school" owner
      none).action v' b' w' := by
    rw [hamount]
    exact hback
  obtain ⟨f', hf', hbalance', hstatus'⟩ := (undo_restores.2.1 u "m1" "m3" p' f hu hmigrated
    10000000 "school" owner none a' v' hamend).2 _ _ _ b' w' hrecorded
  exact ⟨t, u, v, w, v', w', a, b, a', b', p, p', e, e', f, f', hpayable, hconfirm, hreverse, he',
    hbalance.mpr hfee, hstatus.mpr (Or.inl hactive), hmigrated, hamend, hback, hf',
    hbalance'.mpr hfigures, (hstatus' hfigures).mpr (Or.inr ⟨howed, Or.inl hactive'⟩)⟩

/-- A plan that was DEFAULTED is ACTIVE after either pair of calls that clears it in between. -/
theorem undo_restores_needs_active :
    (¬ ∀ (t : Service) (paymentId : Id) (p : Payment) (e : ChildEnrollment)
      schoolId schoolId' actor actor' reason a v b w,
      Sys.Reach store Job.program (fun _ _ _ => True) Opening t → Payable paymentId p e t.store →
      Returns (Job.confirmPayment paymentId schoolId actor).action t.store a v →
      Returns (Job.reversePayment paymentId schoolId' actor' reason).action v b w →
      ∃ e', w.enrollments.lookup p.enrollmentId = some e' ∧
        e'.remainingBalance = e.remainingBalance ∧ e'.paymentStatus = e.paymentStatus) ∧
    ¬ ∀ (t : Service) (enrollmentId k : Id) (p : Payment) (e : ChildEnrollment)
      newAmount schoolId schoolId' actor actor' reason reason' a v b w,
      Sys.Reach store Job.program (fun _ _ _ => True) Opening t →
      Migrated enrollmentId k p e t.store →
      Returns (Job.amendMigratedPayment enrollmentId newAmount schoolId actor reason).action
        t.store a v →
      Returns (Job.amendMigratedPayment enrollmentId p.amountPaid schoolId' actor' reason').action
        v b w →
      ∃ e', w.enrollments.lookup enrollmentId = some e' ∧
        e'.remainingBalance = e.remainingBalance ∧ e'.paymentStatus = e.paymentStatus := by
  constructor
  · intro hlaw
    obtain ⟨t, v, w, a, b, ht, hconfirm, hreverse, hfound⟩ :
        ∃ (t : Service) (v w : Db) (a b : Reply),
          Sys.Reach store Job.program (fun _ _ _ => True) Opening t ∧
          Returns confirmPending.action t.store a v ∧ Returns reversePending.action v b w ∧
          foundPending .DEFAULTED .ACTIVE t.store w = true :=
      of_thereAndBack (installmentPending 75000 ++
        uninterrupted 3 (.markEnrollmentAsDefaulted "a6" "school" owner) "m" 7) (by decide +kernel)
    obtain ⟨p, e, e', hpayable, -, hdefaulted, he', hactive⟩ := of_foundPending hfound
    obtain ⟨e'', he'', -, hsame⟩ := hlaw t "x4" p e _ _ _ _ _ a v b w ht hpayable hconfirm hreverse
    obtain rfl := Option.some.inj (he'.symm.trans he'')
    rw [hdefaulted, hactive] at hsame
    cases hsame
  · intro hlaw
    obtain ⟨t, v, w, a, b, ht, hamend, hback, hfound⟩ : ∃ (t : Service) (v w : Db) (a b : Reply),
        Sys.Reach store Job.program (fun _ _ _ => True) Opening t ∧
        Returns (correctionTo 10000000).action t.store a v ∧
        Returns (correctionTo 4000000).action v b w ∧
        foundMigrated .DEFAULTED .ACTIVE t.store w = true :=
      of_thereAndBack (migratedPlanOpen ++
        uninterrupted 1 (.markEnrollmentAsDefaulted "m1" "school" owner) "n" 7) (by decide +kernel)
    obtain ⟨p, e, e', hmigrated, hamount, -, -, hdefaulted, he', hactive⟩ := of_foundMigrated hfound
    have hrecorded : Returns (Job.amendMigratedPayment "m1" p.amountPaid "school" owner
        none).action v b w := by
      rw [hamount]
      exact hback
    obtain ⟨e'', he'', -, hsame⟩ := hlaw t "m1" "m3" p e _ _ _ _ _ _ _ a v b w ht hmigrated hamend
      hrecorded
    obtain rfl := Option.some.inj (he'.symm.trans he'')
    rw [hdefaulted, hactive] at hsame
    cases hsame

end Lopay
