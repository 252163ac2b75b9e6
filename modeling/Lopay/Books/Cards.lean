import Lopay.Books.Posting
import Lopay.Books.Smooth
import Lopay.Ledger.Paystack

/-!
# Card payments that nothing disturbs

What `reconcilePaystackPayment` and `reversePaystackPaymentByDispute` leave when they run by
themselves and find the payment as they want it: one commit, and then messages that may fail
but change nothing.
-/

namespace Lopay

open Transactions

section Cards

variable {s t t' v : Db} {x : Context} {reference : String} {payment : PaymentOfPlan}

theorem updatePayments_missed (h : x.On store s (some v)) {id : Id} {filter : Payment → Bool}
    {data : Payment → Payment} {ok : Nat → Context → Prop} {err : Err → Context → Prop} {p : Payment}
    (hp : v.payments.lookup id = some p) (hfilter : filter p = false)
    (hok : ∀ y, y.On store s (some v) → ok 0 y) :
    (updatePayments id filter data).smooth store ok err x := by
  refine statement_smooth h 0 [] ?_ hok
  simp [hp, hfilter]

theorem announceCardPayment_smooth (hx : x.On store t none) {credited : Ledger.Credited}
    {ok : Unit → Context → Prop} {err : Err → Context → Prop}
    (hok : ∀ y, y.On store t none → ok () y) (herr : ∀ e y, y.On store t none → err e y) :
    (Ledger.announceCardPayment payment credited).smooth store ok err x := by
  unfold Ledger.announceCardPayment
  refine Routine.wp_bind (createNotification_smooth hx (fun y hy => ?_) herr)
  refine Routine.wp_bind (Routine.wp_onlyIf (fun _ => ?_) fun _ => emitChanges_smooth hy hok)
  exact createNotification_smooth hy (fun z hz => emitChanges_smooth hz hok) herr

/-- What a reconcile writes for an open payment. -/
def captureWrites (payment : PaymentOfPlan) (fee : Option Int) (now : Int) (entry : AuditEntry) :
    List Write :=
  [.putPayment payment.id { payment.row with
      status := .SUCCESS
      isConfirmed := true
      actualPaystackFee := fee
      paymentDate := now },
    .putEnrollment payment.plan.id { payment.plan.row with
      remainingBalance := payment.plan.row.remainingBalance - payment.row.schoolAmount },
    .putEnrollment payment.plan.id (payment.plan.row.openedBy payment.row.schoolAmount),
    .audit entry]

theorem reconcilePaystackPayment_captures (hx : x.On store t none)
    (hfound : t.paymentByReference? reference = some payment)
    (hpending : payment.row.status = .PENDING) {fee : Option Int} {actor : Option AuditActor}
    {Q : Context → Prop} (h : ∀ now entry y,
      y.On store (store.applyAll (captureWrites payment fee now entry) t) none → Q y) :
    (Ledger.reconcilePaystackPayment reference fee actor).smooth store
      (fun _ => Q) (fun _ => Q) x := by
  rcases Db.paymentByReference?_eq_some hfound with ⟨hrow, -, hid, hplan⟩
  rw [← hid] at hplan
  unfold Ledger.reconcilePaystackPayment
  refine Routine.wp_bind (Routine.smooth_query hx fun y hy => ?_)
  simp only [Option.getD_none, hfound]
  rw [if_neg (by simp [hpending]), if_neg (not_not_intro hpending)]
  refine Routine.wp_bind (Routine.smooth_transaction hy fun z hz => ?_)
  refine Routine.wp_bind (Routine.smooth_ask hz fun now z hz => ?_)
  refine Routine.wp_bind (updatePayments_smooth hz hrow (decide_eq_true hpending) fun u hu => ?_)
  rw [if_neg (by decide)]
  unfold Ledger.creditCardPayment Ledger.creditFirstPaymentToBalance
  refine Routine.wp_bind (Routine.wp_bind (Routine.wp_bind
    (updateEnrollment_smooth hu hplan fun w hw => ?_)))
  refine Routine.wp_bind (updateEnrollment_smooth hw (AList.lookup_insert _) fun w hw => ?_)
  refine Routine.wp_pure (Routine.wp_bind (statement_smooth hw () _ rfl fun w hw => ?_))
  simp only [decide_eq_true_eq] at hw
  have hwritten : ∃ entry, w.On store t
      (some (store.applyAll (captureWrites payment fee now entry) t)) := ⟨_, hw⟩
  rcases hwritten with ⟨entry, hwritten⟩
  refine Routine.wp_pure (Routine.wp_pure ⟨_, hwritten, fun v hv => ?_⟩)
  exact Routine.wp_bind (announceCardPayment_smooth hv (fun y hy => h _ _ y hy)
    fun _ y hy => h _ _ y hy)

/-- The payment has been taken back and its plan with it, and nothing has been logged. -/
structure Retracts (payment : PaymentOfPlan) (t t' : Db) : Prop where
  payments : t'.payments =
    t.payments.insert payment.id { payment.row with status := .FAILED, isConfirmed := false }
  enrollments : t'.enrollments =
    t.enrollments.insert payment.plan.id (payment.plan.row.disputed payment.plan.row)
  webhookEvents : t'.webhookEvents = t.webhookEvents

namespace Retracts

theorem audit (h : Retracts payment t t') (entry : AuditEntry) :
    Retracts payment t (store.applyAll [.audit entry] t') :=
  ⟨h.payments, h.enrollments, h.webhookEvents⟩

theorem notification (h : Retracts payment t t') (n : Notification) :
    Retracts payment t (store.applyAll [.notification n] t') :=
  ⟨h.payments, h.enrollments, h.webhookEvents⟩

end Retracts

theorem reversePaystackPaymentByDispute_takes (hx : x.On store t none)
    (hfound : t.paymentByReference? reference = some payment)
    (hsuccess : payment.row.status = .SUCCESS) {eventType : String} {Q : Context → Prop}
    (h : ∀ t' y, Retracts payment t t' → y.On store t' none → Q y) :
    (Ledger.reversePaystackPaymentByDispute reference eventType).smooth store
      (fun _ => Q) (fun _ => Q) x := by
  rcases Db.paymentByReference?_eq_some hfound with ⟨hrow, -, hid, hplan⟩
  rw [← hid] at hplan
  unfold Ledger.reversePaystackPaymentByDispute
  refine Routine.wp_bind (Routine.smooth_query hx fun y hy => ?_)
  rw [Option.getD_none, hfound, Option.filter_some, if_pos (by simp [hsuccess])]
  refine Routine.wp_bind (Routine.smooth_transaction hy fun z hz => ?_)
  refine Routine.wp_bind (updatePayments_smooth hz hrow (decide_eq_true hsuccess) fun u hu => ?_)
  rw [if_neg (by decide)]
  refine Routine.wp_bind (updateEnrollment_smooth hu hplan fun w hw => ?_)
  simp only [decide_eq_true_eq] at hw
  have hflipped : ∃ t', w.On store t (some t') ∧ Retracts payment t t' := ⟨_, hw, rfl, rfl, rfl⟩
  rcases hflipped with ⟨t₁, hw, htaken⟩
  refine Routine.wp_bind (statement_smooth hw () _ rfl fun w hw => ?_)
  refine Routine.wp_bind (statement_smooth hw () _ rfl fun w hw => ?_)
  have htold : ∃ t', w.On store t (some t') ∧ Retracts payment t t' :=
    ⟨_, hw, (htaken.audit _).notification _⟩
  rcases htold with ⟨t₂, hw, htold⟩
  refine Routine.wp_bind (Routine.wp_onlyIf (fun _ => ?_) fun _ => ?_)
  · refine statement_smooth hw () _ rfl fun w hw => ?_
    refine Routine.wp_pure ⟨_, hw, fun v hv => ?_⟩
    refine Routine.wp_bind (Routine.smooth_ask hv fun _ v hv => ?_)
    exact Routine.wp_bind (emitChanges_smooth hv fun v hv => h _ v (htold.notification _) hv)
  · refine Routine.wp_pure ⟨_, hw, fun v hv => ?_⟩
    refine Routine.wp_bind (Routine.smooth_ask hv fun _ v hv => ?_)
    exact Routine.wp_bind (emitChanges_smooth hv fun v hv => h _ v htold hv)

theorem reversePaystackPaymentByDispute_misses (hx : x.On store t none)
    (hfound : t.paymentByReference? reference = some payment)
    (hnot : payment.row.status ≠ .SUCCESS) {eventType : String} {Q : Context → Prop}
    (h : ∀ y, y.On store t none → Q y) :
    (Ledger.reversePaystackPaymentByDispute reference eventType).smooth store
      (fun _ => Q) (fun _ => Q) x := by
  rcases Db.paymentByReference?_eq_some hfound with ⟨hrow, -⟩
  unfold Ledger.reversePaystackPaymentByDispute
  refine Routine.wp_bind (Routine.smooth_query hx fun y hy => ?_)
  rw [Option.getD_none, hfound, Option.filter_some]
  split
  · exact Routine.wp_pure (h y hy)
  · next hsome =>
    split at hsome
    · obtain rfl := Option.some.inj hsome
      refine Routine.wp_bind (Routine.smooth_transaction hy fun z hz => ?_)
      refine Routine.wp_bind (updatePayments_missed hz hrow (decide_eq_false hnot) fun u hu => ?_)
      rw [if_pos rfl]
      exact Routine.wp_pure ⟨t, hu, fun v hv => Routine.wp_pure (h v hv)⟩
    · cases hsome

/-- Payments and plans are as they were, and the log is but for what the key is for. -/
structure LogsOnly (key : String) (t t' : Db) : Prop where
  payments : t'.payments = t.payments
  enrollments : t'.enrollments = t.enrollments
  log : ∀ key', key' ≠ key → t'.webhookEvents.lookup key' = t.webhookEvents.lookup key'

theorem createWebhookEvent_smooth (hx : x.On store t none) {key : String} {row : WebhookEvent}
    {ok : Unit → Context → Prop} {err : Err → Context → Prop}
    (hok : ∀ t' y, LogsOnly key t t' → y.On store t' none → ok () y)
    (herr : ∀ y, y.On store t none → err (.unique "dedupeKey") y) :
    (createWebhookEvent key row).smooth store ok err x := by
  refine Routine.smooth_outside hx (fun _ ws y hws hy => ?_) fun e y he hy => ?_
  · split at hws <;> cases hws
    refine hok (store.applyAll [.putWebhookEvent key row] t) y ⟨rfl, rfl, fun _ hne => ?_⟩ hy
    exact AList.lookup_insert_ne hne
  · split at he <;> cases he
    exact herr y hy

theorem deleteWebhookEvent_smooth {s : Db} {key : String} (hs : LogsOnly key s t)
    (hx : x.On store t none) {ok : Unit → Context → Prop} {err : Err → Context → Prop}
    (hok : ∀ t' y, LogsOnly key s t' → y.On store t' none → ok () y)
    (herr : ∀ e y, y.On store t none → err e y) :
    (deleteWebhookEvent key).smooth store ok err x := by
  refine Routine.smooth_outside hx (fun _ ws y hws hy => ?_) fun e y _ hy => herr e y hy
  split at hws <;> cases hws
  refine hok (store.applyAll [.deleteWebhookEvent key] t) y
    ⟨hs.payments, hs.enrollments, fun key' hne => ?_⟩ hy
  exact (AList.lookup_erase_ne hne).trans (hs.log key' hne)

theorem escalateReconcileConflict_smooth (hx : x.On store t none) {fee : Option Int}
    {Q : Context → Prop}
    (h : ∀ t' y, LogsOnly (Ledger.conflictKey reference) t t' → y.On store t' none → Q y) :
    (Ledger.escalateReconcileConflict payment reference fee).smooth store
      (fun _ => Q) (fun _ => Q) x := by
  unfold Ledger.escalateReconcileConflict
  have hself : LogsOnly (Ledger.conflictKey reference) t t := ⟨rfl, rfl, fun _ _ => rfl⟩
  refine Routine.wp_bind (Routine.wp_tryCatch (Routine.wp_bind (createWebhookEvent_smooth hx
    (fun t' y ht' hy => Routine.wp_pure ?_) fun y hy => ?_)))
  · rw [if_neg (by decide)]
    refine Routine.wp_bind (Routine.wp_tryCatch (Routine.wp_bind
      (Routine.smooth_query hy fun y hy => Routine.wp_pure ?_)))
    refine Routine.wp_bind (Routine.wp_mapM (P := fun y => y.On store t' none) hy
      (fun _ _ y hy => Routine.smooth_ask hy fun _ y hy => hy) fun _ y hy => ?_)
    refine Routine.wp_bind (Routine.wp_onlyIf (fun _ => ?_) fun _ => ?_)
    · refine Routine.wp_tryCatch (deleteWebhookEvent_smooth ht' hy (fun t'' y ht'' hy => ?_) ?_)
      · exact Routine.wp_pure (h t'' y ht'' hy)
      · exact fun _ y hy => Routine.wp_pure (Routine.wp_pure (h t' y ht' hy))
    · exact Routine.wp_pure (h t' y ht' hy)
  · rw [if_pos rfl]
    refine Routine.wp_pure ?_
    rw [if_pos rfl]
    exact Routine.wp_pure (h t y hself hy)

theorem reconcilePaystackPayment_declines (hx : x.On store t none)
    (hfound : t.paymentByReference? reference = some payment)
    (hnot : payment.row.status ≠ .PENDING) {fee : Option Int} {actor : Option AuditActor}
    {Q : Context → Prop}
    (h : ∀ t' y, LogsOnly (Ledger.conflictKey reference) t t' → y.On store t' none → Q y) :
    (Ledger.reconcilePaystackPayment reference fee actor).smooth store
      (fun _ => Q) (fun _ => Q) x := by
  unfold Ledger.reconcilePaystackPayment
  refine Routine.wp_bind (Routine.smooth_query hx fun y hy => ?_)
  simp only [Option.getD_none, hfound]
  refine Routine.wp_ite (fun _ => ?_) fun _ => ?_
  · exact Routine.wp_pure (h t y ⟨rfl, rfl, fun _ _ => rfl⟩ hy)
  · rw [if_pos hnot]
    exact escalateReconcileConflict_smooth hy h

end Cards

end Lopay
