import Lopay.Books.LedgerPosts

/-!
# Card payments commit postings only

`reconcilePaystackPayment` with its escalation, `failPaystackPayment` and
`reversePaystackPaymentByDispute`, on the terms of any session.
-/

namespace Lopay

open Transactions

section Operations

variable {K : Contract Db Write Answer} {E : Db → Db → Prop} {I : Exchanges → Db → Prop}
  {x : Context}

/-! ### Webhook events -/

theorem Knows.createWebhookEvent (hS : Session K E I) (haside : Owes K E I .aside)
    {P : Db → Prop} (hx : Knows E I none P x) {key : String} {row : WebhookEvent} :
    (Lopay.createWebhookEvent key row).wp store K
      (fun _ y => Rests I false y ∧ ∃ s ∈ y.seen, (s.webhookEvents.lookup key).isSome)
      (fun e y => Rests I false y ∧ (e = .unique "dedupeKey" →
        ∃ s ∈ y.seen, (s.webhookEvents.lookup key).isSome)) x := by
  refine Routine.wp_exec fun y hd => ?_
  have hy := hx.drift hS hd
  have hview : y.view store = y.now := hy.view
  have hreleased : ∀ ws, y.released ws = ws := by
    intro ws
    unfold Ctx.released
    rw [hy.begun]
  refine ⟨fun _ => ⟨hy.failed.rests, fun h => nomatch h⟩, ?_, ?_⟩
  · intro e he
    refine ⟨hy.wrote_nil.rests, fun _ => ⟨_, List.mem_cons_self, ?_⟩⟩
    rw [Ctx.wrote_now, hreleased, Store.applyAll_nil]
    rw [hview] at he
    split at he
    · next hsome => exact hsome
    · cases he
  · intro a ws hf
    rw [hview] at hf
    split at hf
    · cases hf
    obtain ⟨-, rfl⟩ := Prod.mk.inj (Except.ok.inj hf)
    rw [hreleased]
    have howed := haside y [.putWebhookEvent key row] hy.inv
      ⟨_, .aside, (Entry.MadeBy.nil y.now).putWebhookEvent⟩
    refine ⟨fun _ ha => (howed ha).1, fun ha => ⟨⟨?_, ?_⟩,
      (y.wrote store [.putWebhookEvent key row]).now, List.mem_cons_self, ?_⟩⟩
    · rw [Ctx.wrote_tx, hy.begun]
      rfl
    · rw [Ctx.wrote_log, Ctx.wrote_now, hreleased]
      exact (howed (ha nofun)).2
    · rw [Ctx.wrote_now, hreleased]
      simp [Write.apply]

theorem Knows.changeWebhookEvent (hS : Session K E I) (haside : Owes K E I .aside)
    {P : Db → Prop} (hx : Knows E I none P x) {f : Db → Except Err (Unit × List Write)}
    (hf : ∀ s a ws, f s = .ok (a, ws) → ∃ entry, entry = ⟨none, none, none⟩ ∧
      Entry.MadeBy entry s ws) :
    (Lopay.statement f).wp store K (fun _ => Rests I false) (fun _ => Rests I false) x := by
  refine hx.autocommit hS haside (fun s a ws _ _ h => Or.inr ?_) fun _ _ _ _ _ _ hu => hu
  obtain ⟨entry, rfl, hmade⟩ := hf s a ws h
  exact ⟨_, .aside, hmade⟩

theorem Knows.updateWebhookEvent (hS : Session K E I) (haside : Owes K E I .aside)
    {P : Db → Prop} (hx : Knows E I none P x) {key : String}
    {data : WebhookEvent → WebhookEvent} :
    (Lopay.updateWebhookEvent key data).wp store K
      (fun _ => Rests I false) (fun _ => Rests I false) x := by
  refine hx.changeWebhookEvent hS haside fun s a ws hf => ?_
  split at hf
  · obtain ⟨-, rfl⟩ := Prod.mk.inj (Except.ok.inj hf)
    exact ⟨_, rfl, (Entry.MadeBy.nil s).putWebhookEvent⟩
  · cases hf

theorem Knows.deleteWebhookEvent (hS : Session K E I) (haside : Owes K E I .aside)
    {P : Db → Prop} (hx : Knows E I none P x) {key : String} :
    (Lopay.deleteWebhookEvent key).wp store K
      (fun _ => Rests I false) (fun _ => Rests I false) x := by
  refine hx.changeWebhookEvent hS haside fun s a ws hf => ?_
  split at hf
  · obtain ⟨-, rfl⟩ := Prod.mk.inj (Except.ok.inj hf)
    exact ⟨_, rfl, (Entry.MadeBy.nil s).deleteWebhookEvent⟩
  · cases hf

/-! ### Reconcile -/

/-- An escalation answers the conflict, and its marker has been claimed by then. -/
theorem escalateReconcileConflict_posts (hS : Session K E I) (haside : Owes K E I .aside)
    (hx : Rests I false x) {payment : PaymentOfPlan} {reference : String} {fee : Option Int} :
    (Ledger.escalateReconcileConflict payment reference fee).wp store K
      (fun r y => Rests I false y ∧ r = .statusConflict payment.row.status ∧
        ∃ s ∈ y.seen, (s.webhookEvents.lookup (Ledger.conflictKey reference)).isSome)
      (fun _ => Rests I false) x := by
  unfold Ledger.escalateReconcileConflict
  refine Routine.wp_bind (Routine.wp_mono (fun claimed y (hy : Rests I false y ∧
    ∃ s ∈ y.seen, (s.webhookEvents.lookup (Ledger.conflictKey reference)).isSome) => ?_)
    (fun _ _ h => h) ?_)
  · obtain ⟨hrests, hmarker⟩ := hy
    refine Routine.wp_ite (fun _ => Routine.wp_pure ⟨hrests, rfl, hmarker⟩) fun _ => ?_
    refine Routine.wp_mono (fun r z (hz : (Rests I false z ∧
      r = .statusConflict payment.row.status) ∧ _) => ⟨hz.1.1, hz.1.2, hz.2⟩) (fun _ _ h => h)
      (Routine.wp_remember hmarker ?_)
    refine Routine.wp_bind (Routine.wp_mono (fun admins z (hz : Rests I false z) => ?_)
      (fun _ _ h => h) ?_)
    · refine Routine.wp_bind (Routine.wp_mapM hz (fun admin _ z hz => ?_)
        fun deliveries z hz => ?_)
      · exact hz.outside.ask hS (fun _ h => nomatch h) fun _ _ h => h.rests
      refine Routine.wp_bind (Routine.wp_onlyIf (fun _ => ?_) fun _ =>
        Routine.wp_pure ⟨hz, rfl⟩)
      exact Routine.wp_tryCatch (Routine.wp_mono (fun _ z hz => Routine.wp_pure ⟨hz, rfl⟩)
        (fun e z hz => Routine.wp_pure (Routine.wp_pure ⟨hz, rfl⟩))
        (hz.outside.deleteWebhookEvent hS haside))
    · refine Routine.wp_tryCatch (Routine.wp_bind (Routine.wp_mono (fun _ z hz => ?_)
        (fun e z hz => Routine.wp_pure hz) (hrests.outside.read hS fun v y hy => hy.rests)))
      exact Routine.wp_pure hz
  · refine Routine.wp_tryCatch (Routine.wp_bind (Routine.wp_mono (fun _ y hy => ?_)
      (fun e y hy => ?_) (hx.outside.createWebhookEvent hS haside)))
    · exact Routine.wp_pure hy
    · refine Routine.wp_ite (fun he => Routine.wp_pure ⟨hy.1, hy.2 he⟩)
        (fun _ => Routine.wp_throw hy.1)

/-- The payment under this reference is SUCCESS. -/
def Paid (reference : String) (s : Db) : Prop :=
  ∃ k p, s.payments.lookup k = some p ∧ p.paystackReference = some reference ∧ p.status = .SUCCESS

/-- The payment `k` under this reference is PENDING. -/
def Open (reference : String) (k : Id) (s : Db) : Prop :=
  ∃ p, s.payments.lookup k = some p ∧ p.paystackReference = some reference ∧ p.status = .PENDING

/-- Nobody takes an open payment elsewhere than to SUCCESS between the method's first
    statement and its second. -/
def Watched (K : Contract Db Write Answer) (reference : String) (ran : Nat) : Prop :=
  ∀ y ws k, y.ran = ran → K.rely y ws → Open reference k y.now →
    Open reference k (store.applyAll ws y.now) ∨ Paid reference (store.applyAll ws y.now)

/-- What an answer says about the states that the call has seen. `overtaken` admits that
    a guarded update lost without the payment having been SUCCESS. -/
def Ledger.ReconcileOutcome.Told (reference : String) (overtaken : Prop) :
    Ledger.ReconcileOutcome → Context → Prop
  | .unknownReference, y => ∃ s ∈ y.seen, s.paymentByReference? reference = none
  | .alreadyProcessed, y => (∃ s ∈ y.seen, Paid reference s) ∨ overtaken
  | .completed _, y => ∃ s ∈ y.seen, Paid reference s
  | .statusConflict status, y =>
    (∃ s ∈ y.seen, (s.webhookEvents.lookup (Ledger.conflictKey reference)).isSome) ∧
    ∃ s ∈ y.seen, ∃ k p, s.payments.lookup k = some p ∧
      p.paystackReference = some reference ∧ p.status = status ∧ status ≠ .SUCCESS ∧
      status ≠ .PENDING

/-- An open payment that nobody closes stays open until it is paid. -/
theorem Watched.drift {reference : String} {k : Id} {y z : Context}
    (hW : Watched K reference y.ran) (hd : Drift store K.rely y z)
    (hopen : Open reference k y.now ∨ ∃ s ∈ y.seen, Paid reference s) :
    Open reference k z.now ∨ ∃ s ∈ z.seen, Paid reference s := by
  induction hd with
  | refl => exact hopen
  | @step z ws hyz hne hR hfree ih =>
    rcases ih with hz | ⟨s, hs, hpaid⟩
    · rw [Ctx.see_now]
      rcases hW z ws k hyz.ran_eq hR hz with hopen | hpaid
      · exact Or.inl hopen
      · refine Or.inr ⟨(z.see store ws).now, List.mem_cons_self, ?_⟩
        rw [Ctx.see_now]
        exact hpaid
    · exact Or.inr ⟨s, (Drift.step ws (.refl z) hne hR hfree).seen_subset s hs, hpaid⟩

theorem Knows.creditCardPayment (hS : Session K E I) {ws : List Write} {P : Db → Prop}
    (hx : Knows E I (some ws) P x) {payment : PaymentOfPlan} {reference : String}
    {fee : Option Int} {actor : Option AuditActor} {ok : Ledger.Credited → Context → Prop}
    (h : ∀ e a credited y, a.IsAbout .FIRST_PAYMENT_PAID payment.id → Knows E I (some (ws ++
        [.putEnrollment payment.plan.id
          { e with remainingBalance := e.remainingBalance - payment.row.schoolAmount }] ++
        [.putEnrollment payment.plan.id (e.openedBy payment.row.schoolAmount)] ++ [.audit a]))
      (fun s => P s ∧ (store.applyAll ws s).enrollments.lookup payment.plan.id = some e) y →
        ok credited y) :
    (Ledger.creditCardPayment payment reference fee actor).wp store K ok
      (fun _ => Rests I true) x := by
  unfold Ledger.creditCardPayment
  refine Routine.wp_bind (hx.credit hS fun e credited y hy => ?_)
  refine Routine.wp_bind (hy.record hS fun a y ha hy => ?_)
  exact Routine.wp_pure (h e a credited y ha hy)

theorem announceCardPayment_rests (hS : Session K E I) (hx : Rests I false x)
    {payment : PaymentOfPlan} {credited : Ledger.Credited} :
    (Ledger.announceCardPayment payment credited).wp store K
      (fun _ => Rests I false) (fun _ => Rests I false) x := by
  unfold Ledger.announceCardPayment
  refine Routine.wp_bind (hx.outside.createNotification hS fun y hy => ?_)
  refine Routine.wp_bind (Routine.wp_onlyIf (fun _ => ?_) fun _ => ?_)
  · exact hy.createNotification hS fun z hz => hz.emitChanges hS fun u hu => hu.rests
  · exact hy.emitChanges hS fun u hu => hu.rests

theorem reconcilePaystackPayment_posts (hS : Session K E I)
    (hcredit : Owes K E I (.credit .FIRST_PAYMENT_PAID)) (haside : Owes K E I .aside)
    (hx : Rests I false x) {reference : String} {fee : Option Int} {actor : Option AuditActor}
    {overtaken : Prop} (hwatched : Watched K reference (x.ran + 1) ∨ overtaken) :
    (Ledger.reconcilePaystackPayment reference fee actor).wp store K
      (fun r y => Rests I false y ∧ r.Told reference overtaken y) (fun _ => Rests I false) x := by
  unfold Ledger.reconcilePaystackPayment
  refine Routine.wp_bind (Routine.wp_query fun y hd => ?_)
  have hy := hx.outside.drift hS hd
  have hview : y.view store = y.now := hy.view
  have hnow : (y.wrote store []).now = y.now := by
    rw [Ctx.wrote_now, Ctx.released_nil, Store.applyAll_nil]
  have hran : (y.wrote store []).ran = x.ran + 1 := by rw [Ctx.wrote_ran, hd.ran_eq]
  have hseen : y.now ∈ (y.wrote store []).seen := by
    rw [← hnow]
    exact List.mem_cons_self
  refine ⟨fun _ => hy.failed.rests, ?_⟩
  rw [hview]
  cases hfound : y.now.paymentByReference? reference with
  | none => exact Routine.wp_pure ⟨hy.wrote_nil.rests, y.now, hseen, hfound⟩
  | some payment =>
    obtain ⟨hrow, href, hplan, -⟩ := Db.paymentByReference?_eq_some hfound
    refine Routine.wp_ite (fun hsuccess => ?_) fun hnotSuccess => Routine.wp_ite
      (fun hnotPending => ?_) fun hpending => ?_
    · exact Routine.wp_pure ⟨hy.wrote_nil.rests,
        Or.inl ⟨y.now, hseen, payment.id, payment.row, hrow, href, hsuccess⟩⟩
    · have hclosed : ∃ s ∈ (y.wrote store []).seen, ∃ k p, s.payments.lookup k = some p ∧
          p.paystackReference = some reference ∧ p.status = payment.row.status ∧
          payment.row.status ≠ .SUCCESS ∧ payment.row.status ≠ .PENDING :=
        ⟨y.now, hseen, payment.id, payment.row, hrow, href, rfl, hnotSuccess, hnotPending⟩
      refine Routine.wp_mono (fun r z hz => ?_) (fun _ _ h => h) (Routine.wp_remember hclosed
        (escalateReconcileConflict_posts hS haside hy.wrote_nil.rests))
      obtain ⟨⟨hrests, rfl, hmarker⟩, hstatus⟩ := hz
      exact ⟨hrests, hmarker, hstatus⟩
    · have hopen : Open reference payment.id (y.wrote store []).now := by
        rw [hnow]
        exact ⟨payment.row, hrow, href, not_not.mp hpending⟩
      have hknown := (hy.since hS (Q := fun c =>
        c.payments.lookup payment.id = some payment.row) hrow).wrote_nil
      refine Routine.wp_bind (hknown.transaction hS fun z hz hopened => ?_)
      refine Routine.wp_bind (Routine.wp_ask fun u hu => ?_)
      refine ⟨hS.asks _ .now (fun _ h => nomatch h) (hopened.drift hS hu).inv, fun now ha => ?_⟩
      have hasked := (hopened.drift hS hu).answered hS (c := .now) (fun _ h => nomatch h) ha
      refine Routine.wp_bind (hasked.updatePayments hS (fun v hv hmiss hv' => ?_)
        fun p v hp hv => ?_)
      · rw [if_pos rfl]
        -- The update found the row no longer open: it has been paid in the meantime.
        have htold : (∃ s ∈ v.seen, Paid reference s) ∨ overtaken := by
          rcases hwatched with hwatched | hovertaken
          · rw [← hran] at hwatched
            have h₁ := hwatched.drift hz (Or.inl hopen)
            rw [← hz.ran_eq] at hwatched
            have h₂ := Watched.drift (y := z.opened) hwatched hu h₁
            have hwatched' : Watched K reference (u.answered .now now).ran := by
              rw [Ctx.answered, hu.ran_eq]
              exact hwatched
            rcases Watched.drift hwatched' hv h₂ with ⟨p, hp, -, hstatus⟩ | hpaid
            · exact absurd (decide_eq_true hstatus) (hmiss p hp)
            · exact Or.inl hpaid
          · exact Or.inr hovertaken
        refine Routine.wp_pure (hv'.commits_nothing hS fun w hw hclosed => ?_)
        refine Routine.wp_pure ⟨hclosed.rests, ?_⟩
        rcases htold with ⟨s, hs, hpaid⟩ | hovertaken
        · refine Or.inl ⟨s, hw.seen_subset s ?_, hpaid⟩
          unfold Ctx.wrote
          split
          · exact hs
          · exact hs
        · exact Or.inr hovertaken
      · rw [if_neg (by decide)]
        refine Routine.wp_bind (hv.creditCardPayment hS fun e a credited w ha hw => ?_)
        have hkeep : ∀ s : Db, ((True ∧ ∃ c, E c s ∧ Coherent c ∧
            c.payments.lookup payment.id = some payment.row) ∧
              s.payments.lookup payment.id = some p) ∧
            s.enrollments.lookup payment.plan.id = some e →
            s.payments.lookup payment.id = some p ∧ payment.row.Continues p ∧
              s.enrollments.lookup payment.plan.id = some e := by
          rintro s ⟨⟨⟨-, c, hc, -, hold⟩, hp'⟩, he⟩
          exact ⟨hp', (hS.stable c s hc).payment hold hp', he⟩
        refine Routine.wp_pure (hw.commits hS hcredit (fun s hs hcoh => ?_) fun v _ hs hv => ?_)
        · obtain ⟨hp', hread, he⟩ := hkeep s hs
          have hstatus : p.status = .PENDING := of_decide_eq_true hp
          have hsound := hcoh.payments _ _ hp'
          have htype := (hsound.reference (by rw [hread.paystackReference, href]; exact nofun)).1
          have hunconfirmed : p.isConfirmed = false := by
            rw [← Bool.not_eq_true, hsound.confirmed, hstatus]
            exact nofun
          obtain ⟨-, hamount⟩ := hread.amounts (by rw [← hread.paymentType, htype]; exact nofun)
          rw [hplan, ← hread.enrollmentId] at he ⊢
          rw [← hamount]
          refine ⟨_, @Posting.credit E s .FIRST_PAYMENT_PAID payment.id p e now fee a
            (Or.inr (Or.inr rfl)) hp' htype hunconfirmed (fun _ => hstatus) he ha
            (fun h => absurd rfl h), ?_⟩
          exact (Entry.MadeBy.nil s).putPayment.putPlan.putPlanAgain.logAudit
        · obtain ⟨-, hread, -⟩ := hkeep _ hs
          refine Routine.wp_bind (Routine.wp_mono (fun _ w hw => ?_) (fun _ _ h => h)
            (Routine.wp_remember (V := Paid reference) ⟨_, List.mem_cons_self, ?_⟩
              (announceCardPayment_rests hS hv)))
          · exact Routine.wp_pure hw
          · rw [Ctx.see_now]
            refine ⟨payment.id, _, AList.lookup_insert _, ?_, rfl⟩
            rw [← href, ← hread.paystackReference]

/-! ### Fail and dispute -/

/-- A payment found by its reference under a filter. -/
theorem filter_eq_reference {db : Db} {reference : String} {p : PaymentOfPlan → Bool}
    {found : Option PaymentOfPlan} {payment : PaymentOfPlan}
    (h : (db.paymentByReference? reference).filter p = found) (hfound : found = some payment) :
    db.payments.lookup payment.id = some payment.row ∧
      payment.row.paystackReference = some reference ∧
      payment.plan.id = payment.row.enrollmentId ∧
      db.enrollments.lookup payment.row.enrollmentId = some payment.plan.row :=
  Db.paymentByReference?_eq_some (filter_found h hfound).1

theorem failPaystackPayment_posts (hS : Session K E I) {reference : String}
    (howes : Owes K E I (.fail reference)) (hx : Rests I false x) :
    (Ledger.failPaystackPayment reference).wp store K
      (fun _ => Rests I false) (fun _ => Rests I false) x := by
  unfold Ledger.failPaystackPayment
  refine Routine.wp_bind (hx.outside.read hS fun found y hy => ?_)
  cases hfound : found with
  | none => exact Routine.wp_pure hy.rests
  | some payment =>
    refine Routine.wp_bind (hy.transaction hS fun _ _ hy => ?_)
    refine Routine.wp_bind (hy.updatePayments hS (fun _ _ _ hy => ?_) fun p y hp hy => ?_)
    · rw [if_pos rfl]
      refine Routine.wp_pure (hy.commits_nothing hS fun _ _ hu => ?_)
      exact Routine.wp_ite (fun _ => Routine.wp_pure hu.rests) fun h => absurd rfl h
    rw [if_neg (by decide)]
    refine Routine.wp_bind (hy.updateEnrollment hS fun e y hy => ?_)
    refine Routine.wp_pure (hy.commits hS howes (fun s hs hcoh => ?_) fun u _ _ hu => ?_)
    · obtain ⟨⟨⟨-, c, hc, -, hfilter⟩, hp'⟩, he⟩ := hs
      obtain ⟨hrow, href, -⟩ := filter_eq_reference hfilter hfound
      have hread := (hS.stable c s hc).payment hrow hp'
      have hstatus : p.status = .PENDING := of_decide_eq_true hp
      have hreference : p.paystackReference = some reference := by
        rw [hread.paystackReference, href]
      have hsound := hcoh.payments _ _ hp'
      have htype := (hsound.reference (by rw [hreference]; exact nofun)).1
      have hunconfirmed : p.isConfirmed = false := by
        rw [← Bool.not_eq_true, hsound.confirmed, hstatus]
        exact nofun
      rw [← hread.enrollmentId] at he ⊢
      have hquiet : ∀ a ∈ (none : Option AuditEntry),
          a.IsAbout .PAYMENT_REJECTED payment.id ∨ a.IsAbout .FIRST_PAYMENT_REJECTED payment.id := by
        intro a ha
        cases ha
      exact ⟨_, @Posting.close E s _ _ p e none hp' ⟨hreference, hstatus⟩ htype hunconfirmed he
        hquiet, (Entry.MadeBy.nil s).putPayment.putPlan⟩
    · refine Routine.wp_ite (fun h => nomatch h) fun _ => ?_
      refine Routine.wp_bind (Routine.wp_onlyIf (fun _ => ?_) fun _ => ?_)
      · exact hu.outside.createNotification hS fun z hz => Routine.wp_bind
          (hz.emitChanges hS fun w hw => Routine.wp_pure hw.rests)
      · exact Routine.wp_bind (hu.outside.emitChanges hS fun w hw => Routine.wp_pure hw.rests)

/-- A dispute decides how to restore the plan on what it reads first. What it posts names the
    database of that read, in so far as the relation `E'` can tell. -/
theorem reversePaystackPaymentByDispute_begins (hS : Session K E I)
    (reference eventType : String) :
    ∃ f, Ledger.reversePaystackPaymentByDispute reference eventType =
        (read (fun db => (db.paymentByReference? reference).filter fun p =>
          p.row.status ≠ .FAILED ∧ p.row.status ≠ .REVERSED) >>= f) ∧
      ∀ (E' : Db → Db → Prop) (P : Db → Prop) found x, Knows E I none P x →
        (∀ s, P s → ∃ c, E' c s ∧ Stable c s ∧ Coherent c ∧
          ((c.paymentByReference? reference).filter fun p =>
            p.row.status ≠ .FAILED ∧ p.row.status ≠ .REVERSED) = found) →
        Owes K E' I (.dispute reference) →
        (f found).wp store K (fun _ => Rests I false) (fun _ => Rests I false) x := by
  refine ⟨_, rfl, fun E' P found x hy hP howes => ?_⟩
  cases hfound : found with
  | none => exact Routine.wp_pure hy.rests
  | some payment =>
    refine Routine.wp_bind (hy.transaction hS fun _ _ hy => ?_)
    refine Routine.wp_bind (hy.updatePayments hS (fun _ _ _ hy => ?_) fun p y hp hy => ?_)
    · rw [if_pos rfl]
      exact Routine.wp_pure (hy.commits_nothing hS fun _ _ hu => Routine.wp_pure hu.rests)
    rw [if_neg (by decide)]
    refine Routine.wp_bind (hy.updateEnrollment hS fun e y hy => ?_)
    refine Routine.wp_bind (hy.record hS fun a y ha hy => ?_)
    refine Routine.wp_bind (hy.insertNotification hS fun y hy => ?_)
    refine Routine.wp_bind (hy.insertNotificationIf hS fun w y hw hy => ?_)
    refine Routine.wp_pure (hy.commits hS howes (fun s hs hcoh => ?_) fun u _ _ hu => ?_)
    · obtain ⟨⟨hread, hp'⟩, he⟩ := hs
      obtain ⟨c, hc, hstable, hcoh', hfilter⟩ := hP s hread
      obtain ⟨hrow, href, hplan, hbefore⟩ := filter_eq_reference hfilter hfound
      have hread := hstable.payment hrow hp'
      have hreference : p.paystackReference = some reference := by
        rw [hread.paystackReference, href]
      have htype := ((hcoh.payments _ _ hp').reference (by rw [hreference]; exact nofun)).1
      rw [hplan, ← hread.enrollmentId] at he ⊢
      rw [← hread.enrollmentId] at hbefore
      refine ⟨_, @Posting.dispute E' s reference payment.id p e payment.plan.row c a hp' hreference
        htype (of_decide_eq_true hp) he hc hcoh' hbefore ha, hw _ _ _ ?_⟩
      unfold ChildEnrollment.disputed
      simp only [decide_eq_true_eq]
      exact (Entry.MadeBy.nil s).putPayment.putPlan.logAudit.notify
    · refine Routine.wp_bind (hu.outside.ask hS (fun _ h => nomatch h) fun _ y hy => ?_)
      exact Routine.wp_bind (hy.emitChanges hS fun w hw => Routine.wp_pure hw.rests)

theorem reversePaystackPaymentByDispute_posts (hS : Session K E I) {reference : String}
    (howes : Owes K E I (.dispute reference)) (hx : Rests I false x) {eventType : String} :
    (Ledger.reversePaystackPaymentByDispute reference eventType).wp store K
      (fun _ => Rests I false) (fun _ => Rests I false) x := by
  obtain ⟨f, hbegins, hbody⟩ := reversePaystackPaymentByDispute_begins hS reference eventType
  rw [hbegins]
  refine Routine.wp_bind (hx.outside.read hS fun found y hy => hbody E _ found y hy ?_ howes)
  rintro s ⟨-, c, hc, hcoh, hfilter⟩
  exact ⟨c, hc, hS.stable c s hc, hcoh, hfilter⟩

end Operations

end Lopay
