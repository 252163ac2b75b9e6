import Lopay.Books.Session
import Lopay.Ledger.Defaults
import Lopay.Ledger.Installments

/-!
# The ledger operations commit postings only

One theorem for each operation of the ledger: on the terms of any session it commits
nothing but postings of its kind, and it ends outside of any transaction.
-/

namespace Lopay

open Transactions

/-! ### Entries from lists of writes -/

/-- The entry is what the writes `ws` make of `s`. -/
abbrev Entry.MadeBy (entry : Entry) (s : Db) (ws : List Write) : Prop :=
  entry.Made s (store.applyAll ws s) (store.locksOf ws)

namespace Entry.MadeBy

variable {payment : Option (Id × Payment)} {plan : Option (Id × ChildEnrollment)}
  {audit : Option AuditEntry} {s : Db} {ws : List Write}

theorem nil (s : Db) : Entry.MadeBy ⟨none, none, none⟩ s [] where
  payments := rfl
  enrollments := fun _ => rfl
  auditLogs := (List.append_nil _).symm
  locked := fun _ _ h => nomatch h
  children := fun _ _ h => h
  parented := fun h => h
  parents := fun _ _ h => h
  schools := rfl
  users := rfl
  classFees := rfl

/-- One more write. What it leaves alone is left alone; the rest is to be shown. -/
theorem step {entry entry' : Entry} (h : entry.MadeBy s ws) (w : Write)
    (hpayments : (w.apply (store.applyAll ws s)).payments = entry'.payments s)
    (henrollments : ∀ k, (w.apply (store.applyAll ws s)).enrollments.lookup k =
      entry'.enrollment s k)
    (haudit : (w.apply (store.applyAll ws s)).auditLogs = s.auditLogs ++ entry'.audit.toList)
    (hlocked : ∀ k e, entry'.plan = some (k, e) →
      Lock.enrollment k ∈ store.locksOf ws ∨ Lock.enrollment k ∈ w.locks)
    (hfamilies : (w.apply (store.applyAll ws s)).children = (store.applyAll ws s).children ∧
      (w.apply (store.applyAll ws s)).parents = (store.applyAll ws s).parents) :
    entry'.MadeBy s (ws ++ [w]) := by
  have hw : store.applyAll (ws ++ [w]) s = w.apply (store.applyAll ws s) := by
    rw [Store.applyAll_append]
    rfl
  have hconstant : (w.apply (store.applyAll ws s)).schools = (store.applyAll ws s).schools ∧
      (w.apply (store.applyAll ws s)).users = (store.applyAll ws s).users ∧
      (w.apply (store.applyAll ws s)).classFees = (store.applyAll ws s).classFees := by
    cases w <;> exact ⟨rfl, rfl, rfl⟩
  unfold Entry.MadeBy
  rw [hw]
  refine ⟨hpayments, henrollments, haudit, ?_, ?_, ?_, ?_, hconstant.1.trans h.schools,
    hconstant.2.1.trans h.users, hconstant.2.2.trans h.classFees⟩
  · intro k e hk
    rw [Store.locksOf_append, List.mem_append]
    rcases hlocked k e hk with hold | hnew
    · exact Or.inl hold
    · exact Or.inr (by rw [Store.locksOf_cons, Store.locksOf_nil, List.append_nil]; exact hnew)
  · intro k c hc
    rw [hfamilies.1]
    exact h.children k c hc
  · intro hs
    have hkept := h.parented hs
    unfold Db.Parented at hkept ⊢
    rw [hfamilies.1, hfamilies.2]
    exact hkept
  · intro k r hr
    rw [hfamilies.2]
    exact h.parents k r hr

theorem putPayment (h : Entry.MadeBy ⟨none, plan, audit⟩ s ws) {k : Id} {p : Payment} :
    Entry.MadeBy ⟨some (k, p), plan, audit⟩ s (ws ++ [.putPayment k p]) := by
  refine h.step _ ?_ h.enrollments h.auditLogs (fun k e hk => Or.inl (h.locked k e hk)) ⟨rfl, rfl⟩
  exact congrArg (fun t => AList.insert k p t) h.payments

theorem putPlan (h : Entry.MadeBy ⟨payment, none, audit⟩ s ws) {k : Id} {e : ChildEnrollment} :
    Entry.MadeBy ⟨payment, some (k, e), audit⟩ s (ws ++ [.putEnrollment k e]) := by
  refine h.step _ h.payments (fun k' => ?_) h.auditLogs ?_ ⟨rfl, rfl⟩
  · have hold : (store.applyAll ws s).enrollments.lookup k' = s.enrollments.lookup k' :=
      h.enrollments k'
    simp only [Write.apply, Table.lookup_insert_ite, hold, Entry.enrollment]
  · rintro k' e' hk'
    obtain ⟨rfl, -⟩ := Prod.mk.inj (Option.some.inj hk')
    exact Or.inr List.mem_cons_self

/-- A second update of the same row. -/
theorem putPlanAgain {k : Id} {e e' : ChildEnrollment}
    (h : Entry.MadeBy ⟨payment, some (k, e), audit⟩ s ws) :
    Entry.MadeBy ⟨payment, some (k, e'), audit⟩ s (ws ++ [.putEnrollment k e']) := by
  refine h.step _ h.payments (fun k' => ?_) h.auditLogs ?_ ⟨rfl, rfl⟩
  · have hold : (store.applyAll ws s).enrollments.lookup k' =
        if k' = k then some e else s.enrollments.lookup k' := h.enrollments k'
    simp only [Write.apply, Table.lookup_insert_ite, hold, Entry.enrollment]
    split <;> rfl
  · rintro k' e' hk'
    obtain ⟨rfl, -⟩ := Prod.mk.inj (Option.some.inj hk')
    exact Or.inr List.mem_cons_self

/-- A locked row counts as put back unchanged. -/
theorem lockPlan (h : Entry.MadeBy ⟨payment, none, audit⟩ s ws) {k : Id} {e : ChildEnrollment}
    (he : s.enrollments.lookup k = some e) :
    Entry.MadeBy ⟨payment, some (k, e), audit⟩ s (ws ++ [.lockEnrollment k]) := by
  refine h.step _ h.payments (fun k' => ?_) h.auditLogs ?_ ⟨rfl, rfl⟩
  · have hold : (store.applyAll ws s).enrollments.lookup k' = s.enrollments.lookup k' :=
      h.enrollments k'
    simp only [Write.apply, hold, Entry.enrollment]
    split
    · next hk => rw [hk, he]
    · rfl
  · rintro k' e' hk'
    obtain ⟨rfl, -⟩ := Prod.mk.inj (Option.some.inj hk')
    exact Or.inr List.mem_cons_self

theorem logAudit (h : Entry.MadeBy ⟨payment, plan, none⟩ s ws) {a : AuditEntry} :
    Entry.MadeBy ⟨payment, plan, some a⟩ s (ws ++ [.audit a]) := by
  refine h.step _ h.payments h.enrollments ?_ (fun k e hk => Or.inl (h.locked k e hk)) ⟨rfl, rfl⟩
  have hold : (store.applyAll ws s).auditLogs = s.auditLogs ++ [] := h.auditLogs
  simp only [Write.apply, hold, List.append_nil, Option.toList_some]

theorem notify {entry : Entry} (h : entry.MadeBy s ws) {n : Notification} :
    entry.MadeBy s (ws ++ [.notification n]) :=
  h.step _ h.payments h.enrollments h.auditLogs (fun k e hk => Or.inl (h.locked k e hk)) ⟨rfl, rfl⟩

theorem putInvite {entry : Entry} (h : entry.MadeBy s ws) {k : Id} {row : EnrollmentInvite} :
    entry.MadeBy s (ws ++ [.putInvite k row]) :=
  h.step _ h.payments h.enrollments h.auditLogs (fun k e hk => Or.inl (h.locked k e hk)) ⟨rfl, rfl⟩

theorem putWebhookEvent {entry : Entry} (h : entry.MadeBy s ws) {k : String} {row : WebhookEvent} :
    entry.MadeBy s (ws ++ [.putWebhookEvent k row]) :=
  h.step _ h.payments h.enrollments h.auditLogs (fun k e hk => Or.inl (h.locked k e hk)) ⟨rfl, rfl⟩

theorem deleteWebhookEvent {entry : Entry} (h : entry.MadeBy s ws) {k : String} :
    entry.MadeBy s (ws ++ [.deleteWebhookEvent k]) :=
  h.step _ h.payments h.enrollments h.auditLogs (fun k e hk => Or.inl (h.locked k e hk)) ⟨rfl, rfl⟩

end Entry.MadeBy

section Operations

variable {K : Contract Db Write Answer} {E : Db → Db → Prop} {I : Exchanges → Db → Prop}
  {x : Context}

/-- What was found under a filter is there and passes it. -/
theorem filter_found {α : Type} {o found : Option α} {p : α → Bool} {a : α}
    (h : o.filter p = found) (hfound : found = some a) : o = some a ∧ p a = true := by
  rw [hfound, Option.filter_eq_some_iff] at h
  exact h

/-- The row of a payment found under a filter. -/
theorem filter_eq_payment {db : Db} {k : Id} {p : PaymentOfPlan → Bool}
    {found : Option PaymentOfPlan} {payment : PaymentOfPlan}
    (h : (db.payment? k).filter p = found) (hfound : found = some payment) :
    db.payments.lookup k = some payment.row :=
  (Db.payment?_eq_some (filter_found h hfound).1).2.1

/-! ### Installments -/

theorem confirmPayment_within (hS : Session K E I) {paymentId schoolId : Id}
    (howes : OwesWithin K E I (.confirm paymentId) schoolId) (hx : Rests I false x)
    {actor : AuditActor} :
    (Ledger.confirmPayment paymentId schoolId actor).wp store K
      (fun _ => Rests I false) (fun _ => Rests I false) x := by
  unfold Ledger.confirmPayment
  refine Routine.wp_bind (hx.outside.read hS fun found y hy => ?_)
  refine Routine.wp_bind (hy.orThrow fun payment hfound => ?_)
  refine Routine.wp_bind (hy.transaction hS fun _ _ hy => ?_)
  refine Routine.wp_bind (hy.ask hS (fun _ h => nomatch h) fun now y hy => ?_)
  refine Routine.wp_bind (hy.updatePayments hS (fun _ _ _ hy => ?_) fun p y hp hy => ?_)
  · exact Routine.wp_bind (hy.throwIf fun h => absurd rfl h)
  refine Routine.wp_bind (hy.throwIf fun _ => ?_)
  refine Routine.wp_bind (hy.findOrThrow_known hS fun before y hy => ?_)
  refine Routine.wp_bind (hy.updateEnrollment hS fun e y hy => ?_)
  refine Routine.wp_bind (hy.updateEnrollmentIf hS fun w y hy => ?_)
  refine Routine.wp_bind (hy.findOrThrow hS fun updatedPayment y hy => ?_)
  refine Routine.wp_bind (hy.record hS fun a y ha hy => ?_)
  refine Routine.wp_bind (hy.createNotification hS fun y hy => ?_)
  refine Routine.wp_pure (hy.commits_within hS howes (fun s hs hcoh => ?_) fun u _ _ hu => ?_)
  · simp only [decide_eq_true_eq] at hp
    obtain ⟨hschool, hunconfirmed, htype⟩ := hp
    obtain ⟨⟨⟨⟨⟨⟨-, c, hc, -, hfilter⟩, hp⟩, -⟩, he⟩, hw⟩, -⟩ := hs
    clear hy
    have hread := (hS.stable c s hc).payment (filter_eq_payment hfilter hfound) hp
    obtain ⟨hamount, -⟩ := hread.amounts (by rw [← hread.paymentType, htype]; exact nofun)
    rw [← hread.enrollmentId] at he hw ⊢
    rw [← hamount] at hw ⊢
    refine ⟨_, @Posting.confirm E s paymentId p e now a hp htype hunconfirmed he ha, ?_,
      hcoh.within hp hschool⟩
    unfold ChildEnrollment.paidDown
    rcases hw with ⟨hdone, e', rfl, he'⟩ | ⟨hopen, rfl⟩
    · rw [if_pos (of_decide_eq_true hdone)]
      obtain rfl := Option.some.inj ((AList.lookup_insert _).symm.trans he')
      exact (Entry.MadeBy.nil s).putPayment.putPlan.putPlanAgain.logAudit
    · rw [if_neg (fun h => hopen (decide_eq_true h)), List.append_nil]
      exact (Entry.MadeBy.nil s).putPayment.putPlan.logAudit
  · refine Routine.wp_bind (hu.outside.ask hS (fun _ h => nomatch h) fun _ y hy => ?_)
    exact Routine.wp_pure hy.rests

theorem confirmPayment_posts (hS : Session K E I) {paymentId : Id}
    (howes : Owes K E I (.confirm paymentId)) (hx : Rests I false x) {schoolId : Id} {actor : AuditActor} :
    (Ledger.confirmPayment paymentId schoolId actor).wp store K
      (fun _ => Rests I false) (fun _ => Rests I false) x :=
  confirmPayment_within hS (howes.within schoolId) hx

theorem rejectPayment_posts (hS : Session K E I) {paymentId schoolId : Id}
    (howes : Owes K E I (.reject paymentId schoolId)) (hx : Rests I false x)
    {actor : AuditActor} :
    (Ledger.rejectPayment paymentId schoolId actor).wp store K
      (fun _ => Rests I false) (fun _ => Rests I false) x := by
  unfold Ledger.rejectPayment
  refine Routine.wp_bind (hx.outside.read hS fun found y hy => ?_)
  refine Routine.wp_bind (hy.orThrow fun payment hfound => ?_)
  refine Routine.wp_bind (hy.transaction hS fun _ _ hy => ?_)
  refine Routine.wp_bind (hy.updatePayments hS (fun _ _ _ hy => ?_) fun p y hp hy => ?_)
  · exact Routine.wp_bind (hy.throwIf fun h => absurd rfl h)
  refine Routine.wp_bind (hy.throwIf fun _ => ?_)
  refine Routine.wp_bind (hy.findOrThrow hS fun updatedPayment y hy => ?_)
  refine Routine.wp_bind (hy.updateEnrollmentIf hS fun w y hy => ?_)
  refine Routine.wp_bind (hy.record hS fun a y ha hy => ?_)
  refine Routine.wp_bind (hy.createNotification hS fun y hy => ?_)
  refine Routine.wp_pure (hy.commits hS howes (fun s hs hcoh => ?_) fun u _ _ hu => ?_)
  · simp only [decide_eq_true_eq] at hp
    obtain ⟨hschool, hunconfirmed⟩ := hp
    obtain ⟨⟨⟨⟨-, c, hc, -, hfilter⟩, hp⟩, -⟩, hw⟩ := hs
    have hread := (hS.stable c s hc).payment (filter_eq_payment hfilter hfound) hp
    rw [← hread.enrollmentId, ← hread.paymentType] at hw
    rcases hw with ⟨hfirst, e, rfl, he⟩ | ⟨hother, rfl⟩
    · refine ⟨_, .close hp ⟨rfl, hschool⟩ (of_decide_eq_true hfirst) hunconfirmed he ?_,
        (Entry.MadeBy.nil s).putPayment.putPlan.logAudit⟩
      intro b hb
      obtain rfl := Option.some.inj hb
      exact Or.inl ha
    · rw [List.append_nil]
      exact ⟨_, .reject hp hschool (fun h => hother (decide_eq_true h)) hunconfirmed ha,
        (Entry.MadeBy.nil s).putPayment.logAudit⟩
  · refine Routine.wp_bind (hu.outside.ask hS (fun _ h => nomatch h) fun _ y hy => ?_)
    exact Routine.wp_pure hy.rests

/-- A reversal reads the plan in its third statement and updates it in its fourth. `W` is
    what the others keep of the plan in between. -/
theorem reversePayment_watched_within (hS : Session K E I) {paymentId schoolId : Id}
    {W : Id → Db → Db → Prop} (hrefl : ∀ k c, W k c c)
    (hrow : ∀ k c s t, s.enrollments.lookup k = t.enrollments.lookup k → W k c s →
      W k c t)
    (hwatch : ∀ u ws p c, u.ran = x.ran + 3 → u.tx = some [.putPayment paymentId p] →
      K.rely u ws → W p.enrollmentId c u.now →
      W p.enrollmentId c (store.applyAll ws u.now))
    (howes : OwesWithin K (fun c s => E c s ∧ ∀ p, s.payments.lookup paymentId = some p →
      W p.enrollmentId c s) I (.reverse paymentId) schoolId)
    (hx : Rests I false x) {actor : AuditActor} {reason : Option String} :
    (Ledger.reversePayment paymentId schoolId actor reason).wp store K
      (fun _ => Rests I false) (fun _ => Rests I false) x := by
  unfold Ledger.reversePayment
  refine Routine.wp_bind (wp_read_counted (hx.outside.read hS fun found y hy hfirst => ?_))
  refine Routine.wp_bind (hy.orThrow fun payment hfound => ?_)
  refine Routine.wp_bind (hy.transaction hS fun z hz' hy => ?_)
  refine Routine.wp_bind (wp_statement_counted (hy.updatePayments hS (fun _ _ _ hy _ => ?_)
    fun p y hp hy hsecond => ?_))
  · exact Routine.wp_bind (hy.throwIf fun h => absurd rfl h)
  refine Routine.wp_bind (hy.throwIf fun _ => ?_)
  refine Routine.wp_bind (hy.findOrThrow_now hS fun before y hthird hbefore hy => ?_)
  have hread : ∀ s, (∃ c, E c s ∧ Coherent c ∧ ((c.payment? paymentId).filter fun q =>
      q.row.schoolId = schoolId ∧ q.row.isConfirmed = true ∧ q.row.status = .SUCCESS ∧
        q.row.paymentType = .INSTALLMENT) = found) → s.payments.lookup paymentId = some p →
      payment.row.Continues p := by
    rintro s ⟨c, hc, -, hfilter⟩ hp
    exact (hS.stable c s hc).payment (filter_eq_payment hfilter hfound) hp
  have hplan := (hread y.now hy.holds.1.2 hy.holds.2).enrollmentId
  have hcoh := hy.coherent hS
  have hp₀ := hy.holds.2
  have hy := hy.also (Q := E y.now) (hS.refl _) fun s t hb hs => hS.trans _ _ _ hs hb.env
  refine Routine.wp_bind (hy.updateEnrollment_left hS fun e u z hd he hz => ?_)
  have hleft : W payment.row.enrollmentId y.now u.now := by
    refine hd.keeps (fun v ws htx hran hrely hw => ?_) (hrefl _ _)
    rw [← hplan] at hw ⊢
    refine hwatch v ws { p with status := .REVERSED, isConfirmed := false } y.now ?_ ?_ hrely hw
    · rw [hran, hthird, hsecond]
      exact congrArg (· + 2) (hz'.ran_eq.trans hfirst)
    · rw [htx, hy.begun]
      rfl
  refine Routine.wp_bind (hz.updateEnrollmentIf hS fun w z hz => ?_)
  refine Routine.wp_bind (hz.findOrThrow hS fun updatedPayment z hz => ?_)
  refine Routine.wp_bind (hz.record hS fun a z ha hz => ?_)
  refine Routine.wp_bind (hz.createNotification hS fun z hz => ?_)
  refine Routine.wp_pure (hz.commits_within hS howes (fun s hs hcoh' => ?_) fun u _ _ hu => ?_)
  · simp only [decide_eq_true_eq] at hp
    obtain ⟨hschool, hconfirmed, hstatus, htype⟩ := hp
    obtain ⟨⟨⟨⟨⟨⟨-, hbegun⟩, hp⟩, hc⟩, he'⟩, hw⟩, -⟩ := hs
    have hread := hread s hbegun hp
    obtain ⟨hamount, -⟩ := hread.amounts (by rw [← hread.paymentType, htype]; exact nofun)
    have hwatched : W payment.row.enrollmentId y.now s :=
      hrow _ _ u.now s (he.trans he'.symm) hleft
    rw [← hread.enrollmentId] at he' hw hbefore hwatched ⊢
    rw [← hamount] at hw ⊢
    refine ⟨_, @Posting.reverse _ s paymentId p e before y.now a hp htype hconfirmed hstatus he'
      ⟨hc, fun q hq => ?_⟩ hcoh hbefore ha hp₀, ?_, hcoh'.within hp hschool⟩
    · obtain rfl := Option.some.inj (hp.symm.trans hq)
      exact hwatched
    unfold ChildEnrollment.restored
    simp only [decide_eq_true_eq] at hw ⊢
    rcases hw with ⟨habove, e', rfl, he'⟩ | ⟨hwithin, rfl⟩
    · obtain rfl := Option.some.inj ((AList.lookup_insert _).symm.trans he')
      exact (Entry.MadeBy.nil s).putPayment.putPlan.putPlanAgain.logAudit
    · rw [List.append_nil, min_eq_left (not_lt.mp hwithin)]
      exact (Entry.MadeBy.nil s).putPayment.putPlan.logAudit
  · refine Routine.wp_bind (hu.outside.ask hS (fun _ h => nomatch h) fun _ y hy => ?_)
    exact Routine.wp_pure hy.rests

theorem reversePayment_watched (hS : Session K E I) {paymentId : Id}
    {W : Id → Db → Db → Prop} (hrefl : ∀ k c, W k c c)
    (hrow : ∀ k c s t, s.enrollments.lookup k = t.enrollments.lookup k → W k c s →
      W k c t)
    (hwatch : ∀ u ws p c, u.ran = x.ran + 3 → u.tx = some [.putPayment paymentId p] →
      K.rely u ws → W p.enrollmentId c u.now →
      W p.enrollmentId c (store.applyAll ws u.now))
    (howes : Owes K (fun c s => E c s ∧ ∀ p, s.payments.lookup paymentId = some p →
      W p.enrollmentId c s) I (.reverse paymentId))
    (hx : Rests I false x) {schoolId : Id} {actor : AuditActor} {reason : Option String} :
    (Ledger.reversePayment paymentId schoolId actor reason).wp store K
      (fun _ => Rests I false) (fun _ => Rests I false) x :=
  reversePayment_watched_within hS hrefl hrow hwatch (howes.within schoolId) hx

theorem reversePayment_within (hS : Session K E I) {paymentId schoolId : Id}
    (howes : OwesWithin K E I (.reverse paymentId) schoolId) (hx : Rests I false x)
    {actor : AuditActor} {reason : Option String} :
    (Ledger.reversePayment paymentId schoolId actor reason).wp store K
      (fun _ => Rests I false) (fun _ => Rests I false) x := by
  refine reversePayment_watched_within (W := fun _ _ _ => True) hS (fun _ _ => trivial)
    (fun _ _ _ _ _ _ => trivial) (fun _ _ _ _ _ _ _ _ => trivial) ?_ hx
  rintro y ws hI ⟨entry, hposting, hmade, hwithin⟩
  exact howes y ws hI ⟨entry, hposting.mono fun _ _ h => h.1, hmade, hwithin⟩

theorem reversePayment_posts (hS : Session K E I) {paymentId : Id}
    (howes : Owes K E I (.reverse paymentId)) (hx : Rests I false x) {schoolId : Id}
    {actor : AuditActor} {reason : Option String} :
    (Ledger.reversePayment paymentId schoolId actor reason).wp store K
      (fun _ => Rests I false) (fun _ => Rests I false) x :=
  reversePayment_within hS (howes.within schoolId) hx

/-- Writes that make no entry of their own. -/
def Beyond (w : List Write) : Prop :=
  ∀ (entry : Entry) (s : Db) (ws : List Write), entry.MadeBy s ws → entry.MadeBy s (ws ++ w)

theorem Beyond.nil : Beyond [] := by
  intro entry s ws h
  rw [List.append_nil]
  exact h

theorem Knows.insertNotificationIf (hS : Session K E I) {ws : List Write} {P : Db → Prop}
    (hx : Knows E I (some ws) P x) {c : Prop} [Decidable c] {n : Notification}
    {ok : Unit → Context → Prop}
    (h : ∀ w y, Beyond w → Knows E I (some (ws ++ w)) P y → ok () y) :
    (Routine.onlyIf c (Lopay.insertNotification n)).wp store K ok (fun _ => Rests I true) x := by
  refine Routine.wp_onlyIf (fun _ => ?_) fun _ => ?_
  · exact hx.insertNotification hS fun y hy => h _ y (fun _ _ _ hm => hm.notify) hy
  · exact h [] x .nil (by rw [List.append_nil]; exact hx)

/-! ### First payments -/

/-- Crediting a deposit updates the plan's row twice, in the end to `e.openedBy`. -/
theorem Knows.credit (hS : Session K E I) {ws : List Write} {P : Db → Prop}
    (hx : Knows E I (some ws) P x) {eid : Id} {amount : Int}
    {ok : Ledger.Credited → Context → Prop}
    (h : ∀ e credited y, Knows E I (some (ws ++
        [.putEnrollment eid { e with remainingBalance := e.remainingBalance - amount }] ++
        [.putEnrollment eid (e.openedBy amount)]))
      (fun s => P s ∧ (store.applyAll ws s).enrollments.lookup eid = some e) y →
        ok credited y) :
    (Ledger.creditFirstPaymentToBalance eid amount).wp store K ok (fun _ => Rests I true) x := by
  unfold Ledger.creditFirstPaymentToBalance
  refine Routine.wp_bind (hx.updateEnrollment hS fun e y hy => ?_)
  refine Routine.wp_bind (hy.updateEnrollment hS fun e' z hz => ?_)
  refine Routine.wp_pure (h e _ z ?_)
  have he' : e' = { e with remainingBalance := e.remainingBalance - amount } := by
    have hlook := hz.holds.2
    rw [Store.applyAll_append] at hlook
    exact (Option.some.inj ((AList.lookup_insert _).symm.trans hlook)).symm
  subst he'
  have hrow : ({ e with
      remainingBalance := max 0 (e.remainingBalance - amount)
      paymentStatus := if decide (e.remainingBalance - amount ≤ 0) = true then .COMPLETED
        else .ACTIVE } : ChildEnrollment) = e.openedBy amount := by
    simp only [ChildEnrollment.openedBy, decide_eq_true_eq]
  rw [← hrow]
  exact { hz with holds := hz.holds.1, keeps := fun s t hb => hy.keeps s t hb.weaken }

theorem settleFirstPayment_posts (hS : Session K E I)
    (howes : Owes K E I (.credit .FIRST_PAYMENT_SETTLED)) (hx : Rests I false x)
    {paymentId : Id} {actor : AuditActor} :
    (Ledger.settleFirstPayment paymentId actor).wp store K
      (fun _ => Rests I false) (fun _ => Rests I false) x := by
  unfold Ledger.settleFirstPayment
  refine Routine.wp_bind (hx.outside.read hS fun found y hy => ?_)
  refine Routine.wp_bind (hy.orThrow fun payment hfound => ?_)
  refine Routine.wp_bind (hy.transaction hS fun _ _ hy => ?_)
  refine Routine.wp_bind (hy.updatePayments hS (fun _ _ _ hy => ?_) fun p y hp hy => ?_)
  · rw [if_pos rfl]
    refine Routine.wp_pure (hy.commits_nothing hS fun _ _ hu => ?_)
    exact Routine.wp_bind (hu.orThrow fun _ h => nomatch h)
  rw [if_neg (by decide)]
  refine Routine.wp_bind (hy.credit hS fun e credited y hy => ?_)
  refine Routine.wp_bind (hy.record hS fun a y ha hy => ?_)
  refine Routine.wp_bind (hy.insertNotification hS fun y hy => ?_)
  refine Routine.wp_bind (hy.insertNotification hS fun y hy => ?_)
  refine Routine.wp_pure (hy.commits hS howes (fun s hs hcoh => ?_) fun u _ _ hu => ?_)
  · obtain ⟨⟨⟨-, c, hc, -, hfilter⟩, hp'⟩, he⟩ := hs
    obtain ⟨hpayment, hmanual⟩ := filter_found hfilter hfound
    obtain ⟨hid, hrow, -⟩ := Db.payment?_eq_some hpayment
    rw [hid] at hp' ha ⊢
    have hread := (hS.stable c s hc).payment hrow hp'
    simp only [Ledger.isManualFirstPayment, decide_eq_true_eq] at hmanual
    have htype : p.paymentType = .FIRST_PAYMENT := by rw [hread.paymentType, hmanual.1]
    obtain ⟨-, hamount⟩ := hread.amounts (by rw [hmanual.1]; exact nofun)
    have href : p.paystackReference = none := by rw [hread.paystackReference, hmanual.2.2.2]
    rw [← hread.enrollmentId] at he ⊢
    rw [← hamount]
    refine ⟨_, @Posting.credit E s .FIRST_PAYMENT_SETTLED paymentId p e p.paymentDate
      p.actualPaystackFee a (Or.inl rfl) hp' htype (of_decide_eq_true hp) nofun he ha
      (fun _ => href), ?_⟩
    exact (Entry.MadeBy.nil s).putPayment.putPlan.putPlanAgain.logAudit.notify.notify
  · refine Routine.wp_bind (Routine.wp_orThrow (fun _ => hu) fun pushed _ => ?_)
    refine Routine.wp_bind (hu.outside.ask hS (fun _ h => nomatch h) fun _ y hy => ?_)
    refine Routine.wp_bind (hy.emitChanges hS fun y hy => ?_)
    exact Routine.wp_pure hy.rests

theorem rejectFirstPayment_posts (hS : Session K E I) {paymentId : Id}
    (howes : Owes K E I (.rejectFirst paymentId)) (hx : Rests I false x) {actor : AuditActor} :
    (Ledger.rejectFirstPayment paymentId actor).wp store K
      (fun _ => Rests I false) (fun _ => Rests I false) x := by
  unfold Ledger.rejectFirstPayment
  refine Routine.wp_bind (hx.outside.read hS fun found y hy => ?_)
  refine Routine.wp_bind (hy.orThrow fun payment hfound => ?_)
  refine Routine.wp_bind (hy.transaction hS fun _ _ hy => ?_)
  refine Routine.wp_bind (hy.updatePayments hS (fun _ _ _ hy => ?_) fun p y hp hy => ?_)
  · rw [if_pos rfl]
    refine Routine.wp_pure (hy.commits_nothing hS fun _ _ hu => ?_)
    exact Routine.wp_bind (hu.orThrow fun _ h => nomatch h)
  rw [if_neg (by decide)]
  refine Routine.wp_bind (hy.updateEnrollment hS fun e y hy => ?_)
  refine Routine.wp_bind (hy.record hS fun a y ha hy => ?_)
  refine Routine.wp_bind (hy.insertNotification hS fun y hy => ?_)
  refine Routine.wp_bind (hy.insertNotification hS fun y hy => ?_)
  refine Routine.wp_pure (hy.commits hS howes (fun s hs hcoh => ?_) fun u _ _ hu => ?_)
  · obtain ⟨⟨⟨-, c, hc, -, hfilter⟩, hp'⟩, he⟩ := hs
    obtain ⟨hpayment, hmanual⟩ := filter_found hfilter hfound
    obtain ⟨hid, hrow, -⟩ := Db.payment?_eq_some hpayment
    rw [hid] at hp' ha ⊢
    have hread := (hS.stable c s hc).payment hrow hp'
    simp only [Ledger.isManualFirstPayment, decide_eq_true_eq] at hmanual
    obtain ⟨htype, hreceiver, -, href⟩ := hmanual
    rw [← hread.paymentType] at htype
    rw [← hread.receiver] at hreceiver
    rw [← hread.paystackReference] at href
    rw [← hread.enrollmentId] at he ⊢
    refine ⟨_, .close hp' ⟨rfl, htype, hreceiver, href⟩ htype (of_decide_eq_true hp) he ?_,
      (Entry.MadeBy.nil s).putPayment.putPlan.logAudit.notify.notify⟩
    intro b hb
    obtain rfl := Option.some.inj hb
    exact Or.inr ha
  · refine Routine.wp_bind (Routine.wp_orThrow (fun _ => hu) fun pushed _ => ?_)
    refine Routine.wp_bind (hu.outside.ask hS (fun _ h => nomatch h) fun _ y hy => ?_)
    refine Routine.wp_bind (hy.emitChanges hS fun y hy => ?_)
    exact Routine.wp_pure hy.rests

theorem confirmFirstPayment_within (hS : Session K E I) {enrollmentId schoolId : Id}
    (howes : OwesWithin K E I (.credit .FIRST_PAYMENT_CONFIRMED) schoolId) (hx : Rests I false x)
    {actor : AuditActor} :
    (Ledger.confirmFirstPayment enrollmentId schoolId actor).wp store K
      (fun _ => Rests I false) (fun _ => Rests I false) x := by
  unfold Ledger.confirmFirstPayment
  refine Routine.wp_bind (hx.outside.transaction hS fun _ _ hy => ?_)
  refine Routine.wp_bind (hy.read hS fun found y hy => ?_)
  refine Routine.wp_bind (hy.orThrow fun enrollment henrollment => ?_)
  refine Routine.wp_bind (hy.throwIf fun hown => ?_)
  refine Routine.wp_bind (hy.throwIf fun _ => ?_)
  refine Routine.wp_bind (hy.findFirst hS fun first y hy => ?_)
  cases first with
  | none =>
    refine Routine.wp_bind (hy.findFirst hS fun cardPayment y hy => ?_)
    exact Routine.wp_bind (hy.throwIf fun _ => Routine.wp_throw hy.rests)
  | some first =>
    obtain ⟨paymentId, payment⟩ := first
    refine Routine.wp_bind (hy.ask hS (fun _ h => nomatch h) fun now y hy => ?_)
    refine Routine.wp_bind (hy.updatePayments hS (fun _ _ _ hy => ?_) fun p y hp hy => ?_)
    · exact Routine.wp_bind (hy.throwIf fun h => absurd rfl h)
    refine Routine.wp_bind (hy.throwIf fun _ => ?_)
    refine Routine.wp_bind (hy.credit hS fun e credited y hy => ?_)
    refine Routine.wp_bind (hy.record hS fun a y ha hy => ?_)
    refine Routine.wp_bind (hy.createNotification hS fun y hy => ?_)
    refine Routine.wp_pure (hy.commits_within hS howes (fun s hs hcoh => ?_) fun u _ _ hu => ?_)
    · obtain ⟨⟨⟨⟨-, c', hc', -, hplan⟩, c, hc, -, hfound⟩, hp'⟩, he⟩ := hs
      obtain ⟨hmem, hcond⟩ := List.mem_filter.mp (hfound _ rfl)
      simp only [decide_eq_true_eq] at hcond
      have hread := (hS.stable c s hc).payment (Table.mem_rows.mp hmem) hp'
      have htype : p.paymentType = .FIRST_PAYMENT := by rw [hread.paymentType, hcond.2.1]
      obtain ⟨-, hamount⟩ := hread.amounts (by rw [hcond.2.1]; exact nofun)
      have href : p.paystackReference = none := by
        rw [hread.paystackReference]
        exact Option.isSome_eq_false_iff.mp hcond.2.2.2 |> Option.isNone_iff_eq_none.mp
      have hschool : p.schoolId = schoolId := by
        obtain ⟨-, hthen⟩ := Db.plan?_eq_some (hplan.trans henrollment)
        obtain ⟨e₀, he₀, hof, -⟩ := hcoh.planOf hp'
        rw [hread.enrollmentId, hcond.1] at he₀
        rw [hof, ((hS.stable c' s hc').enrollment hthen he₀).schoolId]
        exact not_not.mp hown
      rw [← hcond.1, ← hread.enrollmentId] at he ⊢
      rw [← hamount]
      refine ⟨_, @Posting.credit E s .FIRST_PAYMENT_CONFIRMED paymentId p e now
        p.actualPaystackFee a (Or.inr (Or.inl rfl)) hp' htype (of_decide_eq_true hp) nofun he ha
        (fun _ => href), ?_, hcoh.within hp' hschool⟩
      exact (Entry.MadeBy.nil s).putPayment.putPlan.putPlanAgain.logAudit
    · refine Routine.wp_bind (hu.outside.emitChanges hS fun y hy => ?_)
      exact Routine.wp_pure hy.rests

theorem confirmFirstPayment_posts (hS : Session K E I)
    (howes : Owes K E I (.credit .FIRST_PAYMENT_CONFIRMED)) (hx : Rests I false x)
    {enrollmentId schoolId : Id} {actor : AuditActor} :
    (Ledger.confirmFirstPayment enrollmentId schoolId actor).wp store K
      (fun _ => Rests I false) (fun _ => Rests I false) x :=
  confirmFirstPayment_within hS (howes.within schoolId) hx

/-! ### Migrated plans -/

theorem recordMigratedEnrollment_posts (hS : Session K E I) (howes : Owes K E I .migrate)
    (hx : Rests I false x) {inviteId childId parentUserId : Id} {invite : EnrollmentInvite}
    {actor : AuditActor} (hfee : 0 < invite.totalSchoolFee)
    (hpaid : 0 ≤ invite.amountAlreadyPaid)
    (hle : invite.amountAlreadyPaid ≤ invite.totalSchoolFee) :
    (Lopay.transaction (Ledger.recordMigratedEnrollment inviteId invite childId parentUserId
      actor)).wp store K (fun _ => Rests I false) (fun _ => Rests I false) x := by
  refine hx.outside.transaction hS fun _ _ hy => ?_
  unfold Ledger.recordMigratedEnrollment
  refine Routine.wp_bind (hy.ask hS (fun _ h => nomatch h) fun enrollmentId y hy => ?_)
  refine Routine.wp_bind (Routine.wp_tryCatch (Routine.wp_mono (fun _ _ h => h)
    (fun e y hy => Routine.wp_throw hy) (hy.createEnrollment hS fun y hy => ?_)))
  refine Routine.wp_bind (hy.ask hS (fun _ h => nomatch h) fun paymentId y hy => ?_)
  refine Routine.wp_bind (hy.ask hS (fun _ h => nomatch h) fun now y hy => ?_)
  refine Routine.wp_bind (hy.createPayment hS fun y hy => ?_)
  refine Routine.wp_bind (hy.record hS fun a y ha hy => ?_)
  refine Routine.wp_pure (hy.commits hS howes (fun s hs hcoh => ?_) fun u _ _ hu => hu)
  obtain ⟨⟨-, hnew, hchild, hschool⟩, hfresh, -⟩ := hs
  exact ⟨_, .migrate hfresh hnew hfee hpaid hle hchild hschool ha,
    (Entry.MadeBy.nil s).putPlan.putPayment.logAudit⟩

/-- The invite of a plan is restated along with it. -/
theorem Knows.restateInvite (hS : Session K E I) {ws : List Write} {P : Db → Prop}
    (hx : Knows E I (some ws) P x) {inviteId : Option Id} {amount : Int}
    {ok : Unit → Context → Prop}
    (h : ∀ w y, Beyond w → Knows E I (some (ws ++ w)) P y → ok () y) :
    (Ledger.restateInvite inviteId amount).wp store K ok (fun _ => Rests I true) x := by
  unfold Ledger.restateInvite
  cases inviteId with
  | none => exact Routine.wp_pure (h [] x .nil (by rw [List.append_nil]; exact hx))
  | some inviteId =>
    refine hx.statement hS fun a w y _ hy hf => ?_
    have hwrote := hy.wrote (Q := fun _ => True) (v := w) trivial fun _ _ _ _ => trivial
    refine h w _ ?_ { hwrote with
      holds := hwrote.holds.1, keeps := fun s t hb => hy.keeps s t hb.weaken }
    split at hf
    · obtain ⟨-, rfl⟩ := Prod.mk.inj (Except.ok.inj hf)
      exact fun _ _ _ hm => hm.putInvite
    · obtain ⟨-, rfl⟩ := Prod.mk.inj (Except.ok.inj hf)
      exact .nil

/-- What a correction commits: it has found one of the migrated payments in `rows` as it was
    read, and the balance follows from what is confirmed on the plan by now. -/
structure Amends (enrollmentId : Id) (newAmount : Int) (rows : List (Id × Payment)) (s : Db)
    (ws : List Write) (k : Id) (p : Payment) (e : ChildEnrollment) (a : AuditEntry) : Prop where
  read : ∃ r, (k, r) ∈ rows ∧ p.amountPaid = r.amountPaid
  payment : s.payments.lookup k = some p
  paymentType : p.paymentType = .MIGRATED_PAYMENT
  status : p.status = .SUCCESS
  plan : p.enrollmentId = enrollmentId
  row : s.enrollments.lookup enrollmentId = some e
  nonneg : 0 ≤ newAmount
  differs : p.amountPaid ≠ newAmount
  within : 0 ≤ e.totalSchoolFee - newAmount - Ledger.installmentsConfirmed enrollmentId s
  isAbout : a.IsAbout .MIGRATED_PAYMENT_AMENDED k
  made : Entry.Made
    ⟨some (k, { p with amountPaid := newAmount, schoolAmount := newAmount }),
      some (enrollmentId, e.amended newAmount (Ledger.installmentsConfirmed enrollmentId s)),
      some a⟩ s (store.applyAll ws s) (store.locksOf ws)

theorem Amends.posts {enrollmentId k : Id} {newAmount : Int} {rows : List (Id × Payment)} {s : Db}
    {ws : List Write} {p : Payment} {e : ChildEnrollment} {a : AuditEntry}
    (h : Amends enrollmentId newAmount rows s ws k p e a) : Posts E .amend s ws := by
  obtain ⟨-, hp, htype, hstatus, rfl, he, hnonneg, -, hwithin, ha, hmade⟩ := h
  exact ⟨_, .amend hp htype hstatus hnonneg he hwithin ha, hmade⟩

/-- What a correction reads first. -/
def amendedPlan (enrollmentId schoolId : Id) (db : Db) : Option (Plan × List (Id × Payment)) :=
  ((db.plan? enrollmentId).filter fun e => e.row.schoolId = schoolId).map fun e =>
    (e, Ledger.migratedPayments enrollmentId db)

/-- A correction goes on with what it has read, and ends well only after a commit that its
    contract admits. -/
theorem amendMigratedPayment_knowing (hS : Session K E I) (enrollmentId : Id)
    (newAmountKobo : Int) (schoolId : Id) (actor : AuditActor) (reason : Option String) :
    ∃ f : Option (Plan × List (Id × Payment)) → Action Ledger.Amended,
      Ledger.amendMigratedPayment enrollmentId newAmountKobo schoolId actor reason =
        (do
          Routine.throwIf (newAmountKobo < 0) (.badRequest "Corrected amount must be zero or more")
          let found ← read (amendedPlan enrollmentId schoolId)
          f found) ∧
      ∀ (P : Db → Prop) found x, 0 ≤ newAmountKobo → Knows E I none P x →
        (∀ s, P s → ∃ c, Stable c s ∧ amendedPlan enrollmentId schoolId c = found) →
        (∀ y ws k p e a, P y.now → I y.log y.now → (∃ plan rows, found = some (plan, rows) ∧
          Amends enrollmentId newAmountKobo rows y.now ws k p e a) → K.admits y ws →
          K.guarantee y ws ∧ I y.log (store.applyAll ws y.now)) →
        (f found).wp store K (fun _ y => Rests I false y ∧ ∃ u ws, K.admits u ws)
          (fun _ => Rests I false) x := by
  refine ⟨_, rfl, fun P found x hnonneg hy hP howed => ?_⟩
  refine Routine.wp_bind (hy.orThrow fun plan hfound => ?_)
  obtain ⟨enrollment, payments⟩ := plan
  refine Routine.wp_bind (hy.ask hS (fun _ h => nomatch h) fun order y hy => ?_)
  refine Routine.wp_bind (hy.orThrow fun picked hpicked => ?_)
  obtain ⟨migratedId, migrated⟩ := picked
  refine Routine.wp_bind (hy.throwIf fun _ => ?_)
  refine Routine.wp_bind (hy.throwIf fun hdiffers => ?_)
  refine Routine.wp_bind (hy.transaction hS fun _ _ hy => ?_)
  refine Routine.wp_bind (hy.lockEnrollment hS fun row y hy => ?_)
  refine Routine.wp_bind (hy.orThrow fun locked hlocked => ?_)
  refine Routine.wp_bind (hy.read_locked hS
    (Q := fun v s => Ledger.installmentsConfirmed enrollmentId s = v) (fun s _ => rfl) ?_
    fun installmentsPaid y hy => ?_)
  · intro v s t hb hv
    rw [(hb.quiet enrollmentId (by simp [Write.locks])).confirmed, hv]
  refine Routine.wp_bind (hy.throwIf fun hwithin => ?_)
  refine Routine.wp_bind (hy.updatePayments hS (fun _ _ _ hy => ?_) fun p y hp hy => ?_)
  · exact Routine.wp_bind (hy.throwIf fun h => absurd rfl h)
  refine Routine.wp_bind (hy.throwIf fun _ => ?_)
  refine Routine.wp_bind (hy.updateEnrollment hS fun e y hy => ?_)
  refine Routine.wp_bind (hy.restateInvite hS fun w y hw hy => ?_)
  refine Routine.wp_bind (hy.record hS fun a y ha hy => ?_)
  refine Routine.wp_pure (hy.commits_owed hS (fun u hs hI hadmits => ?_) fun u _ _ ha hu => ?_)
  · obtain ⟨⟨⟨⟨hread, hrow⟩, hpaid⟩, hp'⟩, he⟩ := hs
    obtain ⟨c, hstable, hplan⟩ := hP u.now hread
    simp only [decide_eq_true_eq] at hp
    obtain ⟨hamount, hstatus, htype⟩ := hp
    rw [hfound, amendedPlan, Option.map_eq_some_iff] at hplan
    obtain ⟨plan, -, hpair⟩ := hplan
    obtain ⟨rfl, rfl⟩ := Prod.mk.inj hpair
    have hpick := mem_of_mem_arrange (List.mem_of_head? hpicked)
    obtain ⟨hmem, hcond⟩ := List.mem_filter.mp hpick
    simp only [decide_eq_true_eq] at hcond
    have hcontinues := hstable.payment (Table.mem_rows.mp hmem) hp'
    have hplan : p.enrollmentId = enrollmentId := by rw [hcontinues.enrollmentId, hcond.1]
    have hsame : e = locked := by
      have hlookup : u.now.enrollments.lookup enrollmentId = some e := he
      rw [hlocked] at hrow
      exact Option.some.inj (hlookup.symm.trans hrow)
    subst hsame hpaid
    refine howed u _ migratedId p e a hread hI ⟨plan, _, hfound, ⟨migrated, hpick, hamount⟩, hp', htype,
      hstatus, hplan, he, hnonneg, ?_, not_lt.mp hwithin, ha, ?_⟩ hadmits
    · rw [hamount]
      exact hdiffers
    · exact (hw _ _ _ ((Entry.MadeBy.nil u.now).lockPlan he).putPayment.putPlanAgain).logAudit
  · have hadmitted : ∃ u ws, K.admits u ws := ⟨u, _, ha (by simp)⟩
    refine Routine.wp_bind (hu.outside.emitChanges hS fun y hy => ?_)
    refine Routine.wp_bind (Routine.wp_tryCatch (Routine.wp_mono (fun _ _ h => h)
      (fun e z hz => Routine.wp_pure ?_) (hy.createNotification hS fun z hz => ?_)))
    · exact Routine.wp_pure ⟨hz, hadmitted⟩
    · exact Routine.wp_pure ⟨hz.rests, hadmitted⟩

/-- The same, for commits that are owed whatever is known. -/
theorem amendMigratedPayment_begins (hS : Session K E I) (enrollmentId : Id)
    (newAmountKobo : Int) (schoolId : Id) (actor : AuditActor) (reason : Option String) :
    ∃ f : Option (Plan × List (Id × Payment)) → Action Ledger.Amended,
      Ledger.amendMigratedPayment enrollmentId newAmountKobo schoolId actor reason =
        (do
          Routine.throwIf (newAmountKobo < 0) (.badRequest "Corrected amount must be zero or more")
          let found ← read (amendedPlan enrollmentId schoolId)
          f found) ∧
      ∀ (P : Db → Prop) found x, 0 ≤ newAmountKobo → Knows E I none P x →
        (∀ s, P s → ∃ c, Stable c s ∧ amendedPlan enrollmentId schoolId c = found) →
        (∀ y ws k p e a, I y.log y.now → (∃ plan rows, found = some (plan, rows) ∧
          Amends enrollmentId newAmountKobo rows y.now ws k p e a) → K.admits y ws →
          K.guarantee y ws ∧ I y.log (store.applyAll ws y.now)) →
        (f found).wp store K (fun _ y => Rests I false y ∧ ∃ u ws, K.admits u ws)
          (fun _ => Rests I false) x := by
  obtain ⟨f, hbegins, hbody⟩ := amendMigratedPayment_knowing hS enrollmentId newAmountKobo schoolId
    actor reason
  refine ⟨f, hbegins, fun P found x hnonneg hx hP howed => hbody P found x hnonneg hx hP ?_⟩
  exact fun y ws k p e a _ => howed y ws k p e a

theorem amendMigratedPayment_within (hS : Session K E I) {schoolId : Id}
    (howes : OwesWithin K E I .amend schoolId) (hx : Rests I false x) {enrollmentId : Id}
    {newAmountKobo : Int} {actor : AuditActor} {reason : Option String} :
    (Ledger.amendMigratedPayment enrollmentId newAmountKobo schoolId actor reason).wp store K
      (fun _ => Rests I false) (fun _ => Rests I false) x := by
  obtain ⟨f, hbegins, hbody⟩ := amendMigratedPayment_knowing hS enrollmentId newAmountKobo schoolId
    actor reason
  rw [hbegins]
  refine Routine.wp_bind (Routine.wp_throwIf (fun _ => hx) fun hnonneg => ?_)
  refine Routine.wp_bind (hx.outside.read hS fun found y hy => ?_)
  have hread : ∀ s, (True ∧ ∃ c, E c s ∧ Coherent c ∧
      amendedPlan enrollmentId schoolId (store.applyAll [] c) = found) →
      ∃ c, Stable c s ∧ amendedPlan enrollmentId schoolId c = found := by
    rintro s ⟨-, c, hc, -, hfound⟩
    exact ⟨c, hS.stable c s hc, hfound⟩
  refine Routine.wp_mono (fun _ _ h => h.1) (fun _ _ h => h)
    (hbody _ found y (not_lt.mp hnonneg) hy hread ?_)
  rintro y ws k p e a hP hI ⟨plan, rows, hfound, hamends⟩ hadmits
  obtain ⟨c, hstable, hplan⟩ := hread _ hP
  rw [hfound, amendedPlan, Option.map_eq_some_iff] at hplan
  obtain ⟨plan', hfilter, -⟩ := hplan
  obtain ⟨hthen, hown⟩ := Option.filter_eq_some_iff.mp hfilter
  obtain ⟨-, hp, htype, hstatus, rfl, he, hnonneg', -, hwithin, ha, hmade⟩ := hamends
  have hschool : p.schoolId = schoolId := by
    obtain ⟨e₀, he₀, hof, -⟩ := (hS.coherent _ _ hI).planOf hp
    rw [hof, (hstable.enrollment (Db.plan?_eq_some hthen).2 he₀).schoolId]
    exact of_decide_eq_true hown
  refine howes y ws hI ⟨_, .amend hp htype hstatus hnonneg' he hwithin ha, hmade, ?_⟩ hadmits
  exact (hS.coherent _ _ hI).within hp hschool

theorem amendMigratedPayment_admitted (hS : Session K E I) (howes : Owes K E I .amend)
    (hx : Rests I false x) {enrollmentId : Id} {newAmountKobo : Int} {schoolId : Id}
    {actor : AuditActor} {reason : Option String} :
    (Ledger.amendMigratedPayment enrollmentId newAmountKobo schoolId actor reason).wp store K
      (fun _ y => Rests I false y ∧ ∃ u ws, K.admits u ws) (fun _ => Rests I false) x := by
  obtain ⟨f, hbegins, hbody⟩ := amendMigratedPayment_begins hS enrollmentId newAmountKobo schoolId
    actor reason
  rw [hbegins]
  refine Routine.wp_bind (Routine.wp_throwIf (fun _ => hx) fun hnonneg => ?_)
  refine Routine.wp_bind (hx.outside.read hS fun found y hy => ?_)
  refine hbody _ found y (not_lt.mp hnonneg) hy ?_ ?_
  · rintro s ⟨-, c, hc, -, hfound⟩
    exact ⟨c, hS.stable c s hc, hfound⟩
  · rintro y ws k p e a hI ⟨plan, rows, -, hamends⟩ hadmits
    exact howes y ws hI hamends.posts hadmits

theorem amendMigratedPayment_posts (hS : Session K E I) (howes : Owes K E I .amend)
    (hx : Rests I false x) {enrollmentId : Id} {newAmountKobo : Int} {schoolId : Id}
    {actor : AuditActor} {reason : Option String} :
    (Ledger.amendMigratedPayment enrollmentId newAmountKobo schoolId actor reason).wp store K
      (fun _ => Rests I false) (fun _ => Rests I false) x :=
  Routine.wp_mono (fun _ _ h => h.1) (fun _ _ h => h) (amendMigratedPayment_admitted hS howes hx)

/-! ### Defaulted plans -/

theorem markEnrollmentAsDefaulted_within (hS : Session K E I) {enrollmentId schoolId : Id}
    (howes : OwesWithin K E I (.markDefaulted enrollmentId) schoolId) (hx : Rests I false x)
    {actor : AuditActor} :
    (Ledger.markEnrollmentAsDefaulted enrollmentId schoolId actor).wp store K
      (fun _ => Rests I false) (fun _ => Rests I false) x := by
  unfold Ledger.markEnrollmentAsDefaulted
  refine Routine.wp_bind (hx.outside.read hS fun found y hy => ?_)
  refine Routine.wp_bind (hy.orThrow fun enrollment hfound => ?_)
  refine Routine.wp_bind (hy.transaction hS fun _ _ hy => ?_)
  refine Routine.wp_bind (hy.updateEnrollment hS fun e y hy => ?_)
  refine Routine.wp_bind (hy.record hS fun a y ha hy => ?_)
  refine Routine.wp_bind (hy.createNotification hS fun y hy => ?_)
  refine Routine.wp_pure (hy.commits_within hS howes (fun s hs hcoh => ?_) fun u _ _ hu => ?_)
  · obtain ⟨⟨-, c, hc, -, hfilter⟩, he⟩ := hs
    obtain ⟨hplan, hown⟩ := filter_found hfilter hfound
    obtain ⟨-, hthen⟩ := Db.plan?_eq_some hplan
    refine ⟨_, .markDefaulted he ha, (Entry.MadeBy.nil s).putPlan.logAudit, ?_, ?_⟩
    · intro k q hk
      cases hk
    · intro k e' hk
      obtain ⟨rfl, -⟩ := Prod.mk.inj (Option.some.inj hk)
      refine ⟨e, he, ?_⟩
      rw [((hS.stable c s hc).enrollment hthen he).schoolId]
      exact of_decide_eq_true hown
  · refine Routine.wp_bind (hu.outside.ask hS (fun _ h => nomatch h) fun _ y hy => ?_)
    exact Routine.wp_pure hy.rests

theorem markEnrollmentAsDefaulted_posts (hS : Session K E I) {enrollmentId : Id}
    (howes : Owes K E I (.markDefaulted enrollmentId)) (hx : Rests I false x) {schoolId : Id}
    {actor : AuditActor} :
    (Ledger.markEnrollmentAsDefaulted enrollmentId schoolId actor).wp store K
      (fun _ => Rests I false) (fun _ => Rests I false) x :=
  markEnrollmentAsDefaulted_within hS (howes.within schoolId) hx

theorem markEnrollmentDefaultedBySweep_posts (hS : Session K E I)
    (howes : Owes K E I .sweepDefaulted) (hx : Rests I false x) {enrollment : Plan} :
    (Ledger.markEnrollmentDefaultedBySweep enrollment).wp store K
      (fun _ => Rests I false) (fun _ => Rests I false) x := by
  unfold Ledger.markEnrollmentDefaultedBySweep
  refine Routine.wp_bind (hx.outside.transaction hS fun _ _ hy => ?_)
  refine Routine.wp_bind (hy.updateEnrollments hS (fun y hy => ?_) fun e y he hy => ?_)
  · rw [if_pos rfl]
    exact Routine.wp_pure (hy.commits_nothing hS fun _ _ hu => Routine.wp_pure hu.rests)
  rw [if_neg (by decide)]
  refine Routine.wp_bind (hy.record hS fun a y ha hy => ?_)
  refine Routine.wp_bind (hy.insertNotification hS fun y hy => ?_)
  refine Routine.wp_pure (hy.commits hS howes (fun s hs hcoh => ?_) fun u _ _ hu => ?_)
  · obtain ⟨hactive, hpositive⟩ := of_decide_eq_true he
    exact ⟨_, .sweepDefaulted hs.2 hactive hpositive ha,
      (Entry.MadeBy.nil s).putPlan.logAudit.notify⟩
  · refine Routine.wp_bind (hu.outside.ask hS (fun _ h => nomatch h) fun _ y hy => ?_)
    refine Routine.wp_bind (hy.ask hS (fun _ h => nomatch h) fun _ y hy => ?_)
    exact Routine.wp_pure hy.rests

theorem runDetection_posts (hS : Session K E I) (howes : Owes K E I .sweepDefaulted)
    (hx : Rests I false x) :
    DefaulterDetection.runDetection.wp store K
      (fun _ => Rests I false) (fun _ => Rests I false) x := by
  unfold DefaulterDetection.runDetection
  refine Routine.wp_bind (hx.outside.ask hS (fun _ h => nomatch h) fun now y hy => ?_)
  refine Routine.wp_bind (hy.read hS fun overdue y hy => ?_)
  refine Routine.wp_bind (Routine.wp_mapM hy.rests (fun plan _ z hz => ?_) fun _ z hz => ?_)
  · exact markEnrollmentDefaultedBySweep_posts hS howes hz
  · exact Routine.wp_pure hz

end Operations

end Lopay
