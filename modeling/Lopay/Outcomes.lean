import Lopay.Enrollment.Outcome
import Lopay.Reconciles
import Lopay.Transactions.Counting
import Lopay.Transactions.Follow

/-!
# What the screen after a payment can be trusted with

Requests for the outcome of a payment, beside all payment operations. Such a request may settle
the charge it is about; what it answers is one committed state of the books, and once it has
answered anything else than that the payment is being processed, no later request answers that.
-/

namespace Lopay

open Transactions

/-! ### Settled payments -/

/-- A payment that is not open any more is never open again. -/
structure Settling (s t : Db) : Prop where
  stable : Stable s t
  settled : ∀ k p q, s.payments.lookup k = some p → p.status ≠ .PENDING →
    t.payments.lookup k = some q → q.status ≠ .PENDING

theorem Settling.refl (s : Db) : Settling s s where
  stable := .refl s
  settled := by
    intro k p q hp hsettled hq
    rw [← Option.some.inj (hp.symm.trans hq)]
    exact hsettled

theorem Settling.trans {s t u : Db} (h : Settling s t) (h' : Settling t u) : Settling s u where
  stable := h.stable.trans h'.stable
  settled := by
    intro k p q hp hsettled hq
    rcases h.stable.payments k p hp with ⟨r, hr, -⟩
    exact h'.settled k r q hr (h.settled k p r hp hsettled hr) hq

/-- Nothing that is posted opens a payment that is there. -/
theorem Posting.leaves_settled {E : Db → Db → Prop} {s : Db} {kind : Kind} {entry : Entry}
    (h : Posting E s kind entry) {k : Id} {p q : Payment} (hp : s.payments.lookup k = some p)
    (hsettled : p.status ≠ .PENDING) (hq : entry.payment = some (k, q)) : q.status ≠ .PENDING := by
  have hput : ∀ {k' : Id} {p' q' : Payment}, s.payments.lookup k' = some p' →
      some (k', q') = some (k, q) → p' = p ∧ q' = q := by
    intro k' p' q' hp' heq
    rcases Prod.mk.inj (Option.some.inj heq) with ⟨rfl, rfl⟩
    exact ⟨Option.some.inj (hp'.symm.trans hp), rfl⟩
  have hnew : ∀ {k' : Id} {q' : Payment}, s.payments.lookup k' = none →
      some (k', q') = some (k, q) → False := by
    intro k' q' hfresh heq
    rw [(Prod.mk.inj (Option.some.inj heq)).1, hp] at hfresh
    cases hfresh
  cases h with
  | confirm hrow | credit _ hrow | reverse hrow | reject hrow | close hrow | dispute hrow =>
    rw [← (hput hrow hq).2]
    exact nofun
  | amend hrow | releaseKey hrow | storeAccessCode hrow =>
    rcases hput hrow hq with ⟨rfl, rfl⟩
    exact hsettled
  | openPlan _ hopens | reopenPlan _ _ hopens => exact (hnew hopens.fresh hq).elim
  | submit hfresh | migrate hfresh => exact (hnew hfresh hq).elim
  | markDefaulted | sweepDefaulted | aside => cases hq

theorem Posts.settling {kind : Kind} {s : Db} {ws : List Write} (h : Posts Stable kind s ws) :
    Settling s (store.applyAll ws s) := by
  rcases h with ⟨entry, hposting, hmade⟩
  refine ⟨hposting.stable hmade, ?_⟩
  intro k p q hp hsettled hq
  rw [hmade.payments, Entry.payments] at hq
  cases hput : entry.payment with
  | none =>
    rw [hput] at hq
    rw [← Option.some.inj (hp.symm.trans hq)]
    exact hsettled
  | some row =>
    rw [hput, Table.lookup_insert_ite] at hq
    split at hq
    · next hk =>
      refine hposting.leaves_settled hp hsettled ?_
      rw [hput, hk, ← Option.some.inj hq]
    · rw [← Option.some.inj (hp.symm.trans hq)]
      exact hsettled

/-! ### The payment that is asked about -/

namespace Enrollment

variable {s t : Db} {locator : PaymentLocator} {payment : PaymentOfPlan}

theorem payment?_family {k : Id} (h : s.payment? k = some payment) :
    s.children.lookup payment.plan.row.childId = some payment.plan.child ∧
      s.parents.lookup payment.plan.child.parentId = some payment.plan.parent := by
  simp only [Db.payment?, Db.plan?, Option.bind_eq_bind, Option.bind_eq_some_iff] at h
  rcases h with ⟨row, -, plan, ⟨e, -, school, -, child, hchild, parent, hparent, hplan⟩, hpayment⟩
  rw [← Option.some.inj hpayment, ← Option.some.inj hplan]
  exact ⟨hchild, hparent⟩

theorem located_payment? (h : located locator s = some payment) :
    s.payment? payment.id = some payment := by
  unfold located at h
  split at h
  · simp only [Db.paymentByReference?, Option.bind_eq_bind, Option.bind_eq_some_iff] at h
    rcases h with ⟨k, -, hpayment⟩
    rw [(Db.payment?_eq_some hpayment).1]
    exact hpayment
  · simp only [Option.bind_eq_some_iff] at h
    rcases h with ⟨k, -, hpayment⟩
    rw [(Db.payment?_eq_some hpayment).1]
    exact hpayment

/-- A later database has the payment too, and it is the same family's. -/
theorem located_stays (h : located locator s = some payment) (hst : Stable s t)
    (ht : Coherent t) : ∃ later, located locator t = some later ∧ later.id = payment.id ∧
      payment.row.Continues later.row ∧
      later.plan.parent.userId = payment.plan.parent.userId := by
  have hpayment := located_payment? h
  rcases Db.payment?_eq_some hpayment with ⟨-, hrow, -, hplan⟩
  rcases hst.payments _ _ hrow with ⟨q, hq, hcontinues⟩
  have hlater : ∃ later, located locator t = some later ∧ later.id = payment.id ∧
      later.row = q := by
    unfold located at h ⊢
    split at h
    · next reference _ =>
      have href := (Db.paymentByReference?_eq_some h).2.1
      exact ht.paymentByReference? hq (hcontinues.paystackReference.trans href)
    · next hnone =>
      rcases Option.bind_eq_some_iff.mp h with ⟨k, hk, hfound⟩
      rcases ht.payment?_isSome hq with ⟨later, hlater⟩
      rcases Db.payment?_eq_some hlater with ⟨hid, hsame, -⟩
      refine ⟨later, ?_, hid, Option.some.inj (hsame.symm.trans hq)⟩
      rw [hk, Option.bind_some, ← (Db.payment?_eq_some hfound).1]
      exact hlater
  rcases hlater with ⟨later, hlocated, hid, rfl⟩
  refine ⟨later, hlocated, hid, hcontinues, ?_⟩
  have hlater := located_payment? hlocated
  have hplan' := (Db.payment?_eq_some hlater).2.2.2
  rw [hcontinues.enrollmentId] at hplan'
  rcases hst.enrollments _ _ hplan with ⟨e, he, hsame⟩
  rcases payment?_family hpayment with ⟨hchild, hparent⟩
  rcases payment?_family hlater with ⟨hchild', hparent'⟩
  rw [Option.some.inj (hplan'.symm.trans he), hsame.childId] at hchild'
  rw [Option.some.inj (hchild'.symm.trans (hst.children _ _ hchild))] at hparent'
  rw [Option.some.inj (hparent'.symm.trans (hst.parents _ _ hparent))]

/-- The payment is there, and the user may see it. -/
def Entitled (locator : PaymentLocator) (user : AuthUser) (s : Db) : Prop :=
  ∃ payment, located locator s = some payment ∧ maySee user payment = true

theorem maySee_stays {user : AuthUser} {later : PaymentOfPlan}
    (h : maySee user payment = true) (hschool : later.row.schoolId = payment.row.schoolId)
    (hparent : later.plan.parent.userId = payment.plan.parent.userId) :
    maySee user later = true := by
  rw [maySee, hschool, hparent]
  exact h

theorem Entitled.stays {user : AuthUser} (h : Entitled locator user s) (hst : Stable s t)
    (ht : Coherent t) : Entitled locator user t := by
  rcases h with ⟨payment, hlocated, hsee⟩
  rcases located_stays hlocated hst ht with ⟨later, hlater, -, hcontinues, hparent⟩
  exact ⟨later, hlater, maySee_stays hsee hcontinues.schoolId hparent⟩

end Enrollment

/-! ### Following a verdict -/

/-- The payment under this reference is not open. -/
def Resolved (reference : String) (s : Db) : Prop :=
  ∃ k p, s.payments.lookup k = some p ∧ p.paystackReference = some reference ∧
    p.status ≠ .PENDING

theorem Known.stays {reference : String} {s t : Db} (h : Known reference s) (hst : Stable s t) :
    Known reference t := by
  rcases h with ⟨k, p, hp, href⟩
  rcases hst.payments k p hp with ⟨q, hq, hcontinues⟩
  exact ⟨k, q, hq, hcontinues.paystackReference.trans href⟩

theorem Resolved.stays {reference : String} {s t : Db} (h : Resolved reference s)
    (hst : Settling s t) : Resolved reference t := by
  rcases h with ⟨k, p, hp, href, hsettled⟩
  rcases hst.stable.payments k p hp with ⟨q, hq, hcontinues⟩
  exact ⟨k, q, hq, hcontinues.paystackReference.trans href, hst.settled k p q hp hsettled hq⟩

section Verdict

variable {K : Contract Db Write Answer} {E : Db → Db → Prop} {I : Exchanges → Db → Prop}
  {x : Context} {reference : String}

theorem Knows.known (hS : Session K E I) (hx : Rests I false x) (h : Known reference x.now) :
    Knows E I none (Known reference) x where
  begun := hx.outside.begun (E := E)
  inv := hx.2
  holds := h
  keeps := fun _ _ hb hknown => hknown.stays (hS.stable _ _ hb.env)

/-- A guarded update that finds no open payment finds one that has been settled. -/
theorem resolved_of_miss (hS : Session K E I) {payment : PaymentOfPlan} {c u : Db}
    (hc : E c u) (hrow : c.payments.lookup payment.id = some payment.row)
    (href : payment.row.paystackReference = some reference)
    (hmiss : ∀ p, u.payments.lookup payment.id = some p →
      ¬ decide (p.status = .PENDING) = true) : Resolved reference u := by
  rcases (hS.stable c u hc).payments _ _ hrow with ⟨q, hq, hcontinues⟩
  refine ⟨payment.id, q, hq, hcontinues.paystackReference.trans href, fun hopen => ?_⟩
  exact hmiss q hq (decide_eq_true hopen)

/-- However a reconcile of a known payment ends without an error, the payment has been settled
    in a state that the call has seen. -/
theorem reconcilePaystackPayment_resolves (hS : Session K E I)
    (hcredit : Owes K E I (.credit .FIRST_PAYMENT_PAID)) (haside : Owes K E I .aside)
    (hx : Knows E I none (Known reference) x) {fee : Option Int} {actor : Option AuditActor} :
    (Ledger.reconcilePaystackPayment reference fee actor).wp store K
      (fun _ y => Rests I false y ∧ ∃ s ∈ y.seen, Resolved reference s)
      (fun _ => Rests I false) x := by
  unfold Ledger.reconcilePaystackPayment
  refine Routine.wp_bind (Routine.wp_query fun y hd => ?_)
  have hy := hx.drift hS hd
  have hview : y.view store = y.now := hy.view
  have hnow : (y.wrote store []).now = y.now := by
    rw [Ctx.wrote_now, Ctx.released_nil, Store.applyAll_nil]
  have hseen : y.now ∈ (y.wrote store []).seen := by
    rw [← hnow]
    exact List.mem_cons_self
  refine ⟨fun _ => hy.failed.rests, ?_⟩
  rw [hview]
  cases hfound : y.now.paymentByReference? reference with
  | none =>
    rcases hy.holds with ⟨k, p, hp, href⟩
    rcases (hy.coherent hS).paymentByReference? hp href with ⟨payment, hpayment, -⟩
    rw [hfound] at hpayment
    cases hpayment
  | some payment =>
    rcases Db.paymentByReference?_eq_some hfound with ⟨hrow, href, hplan, -⟩
    have hsettled (h : payment.row.status ≠ .PENDING) :
        ∃ s ∈ (y.wrote store []).seen, Resolved reference s :=
      ⟨y.now, hseen, payment.id, payment.row, hrow, href, h⟩
    refine Routine.wp_ite (fun hsuccess => ?_) fun _ => Routine.wp_ite (fun hnotPending => ?_)
      fun hpending => ?_
    · exact Routine.wp_pure ⟨hy.wrote_nil.rests, hsettled (by rw [hsuccess]; exact nofun)⟩
    · exact Routine.wp_mono (fun _ z hz => ⟨hz.1.1, hz.2⟩) (fun _ _ h => h)
        (Routine.wp_remember (hsettled hnotPending)
          (escalateReconcileConflict_posts hS haside hy.wrote_nil.rests))
    have hknown := (hy.since hS (Q := fun c =>
      c.payments.lookup payment.id = some payment.row) hrow).wrote_nil
    refine Routine.wp_bind (hknown.transaction hS fun z _ hopened => ?_)
    refine Routine.wp_bind (hopened.ask hS (fun _ h => nomatch h) fun now z hz => ?_)
    refine Routine.wp_bind (hz.updatePayments hS (fun u _ hmiss hu => ?_) fun p u hp hu => ?_)
    · rw [if_pos rfl]
      have hend : (u.wrote store []).now = u.now := by
        rw [Ctx.wrote_now, Ctx.released_nil, Store.applyAll_nil]
      rcases hu.holds with ⟨-, c, hc, -, hold⟩
      rw [hend] at hc
      have hresolved := resolved_of_miss hS hc hold href hmiss
      refine Routine.wp_pure (hu.commits_nothing hS fun w hw hclosed => ?_)
      refine Routine.wp_pure ⟨hclosed.rests, u.now, hw.seen_subset _ ?_, hresolved⟩
      rw [← hend]
      exact List.mem_cons_self
    · rw [if_neg (by decide)]
      refine Routine.wp_bind (hu.creditCardPayment hS fun e a credited w ha hw => ?_)
      have hkeep : ∀ s : Db, ((Known reference s ∧ ∃ c, E c s ∧ Coherent c ∧
          c.payments.lookup payment.id = some payment.row) ∧
            s.payments.lookup payment.id = some p) ∧
          s.enrollments.lookup payment.plan.id = some e →
          s.payments.lookup payment.id = some p ∧ payment.row.Continues p ∧
            s.enrollments.lookup payment.plan.id = some e := by
        rintro s ⟨⟨⟨-, c, hc, -, hold⟩, hp'⟩, he⟩
        exact ⟨hp', (hS.stable c s hc).payment hold hp', he⟩
      refine Routine.wp_pure (hw.commits hS hcredit (fun s hs hcoh => ?_) fun v _ hs hv => ?_)
      · rcases hkeep s hs with ⟨hp', hread, he⟩
        have hstatus : p.status = .PENDING := of_decide_eq_true hp
        have hsound := hcoh.payments _ _ hp'
        have htype := (hsound.reference (by rw [hread.paystackReference, href]; exact nofun)).1
        have hunconfirmed : p.isConfirmed = false := by
          rw [← Bool.not_eq_true, hsound.confirmed, hstatus]
          exact nofun
        rcases hread.amounts (by rw [← hread.paymentType, htype]; exact nofun) with ⟨-, hamount⟩
        rw [hplan, ← hread.enrollmentId] at he ⊢
        rw [← hamount]
        refine ⟨_, @Posting.credit E s .FIRST_PAYMENT_PAID payment.id p e now fee a
          (Or.inr (Or.inr rfl)) hp' htype hunconfirmed (fun _ => hstatus) he ha
          (fun h => absurd rfl h), ?_⟩
        exact (Entry.MadeBy.nil s).putPayment.putPlan.putPlanAgain.logAudit
      · rcases hkeep _ hs with ⟨-, hread, -⟩
        refine Routine.wp_bind (Routine.wp_mono (fun _ w hw => Routine.wp_pure hw) (fun _ _ h => h)
          (Routine.wp_remember (V := Resolved reference) ⟨_, List.mem_cons_self, ?_⟩
            (announceCardPayment_rests hS hv)))
        rw [Ctx.see_now]
        refine ⟨payment.id, _, AList.lookup_insert _, hread.paystackReference.trans href, ?_⟩
        exact nofun

theorem failPaystackPayment_resolves (hS : Session K E I) (howes : Owes K E I (.fail reference))
    (hx : Knows E I none (Known reference) x) :
    (Ledger.failPaystackPayment reference).wp store K
      (fun _ y => Rests I false y ∧ ∃ s ∈ y.seen, Resolved reference s)
      (fun _ => Rests I false) x := by
  unfold Ledger.failPaystackPayment
  refine Routine.wp_bind (Routine.wp_query fun y hd => ?_)
  have hy := hx.drift hS hd
  have hview : y.view store = y.now := hy.view
  have hnow : (y.wrote store []).now = y.now := by
    rw [Ctx.wrote_now, Ctx.released_nil, Store.applyAll_nil]
  refine ⟨fun _ => hy.failed.rests, ?_⟩
  rw [hview]
  rcases hy.holds with ⟨k, p₀, hp₀, href₀⟩
  rcases (hy.coherent hS).paymentByReference? hp₀ href₀ with ⟨payment, hpayment, -⟩
  rcases Db.paymentByReference?_eq_some hpayment with ⟨hrow, href, hplan, -⟩
  rw [hpayment, Option.filter_some]
  by_cases hopen : payment.row.status = .PENDING
  · rw [if_pos (decide_eq_true hopen)]
    have hknown := (hy.since hS (Q := fun c =>
      c.payments.lookup payment.id = some payment.row) hrow).wrote_nil
    refine Routine.wp_bind (hknown.transaction hS fun z _ hopened => ?_)
    refine Routine.wp_bind (hopened.updatePayments hS (fun u _ hmiss hu => ?_) fun p u hp hu => ?_)
    · rw [if_pos rfl]
      have hend : (u.wrote store []).now = u.now := by
        rw [Ctx.wrote_now, Ctx.released_nil, Store.applyAll_nil]
      rcases hu.holds with ⟨-, c, hc, -, hold⟩
      rw [hend] at hc
      have hresolved := resolved_of_miss hS hc hold href hmiss
      refine Routine.wp_pure (hu.commits_nothing hS fun w hw hclosed => ?_)
      refine Routine.wp_ite (fun _ => Routine.wp_pure ⟨hclosed.rests, u.now, ?_, hresolved⟩)
        fun h => absurd rfl h
      rw [← hend]
      exact hw.seen_subset _ List.mem_cons_self
    rw [if_neg (by decide)]
    refine Routine.wp_bind (hu.updateEnrollment hS fun e v hv => ?_)
    have hkeep : ∀ s : Db, ((Known reference s ∧ ∃ c, E c s ∧ Coherent c ∧
        c.payments.lookup payment.id = some payment.row) ∧
          s.payments.lookup payment.id = some p) ∧
        (store.applyAll [.putPayment payment.id { p with status := .FAILED }] s).enrollments.lookup
          payment.row.enrollmentId = some e →
        s.payments.lookup payment.id = some p ∧ payment.row.Continues p ∧
          s.enrollments.lookup payment.row.enrollmentId = some e := by
      rintro s ⟨⟨⟨-, c, hc, -, hold⟩, hp'⟩, he⟩
      exact ⟨hp', (hS.stable c s hc).payment hold hp', he⟩
    refine Routine.wp_pure (hv.commits hS howes (fun s hs hcoh => ?_) fun w _ hs hw => ?_)
    · rcases hkeep s hs with ⟨hp', hread, he⟩
      have hstatus : p.status = .PENDING := of_decide_eq_true hp
      have hreference : p.paystackReference = some reference :=
        hread.paystackReference.trans href
      have hsound := hcoh.payments _ _ hp'
      have htype := (hsound.reference (by rw [hreference]; exact nofun)).1
      have hunconfirmed : p.isConfirmed = false := by
        rw [← Bool.not_eq_true, hsound.confirmed, hstatus]
        exact nofun
      rw [← hread.enrollmentId] at he ⊢
      refine ⟨_, @Posting.close E s _ _ p e none hp' ⟨hreference, hstatus⟩ htype hunconfirmed he
        nofun, (Entry.MadeBy.nil s).putPayment.putPlan⟩
    · rcases hkeep _ hs with ⟨-, hread, -⟩
      refine Routine.wp_ite (fun h => nomatch h) fun _ => ?_
      refine Routine.wp_remember (V := Resolved reference) ⟨_, List.mem_cons_self, ?_⟩ ?_
      · rw [Ctx.see_now]
        refine ⟨payment.id, _, AList.lookup_insert _, hread.paystackReference.trans href, ?_⟩
        exact nofun
      refine Routine.wp_bind (Routine.wp_onlyIf (fun _ => ?_) fun _ => ?_)
      · exact hw.outside.createNotification hS fun z hz => Routine.wp_bind
          (hz.emitChanges hS fun w hw => Routine.wp_pure hw.rests)
      · exact Routine.wp_bind (hw.outside.emitChanges hS fun w hw => Routine.wp_pure hw.rests)
  · rw [if_neg (by simpa using hopen)]
    refine Routine.wp_pure ⟨hy.wrote_nil.rests, y.now, ?_, payment.id, payment.row, hrow, href,
      hopen⟩
    rw [← hnow]
    exact List.mem_cons_self

end Verdict

/-! ### Requests beside the jobs -/

open Enrollment

/-- A request for the outcome of a payment, or a job of the service. -/
inductive Visit where
  | outcome (locator : PaymentLocator) (user : AuthUser)
  | payments (job : Job)

namespace Visit

def action : Visit → Action (Option OutcomeReply)
  | outcome locator user => some <$> getPaymentOutcome locator user
  | payments job => (fun _ => none) <$> job.action

def program (v : Visit) : Prog Db Write Answer (Except Err (Option OutcomeReply)) := v.action.run

/-- What has to be so whenever the call asks for something or changes something. -/
def Entitled : Visit → Db → Prop
  | outcome locator user, s => Enrollment.Entitled locator user s
  | payments _, _ => True

theorem Entitled.stays {v : Visit} {s t : Db} (h : v.Entitled s) (hst : Stable s t)
    (ht : Coherent t) : v.Entitled t := by
  cases v with
  | outcome locator user => exact Enrollment.Entitled.stays h hst ht
  | payments job => exact h

/-- The request that a call is. -/
def asked? : Visit → Option (PaymentLocator × AuthUser)
  | outcome locator user => some (locator, user)
  | payments _ => none

theorem asked?_eq_some {v : Visit} {locator : PaymentLocator} {user : AuthUser}
    (h : v.asked? = some (locator, user)) : v = outcome locator user := by
  cases v with
  | outcome locator' user' =>
    cases h
    rfl
  | payments job => cases h

def contract (v : Visit) : Contract Db Write Answer where
  rely := fun y ws => ∃ kind, Posts Stable kind y.now ws
  answers := fun _ _ _ => True
  faults := fun _ => True
  admits := fun _ _ => True
  guarantee := fun y ws => (∃ kind, Posts Stable kind y.now ws) ∧ v.Entitled y.now
  asks := fun y _ => v.Entitled y.now

/-- The terms on which a call goes on that may. -/
def terms (v : Visit) : Exchanges → Db → Prop := fun _ s => Coherent s ∧ v.Entitled s

theorem session (v : Visit) : Session v.contract Settling v.terms where
  refl := .refl
  trans := fun _ _ _ => .trans
  stable := fun _ _ h => h.stable
  coherent := fun _ _ h => h.1
  rely := by
    rintro y ws ⟨kind, hposts⟩ ⟨hcoh, hentitled⟩
    have hafter := hposts.coherent (fun _ h => h) hcoh
    exact ⟨hposts.settling, ⟨kind, hposts⟩, hafter, hentitled.stays hposts.settling.stable hafter⟩
  answers := fun _ _ _ _ _ h => h
  asks := fun _ _ _ h => h.2

theorem owes (v : Visit) (kind : Kind) : Owes v.contract Settling v.terms kind := by
  rintro y ws ⟨hcoh, hentitled⟩ hposts -
  have hposts := hposts.mono fun _ _ h => h.stable
  have hafter := hposts.coherent (fun _ h => h) hcoh
  exact ⟨⟨⟨kind, hposts⟩, hentitled⟩, hafter, hentitled.stays hposts.settling.stable hafter⟩

/-- All that a call has seen has led to what is committed now, and kept payments settled. -/
abbrev Remembers : Context → Prop := Ctx.Seeing Coherent fun s t => Settling s t ∧ Coherent t

theorem leap {kind : Kind} {s : Db} {ws : List Write} (h : Posts Stable kind s ws)
    (hs : Coherent s) :
    Leap (fun s t => Settling s t ∧ Coherent t) s (store.applyAll ws s) := by
  have hafter := h.coherent (fun _ h => h) hs
  exact ⟨⟨h.settling, hafter⟩, .refl _, hafter⟩

theorem leading : Leading Coherent fun s t => Settling s t ∧ Coherent t where
  trans := fun _ _ _ h h' => ⟨h.1.trans h'.1, h'.2⟩
  leads := fun _ _ _ h => h.2

theorem steady (v : Visit) : Steady store v.contract.rely Remembers := by
  apply Ctx.Seeing.steady leading
  rintro y ws ⟨kind, hposts⟩ hy
  exact leap hposts hy.now

theorem remembers_own (v : Visit) (y : Context) (ws : List Write) (_ : v.contract.admits y ws)
    (h : v.contract.guarantee y ws) (hy : Remembers y) : Remembers (y.see store ws) := by
  rcases h with ⟨⟨kind, hposts⟩, -⟩
  exact hy.see leading fun _ => leap hposts hy.now

end Visit

/-! ### What is answered -/

namespace Enrollment

/-- Paystack has decided. -/
def Final (verified : VerifyTransactionResult) : Prop :=
  verified.status = "success" ∨ verified.status = "failed"

/-- What the reply shows was committed at some moment of the call, for this user to see. If
    Paystack had decided and no error was logged, the payment had been settled by then. -/
def OutcomeReply.Shows (locator : PaymentLocator) (user : AuthUser) (reply : OutcomeReply)
    (y : Context) : Prop :=
  ∃ s ∈ y.seen, ∃ it, shown locator s = some it ∧ maySee user it.payment = true ∧
    reply.view = paymentOutcomeView it ∧
    (reply.warning = none → ∀ reference verified, given locator.reference = some reference →
      ⟨.verifyTransaction reference, .ok verified⟩ ∈ y.log → Final verified →
      it.payment.row.status ≠ .PENDING)

theorem shown_located {locator : PaymentLocator} {s : Db} {it : ShownPayment}
    (h : shown locator s = some it) : located locator s = some it.payment := by
  rcases Option.map_eq_some_iff.mp h with ⟨payment, hpayment, rfl⟩
  exact hpayment

theorem located_shown {locator : PaymentLocator} {s : Db} {payment : PaymentOfPlan}
    (h : located locator s = some payment) :
    ∃ it, shown locator s = some it ∧ it.payment = payment :=
  ⟨_, by rw [shown, h, Option.map_some], rfl⟩

theorem located_reference {locator : PaymentLocator} {s : Db} {payment : PaymentOfPlan}
    {reference : String} (h : located locator s = some payment)
    (hreference : given locator.reference = some reference) :
    s.payments.lookup payment.id = some payment.row ∧
      payment.row.paystackReference = some reference := by
  simp only [located, hreference] at h
  rcases Db.paymentByReference?_eq_some h with ⟨hrow, href, -⟩
  exact ⟨hrow, href⟩

section Reply

variable {locator : PaymentLocator} {user : AuthUser} {reference : String} {x : Context}

/-- A verdict that was followed has left the payment settled. -/
theorem followVerdict_wp (hlog : x.log = []) (hJ : Visit.Remembers x)
    (hx : Knows Settling (Visit.outcome locator user).terms none (Known reference) x) :
    (followVerdict reference).wp store (Visit.outcome locator user).contract
      (fun _ y => Rests (Visit.outcome locator user).terms false y ∧ Visit.Remembers y ∧
        ∀ verified, ⟨.verifyTransaction reference, .ok verified⟩ ∈ y.log → Final verified →
          ∃ s ∈ y.seen, Resolved reference s)
      (fun _ _ => True) x := by
  have hS := (Visit.outcome locator user).session
  unfold followVerdict
  refine Routine.wp_bind (Routine.wp_ask fun y hd => ?_)
  have hy := hx.drift hS hd
  refine ⟨hy.inv.2, fun a _ => ?_⟩
  have hasked := hy.answered hS (c := .verifyTransaction reference) (a := a) nofun trivial
  have hremembers : Visit.Remembers (y.answered (.verifyTransaction reference) a) :=
    ((Visit.steady (.outcome locator user)).drift hJ hd).moved rfl rfl
  have hlogged : (y.answered (.verifyTransaction reference) a).log =
      [⟨.verifyTransaction reference, a⟩] := by
    rw [Ctx.answered, hd.log_eq, hlog]
  cases a with
  | error e => exact Routine.wp_throw trivial
  | ok verified =>
    refine Routine.wp_ite (fun _ => ?_) fun hsuccess => Routine.wp_ite (fun _ => ?_) fun hfailed => ?_
    · refine Routine.wp_bind (Routine.wp_mono (fun _ z hz => ?_) (fun _ _ _ => trivial)
        (Routine.wp_throughout (Visit.steady _) (Visit.remembers_own _)
          (reconcilePaystackPayment_resolves hS (Visit.owes _ _) (Visit.owes _ _) hasked) hremembers))
      exact Routine.wp_pure ⟨hz.1.1, hz.2, fun _ _ _ => hz.1.2⟩
    · refine Routine.wp_bind (Routine.wp_mono (fun _ z hz => ?_) (fun _ _ _ => trivial)
        (Routine.wp_throughout (Visit.steady _) (Visit.remembers_own _)
          (failPaystackPayment_resolves hS (Visit.owes _ _) hasked) hremembers))
      exact Routine.wp_pure ⟨hz.1.1, hz.2, fun _ _ _ => hz.1.2⟩
    · refine Routine.wp_pure ⟨hasked.rests, hremembers, fun other hmem hfinal => ?_⟩
      rw [hlogged, List.mem_singleton] at hmem
      cases hmem
      exact absurd hfinal (not_or.mpr ⟨hsuccess, hfailed⟩)

/-- The charge is read again once its verdict has been followed; if that fails, the reply falls
    back on what was read before. -/
theorem settledOutcome_wp (hlog : x.log = []) (hJ : Visit.Remembers x)
    (hx : Rests (Visit.outcome locator user).terms false x) (before : ShownPayment)
    (hreference : given locator.reference = some reference) :
    (settledOutcome locator reference before).wp store (Visit.outcome locator user).contract
      (fun reply y => (reply.view = paymentOutcomeView before ∧ reply.warning ≠ none) ∨
        reply.Shows locator user y)
      (fun _ _ => True) x := by
  have hS := (Visit.outcome locator user).session
  have hknown : Known reference x.now := by
    rcases hx.2.2 with ⟨payment, hlocated, -⟩
    exact ⟨payment.id, payment.row, located_reference hlocated hreference⟩
  have hafter (y : Context) (hy : Rests (Visit.outcome locator user).terms false y)
      (hremembers : Visit.Remembers y) (hresolved : ∀ verified,
        ⟨.verifyTransaction reference, .ok verified⟩ ∈ y.log → Final verified →
          ∃ s ∈ y.seen, Resolved reference s) :
      (do
        let again ← read (shown locator)
        pure { view := paymentOutcomeView (again.getD before), warning := none } :
          Action OutcomeReply).wp store (Visit.outcome locator user).contract
        (fun reply z => (reply.view = paymentOutcomeView before ∧ reply.warning ≠ none) ∨
          reply.Shows locator user z) (fun _ _ => True) y := by
    refine Routine.wp_bind (Routine.wp_query fun z hd => ⟨fun _ => trivial, ?_⟩)
    have hz := hy.outside.drift hS hd
    have hremembers := (Visit.steady _).drift hremembers hd
    have hview : z.view store = z.now := hz.view
    rcases hz.inv.2 with ⟨payment, hlocated, hsee⟩
    rcases located_shown hlocated with ⟨it, hit, rfl⟩
    rw [hview, hit, Option.getD_some]
    refine Routine.wp_pure (.inr ⟨z.now, ?_, it, hit, hsee, rfl, ?_⟩)
    · rw [Ctx.seen, Ctx.wrote_now, Ctx.released_nil, Store.applyAll_nil]
      exact List.mem_cons_self
    intro _ reference' verified hsame hmem hfinal
    rw [Option.some.inj (hsame.symm.trans hreference), Ctx.wrote_log, hd.log_eq] at hmem
    rcases hresolved verified hmem hfinal with ⟨s, hs, hs'⟩
    rcases hs'.stays (hremembers.since (hd.seen_subset s hs)).1 with ⟨k, p, hp, href, hsettled⟩
    rcases located_reference hlocated hreference with ⟨hrow, href'⟩
    have hk := hremembers.now.one_reference k it.payment.id p it.payment.row reference hp hrow href
      href'
    rw [hk] at hp
    rw [← Option.some.inj (hp.symm.trans hrow)]
    exact hsettled
  refine Routine.wp_tryCatch (Routine.wp_bind (Routine.wp_mono (fun _ y hy => ?_) (fun e y _ => ?_)
    (followVerdict_wp hlog hJ (Knows.known hS hx hknown))))
  · refine Routine.wp_mono (fun _ _ h => h) (fun e z _ => ?_) (hafter y hy.1 hy.2.1 hy.2.2)
    exact Routine.wp_pure (.inl ⟨rfl, Option.some_ne_none e⟩)
  · exact Routine.wp_pure (.inl ⟨rfl, Option.some_ne_none e⟩)

theorem getPaymentOutcome_wp {s : Db} (hs : Coherent s) (locator : PaymentLocator)
    (user : AuthUser) : (getPaymentOutcome locator user).wp store
      (Visit.outcome locator user).contract (OutcomeReply.Shows locator user)
      (fun _ _ => True) (.init s) := by
  unfold getPaymentOutcome
  refine Routine.wp_bind (Routine.wp_throwIf (fun _ => trivial) fun _ => ?_)
  refine Routine.wp_bind (Routine.wp_query fun y hd => ⟨fun _ => trivial, ?_⟩)
  have hinit : Visit.Remembers (.init s) := by
    constructor
    intro c hc
    rw [List.mem_singleton.mp hc]
    exact ⟨hs, .refl s, hs⟩
  have hremembers := (Visit.steady (.outcome locator user)).drift hinit hd
  have hview : y.view store = y.now := by
    rw [Ctx.view, hd.pending_eq]
    rfl
  have hnow : (y.wrote store []).now = y.now := by
    rw [Ctx.wrote_now, Ctx.released_nil, Store.applyAll_nil]
  have hlog : (y.wrote store []).log = [] := by
    rw [Ctx.wrote_log, hd.log_eq]
    rfl
  have htx : (y.wrote store []).tx.isSome = false := by
    rw [Ctx.wrote_tx, hd.tx_eq]
    rfl
  have hnoted : Visit.Remembers (y.wrote store []) := (Visit.steady (.outcome locator user)).wrote
    hremembers (by simp)
  rw [hview]
  refine Routine.wp_bind (Routine.wp_orThrow (fun _ => trivial) fun before hbefore => ?_)
  refine Routine.wp_bind (Routine.wp_throwIf (fun _ => trivial) fun hallowed => ?_)
  have hsee : maySee user before.payment = true := by simpa using hallowed
  have hseen : ∃ s ∈ (y.wrote store []).seen, shown locator s = some before :=
    ⟨y.now, by rw [← hnow]; exact List.mem_cons_self, hbefore⟩
  have hshows (reply : OutcomeReply) (z : Context) (hview : reply.view = paymentOutcomeView before)
      (hquiet : z.log = [] ∨ reply.warning ≠ none)
      (hz : ∃ s ∈ z.seen, shown locator s = some before) : reply.Shows locator user z := by
    rcases hz with ⟨s, hs, hit⟩
    refine ⟨s, hs, before, hit, hsee, hview, fun hwarning reference verified _ hmem => ?_⟩
    rcases hquiet with hempty | hwarned
    · rw [hempty] at hmem
      cases hmem
    · exact absurd hwarning hwarned
  split
  · exact Routine.wp_pure (hshows _ _ rfl (.inl hlog) hseen)
  · next reference hreference =>
    refine Routine.wp_ite (fun _ => Routine.wp_pure (hshows _ _ rfl (.inl hlog) hseen)) fun _ => ?_
    have hrests : Rests (Visit.outcome locator user).terms false (y.wrote store []) := by
      refine ⟨htx, ?_⟩
      rw [hnow]
      exact ⟨hremembers.now, before.payment, shown_located hbefore, hsee⟩
    refine Routine.wp_mono (fun reply z hz => ?_) (fun _ _ h => h) (Routine.wp_remember hseen
      (settledOutcome_wp hlog hnoted hrests before hreference))
    rcases hz with ⟨⟨hback, hwarned⟩ | hnew, hold⟩
    · exact hshows reply z hback (.inr hwarned) hold
    · exact hnew

end Reply

end Enrollment

/-! ### Requests in any run -/

/-- The committed database, and the requests and jobs that have been started. -/
abbrev Reception := Sys Visit Db Write Answer (Except Err (Option OutcomeReply))

namespace Visit

/-- How a call ends. -/
def Ends (v : Visit) (r : Except Err (Option OutcomeReply)) (y : Context) : Prop :=
  ∀ locator user reply, v = outcome locator user → r = .ok (some reply) →
    reply.Shows locator user y

theorem wp {s : Db} (hs : Coherent s) (v : Visit) :
    v.program.wp store v.contract v.Ends (.init s) := by
  cases v with
  | outcome locator user =>
    have hmapped : (some <$> getPaymentOutcome locator user).wp store
        (Visit.outcome locator user).contract
        (fun r y => ∀ reply, r = some reply → reply.Shows locator user y) (fun _ _ => True)
        (.init s) := by
      refine wp_map (fun reply y h => ?_) (getPaymentOutcome_wp hs locator user)
      rintro reply' hreply
      rw [← Option.some.inj hreply]
      exact h
    refine Prog.wp_mono (fun r y h => ?_) hmapped
    rintro locator' user' reply hsame rfl
    cases hsame
    exact h reply rfl
  | payments job =>
    refine Prog.wp_mono (Q := fun _ _ => True) ?_ ?_
    · rintro r y - locator user reply hsame
      cases hsame
    · exact wp_map_run (Job.posts (session (payments job)) (fun _ _ _ _ h => h)
        (fun _ _ => trivial) job (fun kind _ => owes _ kind) ⟨rfl, hs, trivial⟩)

/-- Requests and jobs that run beside each other keep to their contracts. -/
theorem discipline : Discipline store program (fun _ _ _ => True) contract Ends Coherent := by
  constructor
  · exact fun _ _ v _ hs => wp hs v
  · exact fun _ _ _ _ _ _ _ _ _ => trivial
  · exact fun _ _ _ _ _ _ _ _ => trivial
  · exact fun _ _ _ _ _ _ _ _ _ _ _ => trivial
  · rintro t t' pid ch p ws - - - hnow hstore ⟨⟨kind, hposts⟩, -⟩ hcoh
    rw [hstore]
    rw [hnow] at hposts
    exact hposts.coherent (fun _ h => h) hcoh
  · rintro t t' pid ch p i q ws - - - - - - hp hq - ⟨⟨kind, hposts⟩, -⟩ -
    rw [hp] at hposts
    exact ⟨kind, by rw [hq]; exact hposts⟩

variable {start : Db → Prop} {t u : Reception}

/-- The books at one moment of a run lead to the books at a later one. -/
theorem leads_settling (ht : t.Good store contract Ends Coherent)
    (h : Sys.Leads store program (fun _ _ _ => True) t u) : Settling t.store u.store := by
  induction h with
  | refl => exact .refl _
  | @step v w e hlead hstep hguard ih =>
    rcases (hlead.good discipline ht).committed discipline hstep hguard with hsame | hmoved
    · rw [hsame]
      exact ih
    · rcases hmoved with ⟨pid, ch, p, ws, rfl, -, -, hnow, ⟨⟨kind, hposts⟩, -⟩, hstore⟩
      rw [hnow] at hposts
      rw [hstore]
      exact ih.trans hposts.settling

/-- What a call has seen was coherent and has led to what is committed now. -/
theorem seen_settling (hstart : ∀ s, start s → Coherent s)
    (ht : Sys.Reach store program (fun _ _ _ => True) start t) {p : Proc Visit Db Write Answer
      (Except Err (Option OutcomeReply))} (hp : p ∈ t.procs) :
    ∀ s ∈ p.ctx.seen, Coherent s ∧ Settling s t.store := by
  refine (ht.observes (R := fun c s => Coherent c ∧ Settling c s) (fun t ht => ?_) ?_ p hp).seen
  · exact ⟨(ht.good discipline hstart).inv, .refl _⟩
  · rintro t t' pid ch ht hstep hguard p - c - ⟨hcoh, hsettling⟩
    exact ⟨hcoh, hsettling.trans
      (leads_settling (ht.good discipline hstart) (.step _ .refl hstep hguard))⟩

end Visit

/-! ### What a parent can count on -/

section Requests

/-- Nothing fails, and Paystack says that the charge went through. -/
def paidAtPaystack (n : Nat) : Choice Answer where
  fault := false
  answer := fun
    | .verifyTransaction _ => .ok { status := "success", fees := some 41250 }
    | c => (smoothly "b" n).answer c

variable {start : Db → Prop} {t u : Reception}
  {p q : Proc Visit Db Write Answer (Except Err (Option OutcomeReply))} {locator : PaymentLocator}
  {user user' : AuthUser} {reply later : OutcomeReply}

theorem shows_of_result (hstart : ∀ s, start s → Coherent s)
    (ht : Sys.Reach store Visit.program (fun _ _ _ => True) start t) (hp : p ∈ t.procs)
    (hjob : p.job = .outcome locator user) (hreply : p.prog.result? = some (.ok (some reply))) :
    reply.Shows locator user p.ctx := by
  have hwp := ((ht.good Visit.discipline hstart).procs p hp).wp
  rw [Prog.eq_ret_of_result hreply] at hwp
  exact hwp locator user reply hjob rfl

/-- In coherent books a payment is shown as being processed just as long as it is open. -/
theorem processing_iff {s : Db} (hs : Coherent s) {it : ShownPayment}
    (h : shown locator s = some it) :
    (paymentOutcomeView it).state = .processing ↔ it.payment.row.status = .PENDING := by
  have hrow := (Db.payment?_eq_some (located_payment? (shown_located h))).2.1
  have hconfirmed := (hs.payments _ _ hrow).confirmed
  simp only [paymentOutcomeView, derivePaymentOutcomeState]
  cases hstatus : it.payment.row.status with
  | PENDING =>
    have hopen : it.payment.row.isConfirmed = false := by
      rw [← Bool.not_eq_true, hconfirmed, hstatus]
      exact nofun
    simp [hopen]
  | SUCCESS =>
    rw [if_pos (hconfirmed.mpr hstatus)]
    exact iff_of_false nofun nofun
  | FAILED | REVERSED =>
    split
    · exact iff_of_false nofun nofun
    · exact iff_of_false nofun nofun

/-- The parent opens a card charge, pays at Paystack and asks how it went. -/
def paidAndAsked : List (Event Visit Answer) :=
  .spawn (.payments (.initiateFirstPayment environment (enrollment none) "parent")) ::
    (List.range 17).map (fun i => .move 0 (smoothly "a" i)) ++
  .spawn (.outcome ⟨some "lopay_a7", none⟩ parentUser) ::
    (List.range 15).map (fun i => .move 1 (paidAtPaystack i))

/-- The call of a process that has answered, its reply and what surrounded it. -/
def answeredOutcome? (pid : Nat) (t : Reception) :
    Option (PaymentLocator × AuthUser × OutcomeReply × Context) :=
  match t.procs[pid]? with
  | some ⟨.outcome locator user, .ret (.ok (some reply)), y⟩ => some (locator, user, reply, y)
  | _ => none

theorem answeredOutcome?_eq_some {pid : Nat} {y : Context}
    (h : answeredOutcome? pid t = some (locator, user, reply, y)) :
    ∃ p, t.procs[pid]? = some p ∧ p.job = .outcome locator user ∧
      p.prog.result? = some (.ok (some reply)) ∧ p.ctx = y := by
  unfold answeredOutcome? at h
  split at h
  · next hp =>
    cases h
    exact ⟨_, hp, rfl, rfl, rfl⟩
  · cases h

theorem reach_of_visits {es : List (Event Visit Answer)}
    (h : Sys.exec store Visit.program (fun _ _ _ => true) es (.init oneFamily) = some t) :
    Sys.Reach store Visit.program (fun _ _ _ => True) Coherent t :=
  Sys.reach_of_exec (fun _ _ _ _ => trivial) (.init oneFamily_opening.coherent) h

/-- What Paystack has said of a charge. -/
def verdict? : Sigma Answer → Option (String × VerifyTransactionResult)
  | ⟨.verifyTransaction reference, .ok verified⟩ => some (reference, verified)
  | _ => none

theorem verdict?_eq_some {a : Sigma Answer} {reference : String}
    {verified : VerifyTransactionResult} (h : verdict? a = some (reference, verified)) :
    a = ⟨.verifyTransaction reference, .ok verified⟩ := by
  unfold verdict? at h
  split at h
  · cases h
    rfl
  · cases h

theorem paidAndAsked_answers : ∃ t p locator user reply,
    Sys.exec store Visit.program (fun _ _ _ => true) paidAndAsked (.init oneFamily) = some t ∧
    t.procs[1]? = some p ∧ p.job = .outcome locator user ∧
    p.prog.result? = some (.ok (some reply)) ∧ locator = ⟨some "lopay_a7", none⟩ ∧
    reply.warning = none ∧ reply.view.state = .succeeded ∧
    ∃ verified, ⟨.verifyTransaction "lopay_a7", .ok verified⟩ ∈ p.ctx.log ∧
      verified.status = "success" := by
  have hruns : ((Sys.exec store Visit.program (fun _ _ _ => true) paidAndAsked
      (.init oneFamily)).any fun t => (answeredOutcome? 1 t).any fun r =>
        decide (r.1 = ⟨some "lopay_a7", none⟩) && r.2.2.1.warning.isNone &&
          decide (r.2.2.1.view.state = .succeeded) && (r.2.2.2.log.any fun a =>
            (verdict? a).any fun v => decide (v.1 = "lopay_a7") &&
              decide (v.2.status = "success"))) = true := by
    decide +kernel
  rcases (Option.any_eq_true _ _).mp hruns with ⟨t, ht, hany⟩
  rcases (Option.any_eq_true _ _).mp hany with ⟨⟨locator, user, reply, y⟩, hanswered, hchecks⟩
  simp only [Bool.and_eq_true, decide_eq_true_eq, Option.isNone_iff_eq_none] at hchecks
  rcases hchecks with ⟨⟨⟨hlocator, hwarning⟩, hstate⟩, hlog⟩
  rcases List.any_eq_true.mp hlog with ⟨a, ha, hverdict⟩
  rcases (Option.any_eq_true _ _).mp hverdict with ⟨⟨reference, verified⟩, hv, hboth⟩
  simp only [Bool.and_eq_true, decide_eq_true_eq] at hboth
  rcases hboth with ⟨rfl, hstatus⟩
  rcases answeredOutcome?_eq_some hanswered with ⟨p, hp, hjob, hreply, rfl⟩
  exact ⟨t, p, locator, user, reply, ht, hp, hjob, hreply, hlocator, hwarning, hstate, verified,
    verdict?_eq_some hv ▸ ha, hstatus⟩

/-- The verdict of Paystack has been followed by the time a request is answered, unless that went
    wrong, and then it has been logged. -/
theorem outcome_decided (hstart : ∀ s, start s → Coherent s)
    (ht : Sys.Reach store Visit.program (fun _ _ _ => True) start t) (hp : p ∈ t.procs)
    (hjob : p.job = .outcome locator user) (hreply : p.prog.result? = some (.ok (some reply)))
    {reference : String} (hreference : given locator.reference = some reference)
    {verified : VerifyTransactionResult}
    (hasked : ⟨.verifyTransaction reference, .ok verified⟩ ∈ p.ctx.log) (hfinal : Final verified)
    (hquiet : reply.warning = none) : reply.view.state ≠ .processing := by
  rcases shows_of_result hstart ht hp hjob hreply with ⟨s, hs, it, hit, -, hview, hsettled⟩
  have hcoh := (Visit.seen_settling hstart ht hp s hs).1
  rw [hview, ne_eq, processing_iff hcoh hit]
  exact hsettled hquiet reference verified hreference hasked hfinal

/-- Paystack says that the charge went through, and that is shown. -/
theorem outcome_decided_paid : ∃ t p locator user reply reference verified,
    Sys.exec store Visit.program (fun _ _ _ => true) paidAndAsked (.init oneFamily) = some t ∧
    p ∈ t.procs ∧ p.job = .outcome locator user ∧ p.prog.result? = some (.ok (some reply)) ∧
    given locator.reference = some reference ∧
    ⟨.verifyTransaction reference, .ok verified⟩ ∈ p.ctx.log ∧ Final verified ∧
    reply.warning = none ∧ reply.view.state ≠ .processing := by
  rcases paidAndAsked_answers with ⟨t, p, locator, user, reply, ht, hp, hjob, hreply, hlocator,
    hwarning, -, verified, hasked, hstatus⟩
  have hmem := List.mem_of_getElem? hp
  have hreference : given locator.reference = some "lopay_a7" := by
    rw [hlocator]
    rfl
  exact ⟨t, p, locator, user, reply, "lopay_a7", verified, ht, hmem, hjob, hreply, hreference,
    hasked, .inl hstatus, hwarning, outcome_decided (fun _ h => h) (reach_of_visits ht) hmem hjob
      hreply hreference hasked (.inl hstatus) hwarning⟩

/-- A user that a payment is no business of makes Paystack verify nothing, settles nothing and
    learns nothing. -/
theorem outcome_withheld (hstart : ∀ s, start s → Coherent s)
    (ht : Sys.Reach store Visit.program (fun _ _ _ => True) start t) {pid : Nat}
    (hp : t.procs[pid]? = some p) (hjob : p.job = .outcome locator user)
    (hnot : ¬ Enrollment.Entitled locator user t.store) :
    p.prog.request? = none ∧ (∀ ch t', t.step store Visit.program (.move pid ch) = some t' →
      t'.store = t.store) ∧ ∀ reply, p.prog.result? ≠ some (.ok (some reply)) := by
  have hgood := ht.good Visit.discipline hstart
  have hmem := List.mem_of_getElem? hp
  refine ⟨?_, fun ch t' hstep => ?_, fun reply hreply => hnot ?_⟩
  · cases hc : p.prog.request? with
    | none => rfl
    | some c =>
      have hasks := hgood.asks hp hc
      have hprog : p.prog.finished = false := by
        cases hp' : p.prog with
        | ret a =>
          rw [hp'] at hc
          cases hc
        | _ => rfl
      rw [hjob] at hasks
      exact absurd ((hgood.procs p hmem).now hprog ▸ hasks) hnot
  · rcases hgood.committed Visit.discipline hstep trivial with hsame | hmoved
    · exact hsame
    · rcases hmoved with ⟨_, _, m, ws, hevent, hm, -, hnow, ⟨-, hentitled⟩, -⟩
      cases hevent
      rw [Option.some.inj (hm.symm.trans hp), hjob] at hentitled
      rw [Option.some.inj (hm.symm.trans hp)] at hnow
      exact absurd (hnow ▸ hentitled) hnot
  · rcases shows_of_result hstart ht hmem hjob hreply with ⟨s, hs, it, hit, hsee, -⟩
    have hseen := Visit.seen_settling hstart ht hmem s hs
    exact Enrollment.Entitled.stays ⟨it.payment, shown_located hit, hsee⟩ hseen.2.stable hgood.inv

/-- Another parent has asked about the charge, and the payment has been found. -/
theorem outcome_withheld_stranger : ∃ t p locator user,
    Sys.exec store Visit.program (fun _ _ _ => true) (paidAndAsked ++
      [.spawn (.outcome ⟨some "lopay_a7", none⟩ ⟨"stranger", .PARENT, none⟩),
        .move 2 (smoothly "c" 0)]) (.init oneFamily) = some t ∧
    t.procs[2]? = some p ∧ p.job = .outcome locator user ∧
    ¬ Enrollment.Entitled locator user t.store ∧
    p.prog.request? = none ∧ (∀ ch t', t.step store Visit.program (.move 2 ch) = some t' →
      t'.store = t.store) ∧ ∀ reply, p.prog.result? ≠ some (.ok (some reply)) := by
  have hruns : ((Sys.exec store Visit.program (fun _ _ _ => true) (paidAndAsked ++
      [.spawn (.outcome ⟨some "lopay_a7", none⟩ ⟨"stranger", .PARENT, none⟩),
        .move 2 (smoothly "c" 0)]) (.init oneFamily)).any fun t => t.procs[2]?.any fun p =>
          p.job.asked?.any fun r => !(located r.1 t.store).any (maySee r.2)) = true := by
    decide +kernel
  rcases (Option.any_eq_true _ _).mp hruns with ⟨t, ht, hany⟩
  rcases (Option.any_eq_true _ _).mp hany with ⟨p, hp, hany⟩
  rcases (Option.any_eq_true _ _).mp hany with ⟨⟨locator, user⟩, hasked, hnone⟩
  have hjob := Visit.asked?_eq_some hasked
  have hnot : ¬ Enrollment.Entitled locator user t.store := by
    rintro ⟨payment, hlocated, hsee⟩
    rw [hlocated, Option.any_some, hsee] at hnone
    cases hnone
  exact ⟨t, p, locator, user, ht, hp, hjob, hnot,
    outcome_withheld (fun _ h => h) (reach_of_visits ht) hp hjob hnot⟩

/-- Once a request has answered that a payment went through or failed, no request that is made
    later answers that it is being processed, and it answers about the same payment. -/
theorem outcome_settles (hstart : ∀ s, start s → Coherent s)
    (ht : Sys.Reach store Visit.program (fun _ _ _ => True) start t)
    (hu : Sys.Leads store Visit.program (fun _ _ _ => True) t u) (hp : p ∈ t.procs)
    (hjob : p.job = .outcome locator user) (hreply : p.prog.result? = some (.ok (some reply)))
    (hsettled : reply.view.state ≠ .processing) {pid : Nat} (hpid : t.procs.length ≤ pid)
    (hq : u.procs[pid]? = some q) (hjob' : q.job = .outcome locator user')
    (hlater : q.prog.result? = some (.ok (some later))) :
    later.view.state ≠ .processing ∧ later.view.reference = reply.view.reference ∧
      later.view.paymentType = reply.view.paymentType := by
  have hgood := ht.good Visit.discipline hstart
  have hu' := hu.reach (fun _ _ _ h => h) ht
  rcases shows_of_result hstart ht hp hjob hreply with ⟨s, hs, it, hit, -, hview, -⟩
  rcases shows_of_result hstart hu' (List.mem_of_getElem? hq) hjob' hlater with
    ⟨s', hs', it', hit', -, hview', -⟩
  have hcoh := (Visit.seen_settling hstart ht hp s hs).1
  have hcoh' := (Visit.seen_settling hstart hu' (List.mem_of_getElem? hq) s' hs').1
  have hsince := (hu.since (P := Settling t.store) (fun v hv => Visit.leads_settling hgood hv) hpid
    hq).seen s' hs'
  have hgone := (Visit.seen_settling hstart ht hp s hs).2.trans hsince
  -- The payment that was shown first is the one that is shown later.
  have hlocated := shown_located hit
  rcases located_stays hlocated hgone.stable hcoh' with ⟨payment, hpayment, hid, hcontinues, -⟩
  rw [Option.some.inj (hpayment.symm.trans (shown_located hit'))] at hid hcontinues
  have hrow := (Db.payment?_eq_some (located_payment? hlocated)).2.1
  have hrow' := (Db.payment?_eq_some (located_payment? (shown_located hit'))).2.1
  rw [hview, ne_eq, processing_iff hcoh hit] at hsettled
  refine ⟨?_, ?_, ?_⟩
  · rw [hview', ne_eq, processing_iff hcoh' hit']
    exact hgone.settled _ _ _ hrow hsettled (hid ▸ hrow')
  · rw [hview', hview]
    simp only [paymentOutcomeView, hid, hcontinues.paystackReference]
  · rw [hview', hview]
    exact hcontinues.paymentType

/-- The parent asks once more. -/
theorem outcome_settles_again : ∃ t u p q locator user user' reply later,
    Sys.Leads store Visit.program (fun _ _ _ => True) t u ∧ p ∈ t.procs ∧
    p.job = .outcome locator user ∧ p.prog.result? = some (.ok (some reply)) ∧
    reply.view.state ≠ .processing ∧ t.procs.length ≤ 2 ∧ u.procs[2]? = some q ∧
    q.job = .outcome locator user' ∧ q.prog.result? = some (.ok (some later)) ∧
    later.view.state ≠ .processing ∧ later.view.reference = reply.view.reference ∧
      later.view.paymentType = reply.view.paymentType := by
  have hruns : ((Sys.exec store Visit.program (fun _ _ _ => true) paidAndAsked
      (.init oneFamily)).any fun t => decide (t.procs.length = 2) &&
        (Sys.exec store Visit.program (fun _ _ _ => true)
          [.spawn (.outcome ⟨some "lopay_a7", none⟩ parentUser), .move 2 (smoothly "c" 0)] t).any
            fun u => (answeredOutcome? 2 u).any fun r =>
              decide (r.1 = ⟨some "lopay_a7", none⟩)) = true := by
    decide +kernel
  rcases paidAndAsked_answers with ⟨t, p, locator, user, reply, ht, hp, hjob, hreply, hlocator, -,
    hstate, -⟩
  rw [ht, Option.any_some, Bool.and_eq_true, decide_eq_true_eq] at hruns
  rcases hruns with ⟨hlength, hany⟩
  rcases (Option.any_eq_true _ _).mp hany with ⟨u, hu, hany⟩
  rcases (Option.any_eq_true _ _).mp hany with ⟨⟨locator', user', later, y⟩, hanswered, hsame⟩
  rcases answeredOutcome?_eq_some hanswered with ⟨q, hq, hjob', hlater, -⟩
  have hlocator' : locator' = locator := (of_decide_eq_true hsame).trans hlocator.symm
  rw [hlocator'] at hjob'
  have hmem := List.mem_of_getElem? hp
  have hsettled : reply.view.state ≠ .processing := by
    rw [hstate]
    exact nofun
  have hleads : Sys.Leads store Visit.program (fun _ _ _ => True) t u :=
    Sys.Leads.of_exec (fun _ _ _ _ => trivial) .refl hu
  exact ⟨t, u, p, q, locator, user, user', reply, later, hleads, hmem, hjob, hreply, hsettled,
    hlength.le, hq, hjob', hlater, outcome_settles (fun _ h => h) (reach_of_visits ht) hleads hmem
      hjob hreply hsettled hlength.le hq hjob' hlater⟩

end Requests

end Lopay
