import Lopay.Books.Alone

/-!
# What a rejection takes with it

`rejectPayment`, `rejectFirstPayment` and `failPaystackPayment` close one payment and
write FAILED to its plan whatever else is recorded there. This module says exactly when
that takes a plan down, and when a manual operation reaches a payment that is collected
by card.
-/

namespace Lopay

open Transactions

variable {s t : Db} {kind : Kind} {entry : Entry} {locks : List Lock} {j : Job}

/-! ### When a plan is failed -/

/-- The calls that close the payment `p` with key `k`. -/
inductive Job.Closing (k : Id) (p : Payment) : Job → Prop
  | reject {schoolId : Id} {actor : AuditActor} : Closing k p (.rejectPayment k schoolId actor)
  | rejectFirst {actor : AuditActor} : Closing k p (.rejectFirstPayment k actor)
  | fail {reference : String} : p.paystackReference = some reference →
      Closing k p (.failPaystackPayment reference)

/-- `p` is a first payment that passes the filters of the call. -/
def Job.Strikes (j : Job) (p : Payment) : Prop :=
  p.paymentType = .FIRST_PAYMENT ∧ match j with
    | .rejectPayment _ schoolId _ => p.schoolId = schoolId ∧ p.isConfirmed = false
    | .rejectFirstPayment .. => Ledger.isManualFirstPayment p = true
    | .failPaystackPayment _ => p.status = .PENDING
    | _ => False

/-- What stays of a payment and its plan while nothing strikes the payment. -/
structure Spared (j : Job) (k : Id) (p : Payment) (id : Id) (e : ChildEnrollment) (s : Db) :
    Prop where
  plan : ∃ e', s.enrollments.lookup id = some e' ∧ e'.paymentStatus = e.paymentStatus
  payment : ∃ q, s.payments.lookup k = some q ∧ p.Continues q ∧ (j.Strikes q → j.Strikes p)

/-- A closing that does not strike the payment spares its plan. -/
theorem Posting.spared (hs : Coherent s) (h : Posting (· = ·) s kind entry)
    (hm : entry.Made s t locks) {k : Id} {p : Payment} {id : Id} {e : ChildEnrollment}
    (hj : j.Closing k p) (hmay : j.May kind) (hkeep : Spared j k p id e s)
    (hother : e.paymentStatus = .FAILED ∨ ¬ (p.enrollmentId = id ∧ j.Strikes p)) :
    Spared j k p id e t := by
  obtain ⟨⟨e', he', hstatus⟩, q, hq, hc, hstrikes⟩ := hkeep
  -- Closing a payment of `k` that is struck leaves its plan only if that is FAILED anyway.
  have hclose : ∀ {q : Payment} {eq : ChildEnrollment} {audit},
      entry = ⟨some (k, { q with status := .FAILED }),
        some (q.enrollmentId, { eq with paymentStatus := .FAILED }), audit⟩ →
      s.payments.lookup k = some q → s.enrollments.lookup q.enrollmentId = some eq →
      j.Strikes q → Spared j k p id e t := by
    rintro q' eq audit rfl hq' heq hstruck
    obtain rfl := Option.some.inj (hq.symm.trans hq')
    refine ⟨?_, _, hm.payment_put rfl, hc.trans ⟨rfl, rfl, rfl, rfl, rfl, fun _ => ⟨rfl, rfl⟩,
      fun h => h⟩, fun _ => hstrikes hstruck⟩
    by_cases hplan : q.enrollmentId = id
    · rcases hother with hfailed | hno
      · subst hplan
        exact ⟨_, hm.plan_put rfl, hfailed.symm⟩
      · exact absurd ⟨hc.enrollmentId.symm.trans hplan, hstrikes hstruck⟩ hno
    · refine ⟨e', ?_, hstatus⟩
      rw [hm.plan_kept fun _ h => hplan (Prod.mk.inj (Option.some.inj h)).1]
      exact he'
  cases hj with
  | reject =>
    obtain rfl := hmay
    cases h with
    | reject hq' _ htype hunconfirmed =>
      obtain rfl := Option.some.inj (hq.symm.trans hq')
      refine ⟨⟨e', ?_, hstatus⟩, _, hm.payment_put rfl, hc.trans ⟨rfl, rfl, rfl, rfl, rfl,
        fun _ => ⟨rfl, rfl⟩, fun h => h⟩, fun hstruck => absurd hstruck.1 htype⟩
      rw [hm.plan_kept fun _ h => nomatch h]
      exact he'
    | close hq' hcloses htype hunconfirmed he =>
      obtain ⟨rfl, hschool⟩ := hcloses
      exact hclose rfl hq' he ⟨htype, hschool, hunconfirmed⟩
  | rejectFirst =>
    obtain rfl := hmay
    cases h with
    | close hq' hcloses htype hunconfirmed he =>
      obtain ⟨rfl, -, hreceiver, href⟩ := hcloses
      refine hclose rfl hq' he ⟨htype, ?_⟩
      simp [Ledger.isManualFirstPayment, htype, hreceiver, hunconfirmed, href]
  | fail href =>
    obtain rfl := hmay
    cases h with
    | close hq' hcloses htype hunconfirmed he =>
      obtain ⟨href', hpending⟩ := hcloses
      obtain rfl := hs.one_reference _ _ _ _ _ hq' hq href' (hc.paystackReference.trans href)
      exact hclose rfl hq' he ⟨htype, hpending⟩

/-- Closing a payment that it strikes is something the call can do. -/
theorem Job.Closing.can {k : Id} {p : Payment} {e : ChildEnrollment} (hj : j.Closing k p)
    (hs : Coherent s) (hp : s.payments.lookup k = some p) (hstrikes : j.Strikes p)
    (he : s.enrollments.lookup p.enrollmentId = some e) :
    ∃ ch, Closed k p e s (j.program.alone store ch (.init s)).2.now := by
  apply Job.alone_of_can
  cases hj with
  | reject =>
    obtain ⟨htype, rfl, hunconfirmed⟩ := hstrikes
    exact rejectPayment_can hs hp htype hunconfirmed he _
  | rejectFirst => exact rejectFirstPayment_can hs hp hstrikes.2 he _
  | fail href => exact failPaystackPayment_can hs hp href hstrikes.2 he

/-- Closing a payment leaves the status of a plan alone, in particular of one that has been
    paid, exactly when the plan is FAILED already or the payment is not one of its first
    payments that passes the filters of the call. -/
theorem plan_failed_only_if_struck {t : Service}
    (ht : Sys.Reach store Job.program (fun _ _ _ => True) Opening t) {id k : Id}
    {e : ChildEnrollment} {p : Payment} (he : t.store.enrollments.lookup id = some e)
    (hp : t.store.payments.lookup k = some p) {j : Job} (hj : j.Closing k p) :
    (∀ ch, ∃ e', (j.program.alone store ch (.init t.store)).2.now.enrollments.lookup id = some e' ∧
      e'.paymentStatus = e.paymentStatus) ↔
    e.paymentStatus = .FAILED ∨ ¬ (p.enrollmentId = id ∧ j.Strikes p) := by
  have hs : Coherent t.store := reach_coherent (fun s hs => hs.coherent) ht
  constructor
  · intro hsame
    rw [or_iff_not_imp_right, not_not]
    rintro ⟨rfl, hstrikes⟩
    obtain ⟨ch, -, hfailed⟩ := hj.can hs hp hstrikes he
    obtain ⟨e', he', hstatus⟩ := hsame ch
    rw [hfailed, AList.lookup_insert] at he'
    rw [← hstatus, ← Option.some.inj he']
  · intro hother ch
    have hkeep : Spared j k p id e (j.program.alone store ch (.init t.store)).2.now := by
      refine Job.alone_invariant (I := Spared j k p id e) hs ?_ ?_ ch
      · exact ⟨⟨e, he, rfl⟩, p, hp, .refl p, fun h => h⟩
      · intro kind s entry locks t hs hmay h hm hkeep
        exact h.spared hs hm hj hmay hkeep hother
    exact hkeep.plan

/-- A plan whose first payment `a8` was rejected, and that was opened again and paid with
    `c7`. -/
def paidAtSecondTry : List (Event Job Answer) :=
  uninterrupted 0 (.enrollChild (enrollment none) "parent") "a" 18 ++
  uninterrupted 1 (.rejectPayment "a8" "school" owner) "b" 9 ++
  uninterrupted 2 (.enrollChild (enrollment none) "parent") "c" 17 ++
  uninterrupted 3 (.settleFirstPayment "c7" admin) "d" 12

theorem plan_failed_only_if_struck_paidAtSecondTry : ∃ (t : Service) (e : ChildEnrollment)
    (p : Payment),
    Sys.exec store Job.program (fun _ _ _ => true) paidAtSecondTry (.init oneFamily) = some t ∧
    t.store.enrollments.lookup "a6" = some e ∧ t.store.payments.lookup "a8" = some p ∧
    ((∀ ch, ∃ e', ((Job.rejectPayment "a8" "another" owner).program.alone store ch
        (.init t.store)).2.now.enrollments.lookup "a6" = some e' ∧
        e'.paymentStatus = e.paymentStatus) ↔
      e.paymentStatus = .FAILED ∨
        ¬ (p.enrollmentId = "a6" ∧ (Job.rejectPayment "a8" "another" owner).Strikes p)) := by
  have hruns : ((Sys.exec store Job.program (fun _ _ _ => true) paidAtSecondTry
      (.init oneFamily)).any fun t => (t.store.enrollments.lookup "a6").isSome &&
        (t.store.payments.lookup "a8").isSome) = true := by
    decide +kernel
  obtain ⟨t, ht, hcond⟩ := (Option.any_eq_true _ _).mp hruns
  simp only [Bool.and_eq_true, Option.isSome_iff_exists] at hcond
  obtain ⟨⟨e, he⟩, p, hp⟩ := hcond
  have hreach : Sys.Reach store Job.program (fun _ _ _ => True) Opening t :=
    Sys.reach_of_exec (fun _ _ _ _ => trivial) (.init oneFamily_opening) ht
  exact ⟨t, e, p, ht, he, hp, plan_failed_only_if_struck hreach he hp .reject⟩

/-- The school rejects `a8` once more, and the paid plan is FAILED. -/
theorem plan_failed_by_settled_rejection :
    ¬ ∀ (t : Service), Sys.Reach store Job.program (fun _ _ _ => True) Opening t →
      ∀ id e k₀ p₀, t.store.enrollments.lookup id = some e → t.store.payments.lookup k₀ = some p₀ →
        p₀.enrollmentId = id → p₀.paymentType = .FIRST_PAYMENT → p₀.status = .SUCCESS →
      ∀ k p j, k ≠ k₀ → t.store.payments.lookup k = some p → Job.Closing k p j →
      ∀ ch e', (j.program.alone store ch (.init t.store)).2.now.enrollments.lookup id = some e' →
        e'.paymentStatus = e.paymentStatus := by
  intro hlaw
  have hruns : ((Sys.exec store Job.program (fun _ _ _ => true) paidAtSecondTry
      (.init oneFamily)).any fun t => (t.store.enrollments.lookup "a6").any fun e =>
        (t.store.payments.lookup "c7").any fun p₀ => (t.store.payments.lookup "a8").any fun p =>
          (((Job.rejectPayment "a8" "school" owner).program.alone store (smoothly "e")
            (.init t.store)).2.now.enrollments.lookup "a6").any fun e' =>
            (p₀.enrollmentId = "a6" ∧ p₀.paymentType = .FIRST_PAYMENT ∧ p₀.status = .SUCCESS) ∧
              e'.paymentStatus ≠ e.paymentStatus) = true := by
    decide +kernel
  obtain ⟨t, ht, hany⟩ := (Option.any_eq_true _ _).mp hruns
  obtain ⟨e, he, hany⟩ := (Option.any_eq_true _ _).mp hany
  obtain ⟨p₀, hp₀, hany⟩ := (Option.any_eq_true _ _).mp hany
  obtain ⟨p, hp, hany⟩ := (Option.any_eq_true _ _).mp hany
  obtain ⟨e', he', hcond⟩ := (Option.any_eq_true _ _).mp hany
  obtain ⟨⟨hplan, htype, hstatus⟩, hwrong⟩ := of_decide_eq_true hcond
  have hreach : Sys.Reach store Job.program (fun _ _ _ => True) Opening t :=
    Sys.reach_of_exec (fun _ _ _ _ => trivial) (.init oneFamily_opening) ht
  exact hwrong (hlaw t hreach _ e _ p₀ he hp₀ hplan htype hstatus _ p _ (by decide) hp .reject _ e'
    he')

/-! ### Card payments -/

/-- The operations of a school owner or an admin on payments. -/
def Job.Manual : Job → Prop
  | confirmPayment .. | rejectPayment .. | reversePayment .. | settleFirstPayment ..
  | rejectFirstPayment .. | confirmFirstPayment .. => True
  | _ => False

/-- The payment that a manual operation names. -/
def Job.target? : Job → Option Id
  | confirmPayment paymentId .. | rejectPayment paymentId .. | reversePayment paymentId ..
  | settleFirstPayment paymentId _ | rejectFirstPayment paymentId _ => some paymentId
  | _ => none

/-- The jobs that call `reconcilePaystackPayment`, `failPaystackPayment` or
    `reversePaystackPaymentByDispute`. -/
def Job.FollowsPaystack : Job → Prop
  | reconcilePaystackPayment .. | failPaystackPayment _ | reversePaystackPaymentByDispute ..
  | processPaystackWebhookEvent _ | runSweep | initiateFirstPayment .. => True
  | _ => False

/-- From `s` to `t` the job has not moved the payment, nor its plan on its account. -/
structure Unmoved (j : Job) (k : Id) (p : Payment) (s t : Db) : Prop where
  payment : ∃ q, t.payments.lookup k = some q ∧ q.status = p.status ∧
    q.isConfirmed = p.isConfirmed
  plan : j.target? = some k → ∀ e, s.enrollments.lookup p.enrollmentId = some e →
    ∃ e', t.enrollments.lookup p.enrollmentId = some e' ∧ e'.paymentStatus = e.paymentStatus

theorem Job.followsPaystack_of_may {j : Job}
    (h : j.May (.credit .FIRST_PAYMENT_PAID) ∨ (∃ reference, j.May (.fail reference)) ∨
      ∃ reference, j.May (.dispute reference)) : j.FollowsPaystack := by
  cases j <;> simp [May, FollowsPaystack] at h ⊢

theorem Job.eq_rejectPayment {j : Job} {k schoolId : Id} (h : j.May (.reject k schoolId)) :
    ∃ actor, j = .rejectPayment k schoolId actor := by
  cases j <;> simp [May, Kind.Charges] at h ⊢
  exact ⟨h.1.symm, h.2.symm⟩

/-- What a posting can do to a card payment: follow Paystack, or reject it. -/
theorem Posting.card {E : Db → Db → Prop} (hs : Coherent s) (h : Posting E s kind entry) {k : Id}
    {p q : Payment} (hp : s.payments.lookup k = some p) (hcard : p.paystackReference ≠ none)
    (hk : entry.payment = some (k, q)) :
    (q.status = p.status ∧ q.isConfirmed = p.isConfirmed) ∨
    (kind = .credit .FIRST_PAYMENT_PAID ∨ (∃ reference, kind = .fail reference) ∨
      ∃ reference, kind = .dispute reference) ∨
    (kind = .reject k p.schoolId ∧ p.isConfirmed = false ∧ q = { p with status := .FAILED } ∧
      ∃ e, s.enrollments.lookup p.enrollmentId = some e ∧
        entry.plan = some (p.enrollmentId, { e with paymentStatus := .FAILED })) := by
  obtain ⟨hfirst, -⟩ := (hs.payments k p hp).reference hcard
  cases h with
  | confirm hp' htype | reverse hp' htype | amend hp' htype =>
    obtain ⟨rfl, rfl⟩ := Prod.mk.inj (Option.some.inj hk)
    obtain rfl := Option.some.inj (hp.symm.trans hp')
    rw [hfirst] at htype
    cases htype
  | reject hp' _ htype =>
    obtain ⟨rfl, rfl⟩ := Prod.mk.inj (Option.some.inj hk)
    obtain rfl := Option.some.inj (hp.symm.trans hp')
    exact absurd hfirst htype
  | close hp' hcloses _ hunconfirmed he =>
    obtain ⟨rfl, rfl⟩ := Prod.mk.inj (Option.some.inj hk)
    obtain rfl := Option.some.inj (hp.symm.trans hp')
    cases kind with
    | reject paymentId schoolId =>
      obtain ⟨rfl, rfl⟩ := hcloses
      exact Or.inr (Or.inr ⟨rfl, hunconfirmed, rfl, _, he, rfl⟩)
    | rejectFirst paymentId => exact absurd hcloses.2.2.2 hcard
    | fail reference => exact Or.inr (Or.inl (Or.inr (Or.inl ⟨reference, rfl⟩)))
    | _ => exact hcloses.elim
  | credit haction hp' _ _ _ _ _ href =>
    obtain ⟨rfl, rfl⟩ := Prod.mk.inj (Option.some.inj hk)
    obtain rfl := Option.some.inj (hp.symm.trans hp')
    rcases haction with rfl | rfl | rfl
    · exact absurd (href (by decide)) hcard
    · exact absurd (href (by decide)) hcard
    · exact Or.inr (Or.inl (Or.inl rfl))
  | dispute => exact Or.inr (Or.inl (Or.inr (Or.inr ⟨_, rfl⟩)))
  | releaseKey hp' | storeAccessCode hp' =>
    obtain ⟨rfl, rfl⟩ := Prod.mk.inj (Option.some.inj hk)
    obtain rfl := Option.some.inj (hp.symm.trans hp')
    exact Or.inl ⟨rfl, rfl⟩
  | openPlan _ ho | reopenPlan _ _ ho =>
    obtain ⟨rfl, rfl⟩ := Prod.mk.inj (Option.some.inj hk)
    rw [ho.fresh] at hp
    cases hp
  | submit hfresh | migrate hfresh =>
    obtain ⟨rfl, rfl⟩ := Prod.mk.inj (Option.some.inj hk)
    rw [hfresh] at hp
    cases hp
  | markDefaulted | sweepDefaulted | aside => cases hk

/-- Every manual operation but `rejectPayment` refuses a card payment. -/
theorem Job.refuses_card (hs : Coherent s) {k : Id} {p : Payment}
    (hp : s.payments.lookup k = some p) (hcard : p.paystackReference ≠ none)
    (htarget : j.target? = some k) (hreject : ∀ schoolId actor, j ≠ .rejectPayment k schoolId actor)
    (ch : Nat → Choice Answer) : (j.program.alone store ch (.init s)).2.now = s := by
  obtain ⟨hfirst, -⟩ := (hs.payments k p hp).reference hcard
  obtain ⟨payment, hpayment⟩ := hs.payment?_isSome hp
  obtain ⟨-, hrow, -⟩ := Db.payment?_eq_some hpayment
  obtain rfl := Option.some.inj (hp.symm.trans hrow)
  have hmanual : Ledger.isManualFirstPayment payment.row = false := by
    simp [Ledger.isManualFirstPayment, hcard]
  cases j with
  | confirmPayment | reversePayment =>
    obtain rfl := Option.some.inj htarget
    exact alone_refused (by simp [hpayment, hfirst]) ch
  | settleFirstPayment | rejectFirstPayment =>
    obtain rfl := Option.some.inj htarget
    exact alone_refused (by simp [hpayment, hmanual]) ch
  | rejectPayment paymentId schoolId actor =>
    obtain rfl := Option.some.inj htarget
    exact absurd rfl (hreject schoolId actor)
  | _ => cases htarget

/-- What a manual operation posts for a card payment is a rejection. -/
theorem Job.Manual.posts_rejection {j : Job} (hj : j.Manual) (hmay : j.May kind)
    (h : kind = .credit .FIRST_PAYMENT_PAID ∨ (∃ reference, kind = .fail reference) ∨
      ∃ reference, kind = .dispute reference) : False := by
  cases j with
  | confirmPayment | rejectPayment | reversePayment | settleFirstPayment | rejectFirstPayment
  | confirmFirstPayment =>
    obtain rfl := hmay
    rcases h with h | ⟨_, h⟩ | ⟨_, h⟩ <;> cases h
  | _ => exact hj.elim

/-- A rejection by another school, or of a confirmed payment, is refused. -/
theorem rejectPayment_refused (hs : Coherent s) {k : Id} {p : Payment}
    (hp : s.payments.lookup k = some p) {schoolId : Id} {actor : AuditActor}
    (h : p.schoolId ≠ schoolId ∨ p.isConfirmed = true) (ch : Nat → Choice Answer) :
    ((Job.rejectPayment k schoolId actor).program.alone store ch (.init s)).2.now = s := by
  obtain ⟨payment, hpayment⟩ := hs.payment?_isSome hp
  obtain ⟨-, hrow, -⟩ := Db.payment?_eq_some hpayment
  obtain rfl := Option.some.inj (hp.symm.trans hrow)
  refine alone_refused ?_ ch
  rcases h with hschool | hconfirmed
  · simp [hpayment, hschool]
  · simp [hpayment, hconfirmed]

/-- A manual operation leaves a card payment alone, unless it is the rejection of one that
    is not confirmed by its own school. -/
theorem Job.Manual.unmoved {j : Job} (hj : j.Manual) (hs : Coherent s) {k : Id} {p : Payment}
    {e : ChildEnrollment} (hp : s.payments.lookup k = some p) (hcard : p.paystackReference ≠ none)
    (he : s.enrollments.lookup p.enrollmentId = some e)
    (hother : (∀ actor, j ≠ .rejectPayment k p.schoolId actor) ∨ p.isConfirmed = true ∨
      (p.status = .FAILED ∧ e.paymentStatus = .FAILED)) (ch : Nat → Choice Answer) :
    Unmoved j k p s (j.program.alone store ch (.init s)).2.now := by
  -- Nothing has changed at all.
  have hsame : (j.program.alone store ch (.init s)).2.now = s →
      Unmoved j k p s (j.program.alone store ch (.init s)).2.now := by
    intro h
    rw [h]
    exact ⟨⟨p, hp, rfl, rfl⟩, fun _ e he => ⟨e, he, rfl⟩⟩
  by_cases htarget : j.target? = some k
  · by_cases hreject : ∃ schoolId actor, j = .rejectPayment k schoolId actor
    · obtain ⟨schoolId, actor, rfl⟩ := hreject
      by_cases hrefused : p.schoolId ≠ schoolId ∨ p.isConfirmed = true
      · exact hsame (rejectPayment_refused hs hp hrefused ch)
      · rw [not_or, not_not] at hrefused
        obtain ⟨rfl, hunconfirmed⟩ := hrefused
        have hfailed : p.status = .FAILED ∧ e.paymentStatus = .FAILED := by
          rcases hother with hne | hconfirmed | hfailed
          · exact absurd rfl (hne actor)
          · exact absurd hconfirmed hunconfirmed
          · exact hfailed
        -- It fails what is FAILED already.
        let I (s : Db) : Prop := (∃ q, s.payments.lookup k = some q ∧ p.Continues q ∧
          q.status = p.status ∧ q.isConfirmed = p.isConfirmed) ∧
          ∃ e', s.enrollments.lookup p.enrollmentId = some e' ∧ e'.paymentStatus = e.paymentStatus
        have hkeep : I ((Job.rejectPayment k p.schoolId actor).program.alone store ch
            (.init s)).2.now := by
          refine Job.alone_invariant (I := I) hs ?_ ?_ ch
          · exact ⟨⟨p, hp, .refl p, rfl, rfl⟩, e, he, rfl⟩
          · rintro kind s entry locks t hs hmay h hm ⟨⟨q, hq, hc, hstatus, hconfirmed⟩, e', he', hplan⟩
            obtain rfl := hmay
            cases h with
            | reject hq' _ htype =>
              obtain rfl := Option.some.inj (hq.symm.trans hq')
              have hcard' : q.paystackReference ≠ none := by rw [hc.paystackReference]; exact hcard
              exact absurd ((hs.payments _ _ hq).reference hcard').1 htype
            | close hq' hcloses _ hunconfirmed he' =>
              obtain ⟨rfl, -⟩ := hcloses
              obtain rfl := Option.some.inj (hq.symm.trans hq')
              refine ⟨⟨_, hm.payment_put rfl, hc.trans ⟨rfl, rfl, rfl, rfl, rfl,
                fun _ => ⟨rfl, rfl⟩, fun h => h⟩, hfailed.1.symm, hconfirmed⟩, ?_⟩
              rw [← hc.enrollmentId]
              exact ⟨_, hm.plan_put rfl, hfailed.2.symm⟩
        obtain ⟨⟨q, hq, -, hstatus, hconfirmed⟩, e', he', hplan⟩ := hkeep
        refine ⟨⟨q, hq, hstatus, hconfirmed⟩, fun _ e₀ he₀ => ⟨e', he', ?_⟩⟩
        rw [hplan, Option.some.inj (he.symm.trans he₀)]
    · refine hsame (Job.refuses_card hs hp hcard htarget ?_ ch)
      exact fun schoolId actor h => hreject ⟨schoolId, actor, h⟩
  · let I (s : Db) : Prop := ∃ q, s.payments.lookup k = some q ∧ p.Continues q ∧
      q.status = p.status ∧ q.isConfirmed = p.isConfirmed
    have hkeep : I (j.program.alone store ch (.init s)).2.now := by
      refine Job.alone_invariant (I := I) hs ⟨p, hp, .refl p, rfl, rfl⟩ ?_ ch
      rintro kind s entry locks t hs hmay h hm ⟨q, hq, hc, hstatus, hconfirmed⟩
      obtain ⟨q', hq', hc'⟩ := (h.stable hm).payments k q hq
      have hcard' : q.paystackReference ≠ none := by rw [hc.paystackReference]; exact hcard
      rcases hm.payment_cases hq' with hput | ⟨hold, -⟩
      · rcases h.card hs hq hcard' hput with ⟨h₁, h₂⟩ | hpaystack | ⟨rfl, -⟩
        · exact ⟨q', hq', hc.trans hc', h₁.trans hstatus, h₂.trans hconfirmed⟩
        · exact (hj.posts_rejection hmay hpaystack).elim
        · obtain ⟨actor, rfl⟩ := Job.eq_rejectPayment hmay
          exact absurd rfl htarget
      · obtain rfl := Option.some.inj (hq.symm.trans hold)
        exact ⟨q, hq', hc, hstatus, hconfirmed⟩
    obtain ⟨q, hq, -, hstatus, hconfirmed⟩ := hkeep
    exact ⟨⟨q, hq, hstatus, hconfirmed⟩, fun h => absurd h htarget⟩

/-- A manual operation leaves a card payment, and its plan on its account, alone exactly
    when it is not the rejection of an unconfirmed one by its own school, or everything is
    FAILED already; and in any interleaving the other jobs that move a card payment are
    those that follow Paystack. -/
theorem card_payment_moved_by_paystack {t : Service}
    (ht : Sys.Reach store Job.program (fun _ _ _ => True) Opening t) {k : Id} {p : Payment}
    {e : ChildEnrollment} (hp : t.store.payments.lookup k = some p)
    (hcard : p.paystackReference ≠ none)
    (he : t.store.enrollments.lookup p.enrollmentId = some e) :
    (∀ j : Job, j.Manual →
      ((∀ ch, Unmoved j k p t.store (j.program.alone store ch (.init t.store)).2.now) ↔
        (∀ actor, j ≠ .rejectPayment k p.schoolId actor) ∨ p.isConfirmed = true ∨
          (p.status = .FAILED ∧ e.paymentStatus = .FAILED))) ∧
    ∀ event t' q, t.step store Job.program event = some t' →
      t'.store.payments.lookup k = some q →
      (q.status ≠ p.status ∨ q.isConfirmed ≠ p.isConfirmed) → ∃ x ∈ t.mover? event,
        x.job.FollowsPaystack ∨ ∃ actor, x.job = .rejectPayment k p.schoolId actor := by
  have hstart : ∀ s, Opening s → Coherent s := fun s hs => hs.coherent
  have hs := reach_coherent hstart ht
  constructor
  · intro j hj
    constructor
    · intro hall
      by_contra hno
      simp only [not_or, not_forall, not_not] at hno
      obtain ⟨⟨actor, rfl⟩, hunconfirmed, hnot⟩ := hno
      obtain ⟨hfirst, -⟩ := (hs.payments k p hp).reference hcard
      have hcan := rejectPayment_can hs hp hfirst (Bool.not_eq_true _ ▸ hunconfirmed) he actor
      obtain ⟨ch, hpayments, hplans⟩ := Job.alone_of_can hcan
      obtain ⟨⟨q, hq, hstatus, -⟩, hplan⟩ := hall ch
      obtain ⟨e', he', hstatus'⟩ := hplan rfl e he
      rw [hpayments, AList.lookup_insert] at hq
      rw [hplans, AList.lookup_insert] at he'
      obtain rfl := Option.some.inj hq
      obtain rfl := Option.some.inj he'
      exact hnot ⟨hstatus.symm, hstatus'.symm⟩
    · exact fun hother ch => hj.unmoved hs hp hcard he hother ch
  · intro event t' q hstep hq hmoved
    rcases reach_committed Moves.any (fun _ _ _ _ _ _ => trivial) hstart ht hstep trivial with
      hsame | ⟨pid, ch, x, kind, ws, rfl, hx, hmay, -, ⟨entry, hposting, hmade⟩, hstore⟩
    · rw [hsame] at hq
      obtain rfl := Option.some.inj (hp.symm.trans hq)
      rcases hmoved with h | h <;> exact absurd rfl h
    · refine ⟨x, hx, ?_⟩
      rw [hstore] at hq
      rcases hmade.payment_cases hq with hput | ⟨hold, -⟩
      · rcases hposting.card hs hp hcard hput with ⟨h₁, h₂⟩ | hpaystack | ⟨rfl, -⟩
        · rcases hmoved with h | h
          · exact absurd h₁ h
          · exact absurd h₂ h
        · rcases hpaystack with rfl | ⟨reference, rfl⟩ | ⟨reference, rfl⟩
          · exact Or.inl (Job.followsPaystack_of_may (Or.inl hmay))
          · exact Or.inl (Job.followsPaystack_of_may (Or.inr (Or.inl ⟨_, hmay⟩)))
          · exact Or.inl (Job.followsPaystack_of_may (Or.inr (Or.inr ⟨_, hmay⟩)))
        · exact Or.inr (Job.eq_rejectPayment hmay)
      · obtain rfl := Option.some.inj (hp.symm.trans hold)
        rcases hmoved with h | h <;> exact absurd rfl h

theorem card_payment_moved_by_paystack_cardChargeOpen : ∃ (t : Service) (p : Payment)
    (e : ChildEnrollment),
    Sys.exec store Job.program (fun _ _ _ => true) cardChargeOpen (.init oneFamily) = some t ∧
    t.store.payments.lookup "a11" = some p ∧ p.paystackReference ≠ none ∧
    t.store.enrollments.lookup p.enrollmentId = some e ∧
    (∀ j : Job, j.Manual →
      ((∀ ch, Unmoved j "a11" p t.store (j.program.alone store ch (.init t.store)).2.now) ↔
        (∀ actor, j ≠ .rejectPayment "a11" p.schoolId actor) ∨ p.isConfirmed = true ∨
          (p.status = .FAILED ∧ e.paymentStatus = .FAILED))) ∧
    ∀ event t' q, t.step store Job.program event = some t' →
      t'.store.payments.lookup "a11" = some q →
      (q.status ≠ p.status ∨ q.isConfirmed ≠ p.isConfirmed) → ∃ x ∈ t.mover? event,
        x.job.FollowsPaystack ∨ ∃ actor, x.job = .rejectPayment "a11" p.schoolId actor := by
  have hruns : ((Sys.exec store Job.program (fun _ _ _ => true) cardChargeOpen
      (.init oneFamily)).any fun t => (t.store.payments.lookup "a11").any fun p =>
        p.paystackReference ≠ none ∧
          (t.store.enrollments.lookup p.enrollmentId).isSome) = true := by
    decide +kernel
  obtain ⟨t, ht, hany⟩ := (Option.any_eq_true _ _).mp hruns
  obtain ⟨p, hp, hcond⟩ := (Option.any_eq_true _ _).mp hany
  obtain ⟨hcard, hplan⟩ := of_decide_eq_true hcond
  obtain ⟨e, he⟩ := Option.isSome_iff_exists.mp hplan
  have hreach : Sys.Reach store Job.program (fun _ _ _ => True) Opening t :=
    Sys.reach_of_exec (fun _ _ _ _ => trivial) (.init oneFamily_opening) ht
  exact ⟨t, p, e, ht, hp, hcard, he, card_payment_moved_by_paystack hreach hp hcard he⟩

/-- The school rejects the open charge: without the condition a manual operation moves a
    card payment. -/
theorem card_payment_moved_by_hand :
    ¬ ∀ (t : Service), Sys.Reach store Job.program (fun _ _ _ => True) Opening t →
      ∀ k p, t.store.payments.lookup k = some p → p.paystackReference ≠ none →
      ∀ j : Job, j.Manual → ∀ ch q,
        (j.program.alone store ch (.init t.store)).2.now.payments.lookup k = some q →
        q.status = p.status := by
  intro hlaw
  have hruns : ((Sys.exec store Job.program (fun _ _ _ => true) cardChargeOpen
      (.init oneFamily)).any fun t => (t.store.payments.lookup "a11").any fun p =>
        (((Job.rejectPayment "a11" "school" owner).program.alone store (smoothly "b")
          (.init t.store)).2.now.payments.lookup "a11").any fun q =>
          p.paystackReference ≠ none ∧ q.status ≠ p.status) = true := by
    decide +kernel
  obtain ⟨t, ht, hany⟩ := (Option.any_eq_true _ _).mp hruns
  obtain ⟨p, hp, hany⟩ := (Option.any_eq_true _ _).mp hany
  obtain ⟨q, hq, hcond⟩ := (Option.any_eq_true _ _).mp hany
  obtain ⟨hcard, hmoved⟩ := of_decide_eq_true hcond
  have hreach : Sys.Reach store Job.program (fun _ _ _ => True) Opening t :=
    Sys.reach_of_exec (fun _ _ _ _ => trivial) (.init oneFamily_opening) ht
  exact hmoved (hlaw t hreach _ p hp hcard (.rejectPayment "a11" "school" owner) trivial _ q hq)

end Lopay
