import Lopay.Books.PaystackPosts
import Lopay.Enrollment.Webhook

/-!
# The enrollment operations commit postings only

The counterpart of the ledger operations for `EnrollmentService`: finding the plan a
first payment is for, opening it, submitting an installment, the webhook and the
sweeps.
-/

namespace Lopay

open Transactions Enrollment

section Operations

variable {K : Contract Db Write Answer} {E : Db → Db → Prop} {I : Exchanges → Db → Prop}
  {x : Context}

/-! ### Families -/

theorem Entry.MadeBy.putParent {s : Db} {id : Id} {row : Parent} (h : s.parents.lookup id = none) :
    Entry.MadeBy ⟨none, none, none⟩ s [.putParent id row] := by
  have hkept : ∀ k r, s.parents.lookup k = some r →
      (s.parents.insert id row).lookup k = some r := by
    intro k r hr
    rw [AList.lookup_insert_ne]
    · exact hr
    · rintro rfl
      rw [h] at hr
      cases hr
  refine ⟨rfl, fun _ => rfl, (List.append_nil _).symm, (fun _ _ h => nomatch h),
    (fun _ _ h => h), ?_, hkept, rfl, rfl, rfl⟩
  intro hs k c hc
  obtain ⟨parent, hparent⟩ := hs k c hc
  exact ⟨parent, hkept _ _ hparent⟩

theorem Entry.MadeBy.putChild {s : Db} {id : Id} {row : Child} (h : s.children.lookup id = none)
    (hparent : ∃ parent, s.parents.lookup row.parentId = some parent) :
    Entry.MadeBy ⟨none, none, none⟩ s [.putChild id row] := by
  refine ⟨rfl, fun _ => rfl, (List.append_nil _).symm, (fun _ _ h => nomatch h), ?_, ?_,
    (fun _ _ h => h), rfl, rfl, rfl⟩
  · intro k c hc
    have hne : k ≠ id := by
      rintro rfl
      rw [h] at hc
      cases hc
    exact (AList.lookup_insert_ne hne).trans hc
  · intro hs
    exact hs.insert hparent

theorem resolveParent_rests (hS : Session K E I) (haside : Owes K E I .aside)
    (hx : Rests I false x) {userId : Id} :
    (resolveParent userId).wp store K (fun _ => Rests I false) (fun _ => Rests I false) x := by
  unfold resolveParent
  refine Routine.wp_bind (hx.outside.read hS fun found y hy => ?_)
  cases found with
  | some r => exact Routine.wp_pure hy.rests
  | none =>
    refine Routine.wp_bind (hy.read hS fun user y hy => ?_)
    refine Routine.wp_bind (hy.orThrow fun user _ => ?_)
    refine Routine.wp_bind (hy.ask hS (by simp) fun id y hy => ?_)
    refine Routine.wp_bind (hy.autocommit hS haside (fun s a ws _ _ hf => ?_)
      fun _ _ _ _ _ _ hu => Routine.wp_pure hu)
    split at hf
    · cases hf
    next hfresh =>
    split at hf
    · cases hf
    split at hf
    · cases hf
    obtain ⟨-, rfl⟩ := Prod.mk.inj (Except.ok.inj hf)
    exact Or.inr ⟨_, .aside, Entry.MadeBy.putParent (Option.not_isSome_iff_eq_none.mp hfresh)⟩

theorem resolveChild_rests (hS : Session K E I) (haside : Owes K E I .aside)
    (hx : Rests I false x) {dto : CreateEnrollmentDto} {parentId : Id} :
    (resolveChild dto parentId).wp store K
      (fun _ => Rests I false) (fun _ => Rests I false) x := by
  unfold resolveChild
  split
  · refine Routine.wp_bind (hx.outside.read hS fun child y hy => ?_)
    refine Routine.wp_bind (hy.orThrow fun child _ => ?_)
    exact Routine.wp_bind (hy.throwIf fun _ => Routine.wp_pure hy.rests)
  · refine Routine.wp_bind (hx.outside.findFirst hS fun existing y hy => ?_)
    cases existing with
    | some childId => exact Routine.wp_pure hy.rests
    | none =>
      refine Routine.wp_tryCatch (Routine.wp_mono (fun _ _ h => h) (fun error z hz => ?_)
        (Routine.wp_bind (hy.ask hS (by simp) fun id y hy => Routine.wp_bind
          (hy.autocommit hS haside (fun s a ws _ _ hf => ?_)
            fun _ _ _ _ _ _ hu => Routine.wp_pure hu))))
      · split
        · refine Routine.wp_bind (hz.outside.findFirst hS fun raced y hy => ?_)
          exact hy.orThrow fun _ _ => hy.rests
        · exact Routine.wp_throw hz
      · split at hf
        · cases hf
        next hfresh =>
        split at hf
        · cases hf
        next hparent =>
        split at hf
        · cases hf
        obtain ⟨-, rfl⟩ := Prod.mk.inj (Except.ok.inj hf)
        rw [Option.isNone_iff_eq_none] at hparent
        exact Or.inr ⟨_, .aside, Entry.MadeBy.putChild (Option.not_isSome_iff_eq_none.mp hfresh)
          (Option.ne_none_iff_exists'.mp hparent)⟩
  · exact Routine.wp_throw hx

/-! ### The plan of a request -/

/-- A plan that a request to this school may re-open. -/
def Reusable (schoolId id : Id) (s : Db) : Prop :=
  ∃ e, s.enrollments.lookup id = some e ∧ e.schoolId = schoolId ∧ e.enrollmentInviteId = none

theorem Reusable.stable {schoolId id : Id} {s t : Db} (hst : Stable s t)
    (h : Reusable schoolId id s) : Reusable schoolId id t := by
  obtain ⟨e, he, hschool, hnone⟩ := h
  obtain ⟨e', he', hc⟩ := hst.enrollments id e he
  exact ⟨e', he', hc.schoolId.trans hschool, hc.enrollmentInviteId.trans hnone⟩

/-- What the target of a request says about the database. -/
def Enrollment.EnrollmentTarget.Fits (target : EnrollmentTarget) (schoolId : Id) (s : Db) : Prop :=
  (∀ id, target.retryEnrollmentId = some id → Reusable schoolId id s) ∧
    ∀ id, target.pendingEnrollmentId = some id → Reusable schoolId id s

theorem Enrollment.EnrollmentTarget.Fits.stable {target : EnrollmentTarget} {schoolId : Id} {s t : Db}
    (hst : Stable s t) (h : target.Fits schoolId s) : target.Fits schoolId t :=
  ⟨fun id hid => (h.1 id hid).stable hst, fun id hid => (h.2 id hid).stable hst⟩

theorem resolveEnrollmentTarget_posts (hS : Session K E I) (haside : Owes K E I .aside)
    (hx : Rests I false x) {dto : CreateEnrollmentDto} {userId : Id} {allowPendingRetry : Bool} :
    (resolveEnrollmentTarget dto userId allowPendingRetry).wp store K
      (fun target => Knows E I none (target.Fits dto.schoolId)) (fun _ => Rests I false) x := by
  unfold resolveEnrollmentTarget
  refine Routine.wp_bind (Routine.wp_mono (fun parentId y hy => ?_) (fun _ _ h => h)
    (resolveParent_rests hS haside hx))
  refine Routine.wp_bind (Routine.wp_mono (fun childId y hy => ?_) (fun _ _ h => h)
    (resolveChild_rests hS haside hy))
  refine Routine.wp_bind (hy.outside.read hS fun existing y hy => ?_)
  have hfits : ∀ target : EnrollmentTarget, target.Fits dto.schoolId y.now →
      Knows E I none (target.Fits dto.schoolId) y := fun target h =>
    ⟨hy.begun, hy.inv, h, fun s t hb hs => hs.stable (hS.stable _ _ hb.env)⟩
  obtain ⟨-, c, hc, hcoh, hfound⟩ := hy.holds
  cases existing with
  | none => exact Routine.wp_pure (hfits _ ⟨nofun, nofun⟩)
  | some r =>
    obtain ⟨enrollmentId, enrollment⟩ := r
    -- A plan that is PENDING or FAILED was not migrated.
    have hreusable : enrollment.schoolId = dto.schoolId →
        (enrollment.paymentStatus = .FAILED ∨ enrollment.paymentStatus = .PENDING) →
        Reusable dto.schoolId enrollmentId y.now := by
      intro hschool hstatus
      have hrow : c.enrollments.lookup enrollmentId = some enrollment :=
        Table.mem_rows.mp (List.mem_of_find?_eq_some hfound)
      refine Reusable.stable (hS.stable c y.now hc) ⟨enrollment, hrow, hschool, ?_⟩
      by_contra hmigrated
      obtain ⟨hpending, hfailed⟩ := (hcoh.enrollments _ _ hrow).opened hmigrated
      rcases hstatus with h | h
      · exact hfailed h
      · exact hpending h
    refine Routine.wp_ite (fun hfailed => Routine.wp_ite (fun hschool => ?_) fun _ => ?_)
      fun _ => Routine.wp_ite (fun hpending => ?_) fun _ => ?_
    · refine Routine.wp_pure (hfits _ ⟨?_, nofun⟩)
      rintro id hid
      obtain rfl := Option.some.inj hid
      exact hreusable hschool (Or.inl hfailed)
    · exact Routine.wp_throw hy.rests
    · refine Routine.wp_pure (hfits _ ⟨nofun, ?_⟩)
      rintro id hid
      obtain rfl := Option.some.inj hid
      exact hreusable hpending.2.2 (Or.inr hpending.2.1)
    · exact Routine.wp_throw hy.rests

theorem Knows.resolveActiveClassFee (hS : Session K E I) {P : Db → Prop}
    (hx : Knows E I none P x) {schoolId : Id} {className : String}
    {ok : ClassFee → Context → Prop} (h : ∀ classFee y, Knows E I none P y → ok classFee y) :
    (Enrollment.resolveActiveClassFee schoolId className).wp store K ok
      (fun _ => Rests I false) x := by
  refine Routine.wp_bind (hx.findFirst hS fun found y hy => ?_)
  exact hy.orThrow fun classFee _ => h classFee y
    { hy with holds := hy.holds.1, keeps := hx.keeps }

/-! ### Opening a plan -/

/-- The row a request opens a plan with. -/
structure Openable (dto : CreateEnrollmentDto) (figures : DepositCalculation)
    (row : ChildEnrollment) : Prop where
  schoolId : row.schoolId = dto.schoolId
  fee : row.totalSchoolFee = figures.schoolFees
  balance : row.remainingBalance = figures.schoolFees
  pending : row.paymentStatus = .PENDING
  notMigrated : row.enrollmentInviteId = none

/-- The plan `id` can be opened with this row: it is new, or it is the reused one. -/
def OpensAs (reuse : Option Id) (id : Id) (row : ChildEnrollment) (s : Db) : Prop :=
  match reuse with
  | some _ => ∃ e, s.enrollments.lookup id = some e ∧ e.Continues row
  | none => s.enrollments.lookup id = none ∧ (∃ c, s.children.lookup row.childId = some c) ∧
      ∃ school, s.schools.lookup row.schoolId = some school

/-- What opening a plan for a first payment under this reference is posted as. -/
def openKind (reuse : Option Id) (reference : Option String) : Kind :=
  match reuse with
  | some _ => .reopenPlan reference
  | none => .openPlan reference

theorem OpensAs.posting {reuse : Option Id} {reference : Option String} {k id : Id} {p : Payment}
    {row : ChildEnrollment} {s : Db} (h : OpensAs reuse id row s) (ho : Opens s k p row)
    (hplan : p.enrollmentId = id) (href : p.paystackReference = reference) :
    Posting E s (openKind reuse reference) ⟨some (k, p), some (id, row), none⟩ := by
  cases reuse with
  | none =>
    obtain ⟨hnew, hchild, hschool⟩ := h
    exact .openPlan hnew ho hplan href hchild hschool
  | some _ =>
    obtain ⟨e, he, hc⟩ := h
    exact .reopenPlan he hc ho hplan href

theorem Knows.openEnrollment (hS : Session K E I) {P : Db → Prop} (hx : Knows E I (some []) P x)
    {dto : CreateEnrollmentDto} {figures : DepositCalculation} {depositKobo : Int} {childId : Id}
    {reuse : Option Id} (hreuse : ∀ s, P s → ∀ id, reuse = some id → Reusable dto.schoolId id s)
    {ok : Id → Context → Prop}
    (h : ∀ id row y, Openable dto figures row → Knows E I (some [.putEnrollment id row])
      (fun s => P s ∧ OpensAs reuse id row s) y → ok id y) :
    (openEnrollment dto figures depositKobo childId reuse).wp store K ok
      (fun _ => Rests I true) x := by
  cases reuse with
  | some id =>
    refine Routine.wp_bind (hx.updateEnrollment hS fun e y hy => ?_)
    obtain ⟨hp, he⟩ := hy.holds
    obtain ⟨e', he', hschool, hnone⟩ := hreuse _ hp id rfl
    obtain rfl := Option.some.inj (he'.symm.trans he)
    have hrow : Openable dto figures (openedEnrollment dto figures depositKobo e'.childId
        e'.schoolId e'.enrollmentInviteId) := ⟨hschool, rfl, rfl, rfl, hnone⟩
    refine Routine.wp_pure (h id _ y hrow { hy with
      holds := ⟨hp, e', he, rfl, rfl, rfl⟩, keeps := ?_ })
    rintro s t hb ⟨hs, e₁, he₁, hc⟩
    have hlocked : t.enrollments.lookup id = s.enrollments.lookup id :=
      hb.enrollment (by simp [Write.locks]) []
    exact ⟨hx.keeps s t hb.weaken hs, e₁, hlocked.trans he₁, hc⟩
  | none =>
    refine Routine.wp_bind (hx.ask hS (by simp) fun id y hy => ?_)
    refine Routine.wp_bind (hy.createEnrollment hS fun y hy => ?_)
    exact Routine.wp_pure (h id _ y ⟨rfl, rfl, rfl, rfl, rfl⟩ hy)

/-! ### Idempotency keys -/

theorem Db.paymentByIdempotencyKey?_eq_some {db : Db} {key : String} {payment : PaymentOfPlan}
    (h : db.paymentByIdempotencyKey? key = some payment) :
    db.payments.lookup payment.id = some payment.row ∧
      payment.row.idempotencyKey = some key ∧
      payment.plan.id = payment.row.enrollmentId := by
  simp only [Db.paymentByIdempotencyKey?, Option.bind_eq_bind, Option.bind_eq_some_iff] at h
  obtain ⟨⟨k, p⟩, hfind, hpayment⟩ := h
  have hrow : db.payments.lookup k = some p := Table.mem_rows.mp (List.mem_of_find?_eq_some hfind)
  have hcond := List.find?_some hfind
  have hkey : p.idempotencyKey = some key := of_decide_eq_true hcond
  obtain ⟨rfl, hlookup, hplan, -⟩ := Db.payment?_eq_some hpayment
  obtain rfl := Option.some.inj (hrow.symm.trans hlookup)
  exact ⟨hrow, hkey, hplan⟩

/-- In a coherent database a key that some payment holds is found. -/
theorem Coherent.paymentByIdempotencyKey? {db : Db} (h : Coherent db) {k : Id} {p : Payment}
    {key : String} (hp : db.payments.lookup k = some p) (hkey : p.idempotencyKey = some key) :
    db.paymentByIdempotencyKey? key ≠ none := by
  have hfound : (db.payments.rows.find? fun r => r.2.idempotencyKey = some key).isSome := by
    rw [List.find?_isSome]
    exact ⟨(k, p), Table.mem_rows.mpr hp, decide_eq_true hkey⟩
  obtain ⟨⟨k', p'⟩, hr⟩ := Option.isSome_iff_exists.mp hfound
  have hp' : db.payments.lookup k' = some p' := Table.mem_rows.mp (List.mem_of_find?_eq_some hr)
  obtain ⟨payment, hpayment⟩ := h.payment?_isSome hp'
  simp [Db.paymentByIdempotencyKey?, hr, hpayment]

/-- What is left under an idempotency key once it has been released: a payment that did not
    hold it before, or that has changed its status since it was found settled. -/
def Released (E : Db → Db → Prop) (idempotencyKey : Option String) (s : Db) : Prop :=
  ∀ key k p, given idempotencyKey = some key → s.payments.lookup k = some p →
    p.idempotencyKey = some key → ∃ c t, E c t ∧ t.payments.lookup k = some p ∧
      ∀ p₀, c.payments.lookup k = some p₀ → p₀.idempotencyKey = some key →
        isReplayableIntent p₀.status = false ∧ p.status ≠ p₀.status

/-- A replayed intent is there right then, in a live status. Without one the method goes on
    with its key released. -/
theorem replayIntent_posts {B : Exchanges → Db → Prop} (hB : Session K E B)
    (hrelease : Owes K E B .releaseKey) (hx : Rests B false x) {idempotencyKey : Option String}
    (hI : ∀ l s, B l s → Released E idempotencyKey s → I l s) :
    (replayIntent idempotencyKey).wp store K
      (fun o y => match o with
        | some existing => Rests B false y ∧
            y.now.payments.lookup existing.id = some existing.row ∧
            isReplayableIntent existing.row.status = true
        | none => Rests I false y)
      (fun _ => Rests B false) x := by
  unfold replayIntent
  split
  · next hnone =>
    refine Routine.wp_pure ⟨hx.1, hI _ _ hx.2 ?_⟩
    intro key k p hkey
    rw [hnone] at hkey
    cases hkey
  · next key hkey =>
    refine Routine.wp_bind (hx.outside.read_now hB fun y hy => ?_)
    cases hfound : y.now.paymentByIdempotencyKey? key with
    | none =>
      refine Routine.wp_pure ⟨hy.rests.1, hI _ _ hy.inv ?_⟩
      intro key' k p hkey' hp hpkey
      obtain rfl := Option.some.inj (hkey.symm.trans hkey')
      exact absurd hfound ((hy.coherent hB).paymentByIdempotencyKey? hp hpkey)
    | some existing =>
      obtain ⟨hrow, hexisting, -⟩ := Db.paymentByIdempotencyKey?_eq_some hfound
      refine Routine.wp_ite (fun hlive => ?_) fun hsettled => ?_
      · exact Routine.wp_pure ⟨hy.rests, hrow, hlive⟩
      · refine Routine.wp_bind (hy.autocommit hB hrelease (fun s a ws _ _ hf => ?_)
          fun a u ws hd hu hf hrests => Routine.wp_pure ⟨hrests.1, hI _ _ hrests.2 ?_⟩)
        · split at hf
          · next p hp =>
            split at hf
            · obtain ⟨-, rfl⟩ := Prod.mk.inj (Except.ok.inj hf)
              exact Or.inr ⟨_, .releaseKey hp, (Entry.MadeBy.nil s).putPayment⟩
            · obtain ⟨-, rfl⟩ := Prod.mk.inj (Except.ok.inj hf)
              exact Or.inl rfl
          · obtain ⟨-, rfl⟩ := Prod.mk.inj (Except.ok.inj hf)
            exact Or.inl rfl
        · obtain ⟨-, c, hc, hcoh, hread⟩ := hu
          obtain ⟨hold, hholds, -⟩ := Db.paymentByIdempotencyKey?_eq_some (hread.trans hfound)
          have htx : u.tx = none := by rw [hd.tx_eq, hy.begun]
          rw [Ctx.wrote_now, Ctx.released_outside htx]
          intro key' k p hkey' hp hpkey
          obtain rfl := Option.some.inj (hkey.symm.trans hkey')
          split at hf
          · next q hq =>
            split at hf
            · obtain ⟨-, rfl⟩ := Prod.mk.inj (Except.ok.inj hf)
              rcases Table.lookup_insert_some hp with ⟨rfl, rfl⟩ | ⟨hne, hp'⟩
              · cases hpkey
              · -- Somebody else took the key after it had been released.
                refine ⟨c, u.now, hc, hp', fun p₀ hp₀ hkey₀ => absurd ?_ hne⟩
                exact hcoh.one_key k existing.id p₀ existing.row key hp₀ hold hkey₀ hholds
            · next hchanged =>
              obtain ⟨-, rfl⟩ := Prod.mk.inj (Except.ok.inj hf)
              refine ⟨c, u.now, hc, hp, fun p₀ hp₀ hkey₀ => ?_⟩
              obtain rfl := hcoh.one_key k existing.id p₀ existing.row key hp₀ hold hkey₀ hholds
              obtain rfl := Option.some.inj (hq.symm.trans hp)
              obtain rfl := Option.some.inj (hold.symm.trans hp₀)
              exact ⟨eq_false_of_ne_true hsettled, of_decide_eq_false (eq_false_of_ne_true hchanged)⟩
          · next hgone =>
            obtain ⟨q, hq, -⟩ := (hB.stable c u.now hc).payments _ _ hold
            rw [hq] at hgone
            cases hgone

/-! ### Manual first payments -/

theorem announceManualEnrollmentInitiated_rests (hS : Session K E I) (hx : Rests I false x)
    {school : Option School} {childName : String} {dto : CreateEnrollmentDto} :
    (announceManualEnrollmentInitiated school childName dto).wp store K
      (fun _ => Rests I false) (fun _ => Rests I false) x := by
  unfold announceManualEnrollmentInitiated
  refine Routine.wp_bind (Routine.wp_mono (fun _ y (hy : Rests I false y) => ?_)
    (fun _ _ h => h) ?_)
  · refine Routine.wp_bind (hy.outside.read hS fun admins y hy => ?_)
    refine Routine.wp_bind (hy.createNotifications hS fun y hy => ?_)
    exact hy.emitChanges hS fun y hy => hy.rests
  · unfold notifySchoolOwner
    split
    · exact Routine.wp_pure hx
    · exact hx.outside.createNotification hS fun y hy => hy.rests

/-- The first payment a request writes next to the plan it opens. -/
theorem Openable.opens {dto : CreateEnrollmentDto} {figures : DepositCalculation}
    {row : ChildEnrollment} (h : Openable dto figures row) {fees deposit : Int}
    (hfigures : calculateInitialPayment fees deposit = .ok figures) {s : Db} {k : Id} {p : Payment}
    (hfresh : s.payments.lookup k = none)
    (hreference : ∀ k' q r, s.payments.lookup k' = some q → q.paystackReference = some r →
      p.paystackReference ≠ some r)
    (hkey : ∀ k' q key, s.payments.lookup k' = some q → q.idempotencyKey = some key →
      p.idempotencyKey ≠ some key)
    (hp : p.schoolId = dto.schoolId ∧ p.paymentType = .FIRST_PAYMENT ∧ p.receiver = .PLATFORM ∧
      p.status = .PENDING ∧ p.isConfirmed = false ∧ p.paystackAccessCode = none ∧
      p.schoolAmount = figures.amountToSchool) : Opens s k p row := by
  obtain ⟨hfee, -, -, hamount, -⟩ := calculateInitialPayment_ok hfigures
  obtain ⟨hschool, htype, hreceiver, hstatus, hunconfirmed, hcode, hamount'⟩ := hp
  exact
    { fresh := hfresh
      schoolId := hschool.trans h.schoolId.symm
      paymentType := htype
      receiver := hreceiver
      status := hstatus
      isConfirmed := hunconfirmed
      accessCode := hcode
      amount := by rw [hamount']; exact hamount
      new_reference := hreference
      new_key := hkey
      fee := by rw [h.fee]; exact hfee
      balance := by rw [h.fee, h.balance]
      pending := h.pending
      notMigrated := h.notMigrated }

theorem enrollChild_posts (hS : Session K E I) (haside : Owes K E I .aside)
    (hopen : ∀ reuse, Owes K E I (openKind reuse none)) (hx : Rests I false x)
    {dto : CreateEnrollmentDto} {userId : Id} :
    (enrollChild dto userId).wp store K
      (fun _ => Rests I false) (fun _ => Rests I false) x := by
  unfold enrollChild
  refine Routine.wp_bind (Routine.wp_mono (fun replayed y (hy : Rests I false y) => ?_)
    (fun _ _ h => h) ?_)
  · cases replayed with
    | some existing => exact Routine.wp_pure hy
    | none =>
      refine Routine.wp_bind (Routine.wp_mono (fun target y hy => ?_) (fun _ _ h => h)
        (resolveEnrollmentTarget_posts hS haside hy))
      refine Routine.wp_bind (hy.resolveActiveClassFee hS fun classFee y hy => ?_)
      dsimp only
      split
      · exact Routine.wp_throw hy.rests
      next figures hfigures =>
      refine Routine.wp_bind (Routine.wp_mono (fun result y (hy : Rests I false y) => ?_)
        (fun _ _ h => h) ?_)
      · cases result with
        | inr replay => exact Routine.wp_pure hy
        | inl created =>
          refine Routine.wp_bind (Routine.wp_mono (fun _ z hz => Routine.wp_pure hz)
            (fun _ _ h => h) (announceManualEnrollmentInitiated_rests hS hy))
      · refine Routine.wp_tryCatch (Routine.wp_mono (fun _ _ h => h) (fun error z hz => ?_)
          (Routine.wp_bind (hy.transaction hS fun _ _ hy => ?_)))
        · refine Routine.wp_ite (fun _ => ?_) fun _ => Routine.wp_throw hz
          refine Routine.wp_bind (hz.outside.read hS fun existing y hy => ?_)
          exact Routine.wp_bind (hy.orThrow fun _ _ => Routine.wp_pure hy.rests)
        · refine Routine.wp_bind (hy.openEnrollment hS (fun s hs id hid => hs.1 id hid)
            fun enrollmentId row y hrow hy => ?_)
          refine Routine.wp_bind (hy.ask hS (by simp) fun paymentId y hy => ?_)
          refine Routine.wp_bind (hy.ask hS (by simp) fun now y hy => ?_)
          refine Routine.wp_bind (hy.createPayment hS fun y hy => ?_)
          refine Routine.wp_bind (hy.read hS fun school y hy => ?_)
          refine Routine.wp_bind (hy.read hS fun child y hy => ?_)
          refine Routine.wp_pure (hy.commits hS (hopen target.retryEnrollmentId)
            (fun s hs hcoh => ?_) fun u _ _ hu => Routine.wp_pure hu)
          obtain ⟨⟨⟨⟨-, hopens⟩, hfresh, hreference, hkey⟩, -⟩, -⟩ := hs
          refine ⟨_, hopens.posting (hrow.opens hfigures hfresh hreference hkey
            ⟨rfl, rfl, rfl, rfl, rfl, rfl, rfl⟩) rfl rfl, ?_⟩
          exact (Entry.MadeBy.nil s).putPlan.putPayment
  · unfold paymentUnderKey
    split
    · exact Routine.wp_pure hx
    · exact hx.outside.read hS fun _ _ hy => hy.rests

/-! ### Installments -/

theorem submitInstallmentPayment_posts (hS : Session K E I) (hrelease : Owes K E I .releaseKey)
    (hsubmit : Owes K E I .submit) (hx : Rests I false x) {enrollmentId : Id} {amountPaid : ℚ}
    {user : AuthUser} {receiptUrl idempotencyKey : Option String} :
    (submitInstallmentPayment enrollmentId amountPaid user receiptUrl idempotencyKey).wp store K
      (fun _ => Rests I false) (fun _ => Rests I false) x := by
  unfold submitInstallmentPayment
  refine Routine.wp_bind (Routine.wp_throwIf (fun _ => hx) fun _ => ?_)
  refine Routine.wp_bind (Routine.wp_mono (fun replayed y hy => ?_) (fun _ _ h => h)
    (replayIntent_posts hS hrelease hx fun _ _ h _ => h))
  cases replayed with
  | some existing => exact Routine.wp_pure hy.1
  | none =>
    refine Routine.wp_bind ((show Rests I false y from hy).outside.read hS fun found y hy => ?_)
    refine Routine.wp_bind (hy.orThrow fun enrollment hfound => ?_)
    refine Routine.wp_bind (hy.throwIf fun _ => ?_)
    refine Routine.wp_bind (hy.throwIf fun hpositive => ?_)
    refine Routine.wp_bind (Routine.wp_mono (fun result y (hy : Rests I false y) => ?_)
      (fun _ _ h => h) ?_)
    · cases result with
      | inr existing => exact Routine.wp_pure hy
      | inl payment =>
        refine Routine.wp_bind (Routine.wp_mono (fun _ y (hy : Rests I false y) => ?_)
          (fun _ _ h => h) (Routine.wp_onlyIf (fun _ => ?_) fun _ => hy))
        · exact Routine.wp_bind (hy.outside.ask hS (by simp) fun _ y hy =>
            Routine.wp_pure hy.rests)
        · exact hy.outside.createNotification hS fun y hy => hy.rests
    · refine Routine.wp_tryCatch (Routine.wp_mono (fun _ _ h => h) (fun error z hz => ?_)
        (Routine.wp_bind (hy.transaction hS fun _ _ hy => ?_)))
      · refine Routine.wp_ite (fun _ => ?_) fun _ => Routine.wp_throw hz
        refine Routine.wp_bind (hz.outside.read hS fun existing y hy => ?_)
        exact Routine.wp_bind (hy.orThrow fun _ _ => Routine.wp_pure hy.rests)
      · refine Routine.wp_bind (hy.lockEnrollment hS fun row y hy => ?_)
        refine Routine.wp_bind (hy.orThrow fun locked hlocked => ?_)
        refine Routine.wp_bind (hy.read_locked hS
          (Q := fun v s => installmentsReserved enrollmentId s ≤ v) (fun s _ => le_refl _) ?_
          fun reservedKobo y hy => ?_)
        · intro v s t hb hv
          exact (hb.quiet enrollmentId (by simp [Write.locks])).reserved.trans hv
        refine Routine.wp_bind (hy.throwIf fun havailable => ?_)
        refine Routine.wp_bind (hy.ask hS (by simp) fun paymentId y hy => ?_)
        refine Routine.wp_bind (hy.ask hS (by simp) fun now y hy => ?_)
        refine Routine.wp_bind (hy.createPayment hS fun y hy => ?_)
        refine Routine.wp_pure (hy.commits hS hsubmit (fun s hs hcoh => ?_)
          fun u _ _ hu => Routine.wp_pure hu)
        obtain ⟨⟨⟨⟨-, c, hc, -, hplan⟩, hrow⟩, hreserved⟩, hfresh, -, hkey⟩ := hs
        rw [hfound] at hplan
        rw [hlocked] at hrow
        obtain ⟨-, hold⟩ := Db.plan?_eq_some hplan
        have hread := (hS.stable c s hc).enrollment hold hrow
        refine ⟨_, .submit hfresh hkey rfl rfl rfl rfl (not_le.mp hpositive) rfl hrow
          hread.schoolId.symm ?_, ((Entry.MadeBy.nil s).lockPlan hrow).putPayment⟩
        simp only [installmentPayment] at hreserved ⊢
        omega

/-! ### Webhooks -/

theorem recordPaystackDispute_posts (hS : Session K E I)
    (hdispute : ∀ reference, Owes K E I (.dispute reference)) (hx : Rests I false x)
    {eventType : String} {reference : Option String} :
    (recordPaystackDispute eventType reference).wp store K
      (fun _ => Rests I false) (fun _ => Rests I false) x := by
  unfold recordPaystackDispute
  refine Routine.wp_bind (Routine.wp_mono (fun _ y (hy : Rests I false y) => ?_)
    (fun _ _ h => h) ?_)
  · refine Routine.wp_bind (Routine.wp_mono (fun payment y (hy : Rests I false y) => ?_)
      (fun _ _ h => h) ?_)
    · refine Routine.wp_bind (hy.outside.read hS fun admins y hy => ?_)
      exact hy.createNotifications hS fun y hy => hy.rests
    · unfold disputedPayment
      split
      · exact Routine.wp_pure hy
      · exact hy.outside.read hS fun _ _ h => h.rests
  · unfold reverseDisputed
    split
    · exact Routine.wp_pure hx
    · next reference _ =>
      exact Routine.wp_bind (Routine.wp_mono (fun _ y hy => Routine.wp_pure hy) (fun _ _ h => h)
        (reversePaystackPaymentByDispute_posts hS (hdispute reference) hx))

/-- The events that take a captured payment back. -/
def Enrollment.Disputes (event : PaystackWebhookEvent) : Prop :=
  startsWith (webhookType event) "charge.dispute" ∨ startsWith (webhookType event) "refund."

theorem dispatch_posts (hS : Session K E I) (hcredit : Owes K E I (.credit .FIRST_PAYMENT_PAID))
    (haside : Owes K E I .aside) (hfail : ∀ reference, Owes K E I (.fail reference))
    {event : PaystackWebhookEvent}
    (hdispute : Disputes event → ∀ reference, Owes K E I (.dispute reference))
    (hx : Rests I false x) :
    (dispatch event).wp store K (fun _ => Rests I false) (fun _ => Rests I false) x := by
  unfold dispatch
  dsimp only
  split
  · exact Routine.wp_bind (Routine.wp_mono (fun _ y hy => Routine.wp_pure hy.1) (fun _ _ h => h)
      (reconcilePaystackPayment_posts hS hcredit haside hx (Or.inr trivial)))
  · exact Routine.wp_bind (Routine.wp_mono (fun _ y hy => Routine.wp_pure hy) (fun _ _ h => h)
      (failPaystackPayment_posts hS (hfail _) hx))
  · exact Routine.wp_onlyIf (fun h => recordPaystackDispute_posts hS (hdispute h) hx) fun _ => hx

theorem storeWebhookEvent_posts (hS : Session K E I) (haside : Owes K E I .aside)
    (hx : Rests I false x) {event : PaystackWebhookEvent} {key : String} :
    (storeWebhookEvent event key).wp store K
      (fun _ => Rests I false) (fun _ => Rests I false) x := by
  unfold storeWebhookEvent
  refine Routine.wp_tryCatch (Routine.wp_bind (Routine.wp_mono
    (fun _ z hz => Routine.wp_pure hz.1) (fun error z hz => ?_)
    (hx.outside.createWebhookEvent hS haside)))
  exact Routine.wp_ite (fun _ => Routine.wp_pure hz.1) fun _ => Routine.wp_throw hz.1

theorem dispatchLogged_posts (hS : Session K E I)
    (hcredit : Owes K E I (.credit .FIRST_PAYMENT_PAID)) (haside : Owes K E I .aside)
    (hfail : ∀ reference, Owes K E I (.fail reference))
    {event : PaystackWebhookEvent}
    (hdispute : Disputes event → ∀ reference, Owes K E I (.dispute reference))
    (hx : Rests I false x) {key : String} :
    (dispatchLogged event key).wp store K
      (fun _ => Rests I false) (fun _ => Rests I false) x := by
  have hlog : ∀ err z, Rests I false z → (do
      tryCatch (updateWebhookEvent key fun row => { row with error := some (.messageOf err) })
        (fun _ => pure ())
      throw err : Action Unit).wp store K (fun _ => Rests I false) (fun _ => Rests I false) z := by
    intro err z hz
    refine Routine.wp_bind (Routine.wp_tryCatch (Routine.wp_mono (fun _ z hz => ?_)
      (fun _ z hz => ?_) (hz.outside.updateWebhookEvent hS haside)))
    · exact Routine.wp_throw hz
    · exact Routine.wp_pure (Routine.wp_throw hz)
  unfold dispatchLogged
  refine Routine.wp_tryCatch (Routine.wp_bind (Routine.wp_mono (fun _ z hz => ?_) hlog
    (dispatch_posts hS hcredit haside hfail hdispute hx)))
  refine Routine.wp_bind (Routine.wp_mono (fun now z (hz : Rests I false z) => ?_) hlog
    (hz.outside.ask hS (by simp) fun _ _ h => h.rests))
  exact Routine.wp_mono (fun _ _ h => h) hlog (hz.outside.updateWebhookEvent hS haside)

theorem processPaystackWebhookEvent_posts (hS : Session K E I)
    (hcredit : Owes K E I (.credit .FIRST_PAYMENT_PAID)) (haside : Owes K E I .aside)
    (hfail : ∀ reference, Owes K E I (.fail reference))
    {event : PaystackWebhookEvent}
    (hdispute : Disputes event → ∀ reference, Owes K E I (.dispute reference))
    (hx : Rests I false x) :
    (processPaystackWebhookEvent event).wp store K
      (fun _ => Rests I false) (fun _ => Rests I false) x := by
  unfold processPaystackWebhookEvent
  refine Routine.wp_bind (Routine.wp_mono (fun identity y (hy : Rests I false y) => ?_)
    (fun _ _ h => h) ?_)
  · refine Routine.wp_bind (Routine.wp_mono (fun stored y hy => ?_) (fun _ _ h => h)
      (storeWebhookEvent_posts hS haside hy))
    refine Routine.wp_ite (fun _ => Routine.wp_pure hy) fun _ => ?_
    exact Routine.wp_bind (Routine.wp_mono (fun _ z hz => Routine.wp_pure hz) (fun _ _ h => h)
      (dispatchLogged_posts hS hcredit haside hfail hdispute hy))
  · unfold deliveryIdentity
    split
    · exact Routine.wp_pure hx
    · exact hx.outside.ask hS (by simp) fun _ y hy => hy.rests

/-! ### The reconciliation sweep -/

theorem sweepPayment_posts (hS : Session K E I)
    (hcredit : Owes K E I (.credit .FIRST_PAYMENT_PAID)) (haside : Owes K E I .aside)
    (hfail : ∀ reference, Owes K E I (.fail reference)) (hx : Rests I false x) {now : Int}
    {payment : String × Int} :
    (PaystackReconciliation.sweepPayment now payment).wp store K
      (fun _ => Rests I false) (fun _ => Rests I false) x := by
  unfold PaystackReconciliation.sweepPayment
  refine Routine.wp_bind (hx.outside.ask hS (by simp) fun result y hy => ?_)
  have hfails : (do
      let _ ← Ledger.failPaystackPayment payment.1
      pure () : Action Unit).wp store K (fun _ => Rests I false) (fun _ => Rests I false) y :=
    Routine.wp_bind (Routine.wp_mono (fun _ z hz => Routine.wp_pure hz) (fun _ _ h => h)
      (failPaystackPayment_posts hS (hfail _) hy.rests))
  split
  · exact Routine.wp_pure hy.rests
  · refine Routine.wp_tryCatch (Routine.wp_mono (fun _ _ h => h)
      (fun _ z hz => Routine.wp_pure hz) (Routine.wp_ite (fun _ => ?_) fun _ =>
        Routine.wp_ite (fun _ => hfails) fun _ =>
          Routine.wp_ite (fun _ => hfails) fun _ => Routine.wp_pure hy.rests))
    exact Routine.wp_bind (Routine.wp_mono (fun _ z hz => Routine.wp_pure hz.1) (fun _ _ h => h)
      (reconcilePaystackPayment_posts hS hcredit haside hy.rests (Or.inr trivial)))

theorem runSweep_posts (hS : Session K E I)
    (hcredit : Owes K E I (.credit .FIRST_PAYMENT_PAID)) (haside : Owes K E I .aside)
    (hfail : ∀ reference, Owes K E I (.fail reference)) (hx : Rests I false x) :
    PaystackReconciliation.runSweep.wp store K
      (fun _ => Rests I false) (fun _ => Rests I false) x := by
  unfold PaystackReconciliation.runSweep
  refine Routine.wp_bind (hx.outside.ask hS (by simp) fun now y hy => ?_)
  refine Routine.wp_bind (hy.read hS fun found y hy => ?_)
  refine Routine.wp_bind (hy.ask hS (by simp) fun order y hy => ?_)
  refine Routine.wp_bind (Routine.wp_mapM hy.rests (fun payment _ z hz => ?_) fun _ z hz => ?_)
  · exact sweepPayment_posts hS hcredit haside hfail hz
  · exact Routine.wp_pure hz

end Operations

end Lopay
