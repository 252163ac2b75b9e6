import Lopay.Books.Posting

/-!
# Every posting keeps the books coherent

Three theorems about a single posting: rows continue (`Posting.stable`), the
invariant is kept (`Posting.coherent`), and a plan whose row is not locked by the
commit is left quiet (`Posting.quiet`).
-/

namespace Lopay

open Transactions

variable {E : Db → Db → Prop} {s t : Db} {kind : Kind} {entry : Entry} {locks : List Lock}

/-! ### Rows before and after -/

namespace ChildEnrollment

@[simp] theorem paidDown_continues (e : ChildEnrollment) (amount : Int) :
    e.Continues (e.paidDown amount) := by
  unfold paidDown
  split <;> exact ⟨rfl, rfl, rfl⟩

@[simp] theorem disputed_continues (e before : ChildEnrollment) :
    e.Continues (e.disputed before) := by
  unfold disputed
  split <;> exact ⟨rfl, rfl, rfl⟩

@[simp] theorem paidDown_totalSchoolFee (e : ChildEnrollment) (amount : Int) :
    (e.paidDown amount).totalSchoolFee = e.totalSchoolFee := by
  unfold paidDown
  split <;> rfl

@[simp] theorem disputed_totalSchoolFee (e before : ChildEnrollment) :
    (e.disputed before).totalSchoolFee = e.totalSchoolFee := by
  unfold disputed
  split <;> rfl

@[simp] theorem disputed_paymentStatus (e before : ChildEnrollment) :
    (e.disputed before).paymentStatus = .FAILED := by
  unfold disputed
  split <;> rfl

end ChildEnrollment

/-- The payment a posting puts is new, or continues the one under its key. -/
theorem Posting.payment_old (h : Posting E s kind entry) {k : Id} {q : Payment}
    (hk : entry.payment = some (k, q)) :
    s.payments.lookup k = none ∨ ∃ p, s.payments.lookup k = some p ∧ p.Continues q := by
  cases h with
  | confirm hp | reverse hp | reject hp | close hp | credit _ hp | dispute hp | releaseKey hp =>
    obtain ⟨rfl, rfl⟩ := Prod.mk.inj (Option.some.inj hk)
    exact Or.inr ⟨_, hp, rfl, rfl, rfl, rfl, rfl, fun _ => ⟨rfl, rfl⟩, fun h => h⟩
  | storeAccessCode hp =>
    obtain ⟨rfl, rfl⟩ := Prod.mk.inj (Option.some.inj hk)
    exact Or.inr ⟨_, hp, rfl, rfl, rfl, rfl, rfl, fun _ => ⟨rfl, rfl⟩,
      fun _ h => Option.some_ne_none _ h⟩
  | amend hp htype =>
    obtain ⟨rfl, rfl⟩ := Prod.mk.inj (Option.some.inj hk)
    exact Or.inr ⟨_, hp, rfl, rfl, rfl, rfl, rfl, fun h => absurd htype h, fun h => h⟩
  | openPlan _ ho | reopenPlan _ _ ho =>
    obtain ⟨rfl, rfl⟩ := Prod.mk.inj (Option.some.inj hk)
    exact Or.inl ho.fresh
  | submit hfresh | migrate hfresh =>
    obtain ⟨rfl, rfl⟩ := Prod.mk.inj (Option.some.inj hk)
    exact Or.inl hfresh
  | markDefaulted | sweepDefaulted | aside => cases hk

/-- The enrollment a posting puts is new, or continues the one under its key. -/
theorem Posting.plan_old (h : Posting E s kind entry) {k : Id} {e' : ChildEnrollment}
    (hk : entry.plan = some (k, e')) :
    s.enrollments.lookup k = none ∨ ∃ e, s.enrollments.lookup k = some e ∧ e.Continues e' := by
  cases h with
  | confirm _ _ _ he =>
    obtain ⟨rfl, rfl⟩ := Prod.mk.inj (Option.some.inj hk)
    exact Or.inr ⟨_, he, by simp⟩
  | dispute _ _ _ _ he =>
    obtain ⟨rfl, rfl⟩ := Prod.mk.inj (Option.some.inj hk)
    exact Or.inr ⟨_, he, by simp⟩
  | reverse _ _ _ _ he | close _ _ _ _ he | credit _ _ _ _ _ he | markDefaulted he
  | sweepDefaulted he | amend _ _ _ _ he | submit _ _ _ _ _ _ _ _ he =>
    obtain ⟨rfl, rfl⟩ := Prod.mk.inj (Option.some.inj hk)
    exact Or.inr ⟨_, he, rfl, rfl, rfl⟩
  | reopenPlan he hc =>
    obtain ⟨rfl, rfl⟩ := Prod.mk.inj (Option.some.inj hk)
    exact Or.inr ⟨_, he, hc⟩
  | openPlan hfresh | migrate _ hfresh =>
    obtain ⟨rfl, rfl⟩ := Prod.mk.inj (Option.some.inj hk)
    exact Or.inl hfresh
  | reject | releaseKey | storeAccessCode | aside => cases hk

/-- A payment after an entry is the one it put, or an old one. -/
theorem Entry.Made.payment_cases (hm : entry.Made s t locks) {k : Id} {q : Payment}
    (hq : t.payments.lookup k = some q) :
    entry.payment = some (k, q) ∨
      (s.payments.lookup k = some q ∧ ∀ q', entry.payment ≠ some (k, q')) := by
  rw [hm.payments] at hq
  unfold Entry.payments at hq
  split at hq
  · next k' p hentry =>
    rcases Table.lookup_insert_some hq with ⟨rfl, rfl⟩ | ⟨hne, hold⟩
    · exact Or.inl hentry
    · refine Or.inr ⟨hold, fun q' h => hne ?_⟩
      rw [hentry] at h
      exact (Prod.mk.inj (Option.some.inj h)).1.symm
  · next hentry => exact Or.inr ⟨hq, fun q' h => by rw [hentry] at h; cases h⟩

/-- An enrollment after an entry is the one it put, or an old one. -/
theorem Entry.Made.enrollment_cases (hm : entry.Made s t locks) {k : Id} {e : ChildEnrollment}
    (he : t.enrollments.lookup k = some e) :
    entry.plan = some (k, e) ∨
      (s.enrollments.lookup k = some e ∧ ∀ e', entry.plan ≠ some (k, e')) := by
  rw [hm.enrollments] at he
  unfold Entry.enrollment at he
  split at he
  · next k' e' hentry =>
    split at he
    · next hk =>
      subst hk
      obtain rfl := Option.some.inj he
      exact Or.inl hentry
    · next hk =>
      refine Or.inr ⟨he, fun e'' h => hk ?_⟩
      rw [hentry] at h
      exact (Prod.mk.inj (Option.some.inj h)).1.symm
  · next hentry => exact Or.inr ⟨he, fun e' h => by rw [hentry] at h; cases h⟩

/-- What an entry puts is there afterwards. -/
theorem Entry.Made.payment_put (hm : entry.Made s t locks) {k : Id} {q : Payment}
    (hk : entry.payment = some (k, q)) : t.payments.lookup k = some q := by
  rw [hm.payments, Entry.payments, hk]
  exact AList.lookup_insert _

theorem Entry.Made.payment_kept (hm : entry.Made s t locks) {k : Id}
    (hk : ∀ q, entry.payment ≠ some (k, q)) : t.payments.lookup k = s.payments.lookup k := by
  rw [hm.payments]
  unfold Entry.payments
  split
  · next k' p hentry =>
    apply AList.lookup_insert_ne
    rintro rfl
    exact hk p hentry
  · rfl

theorem Entry.Made.plan_put (hm : entry.Made s t locks) {k : Id} {e : ChildEnrollment}
    (hk : entry.plan = some (k, e)) : t.enrollments.lookup k = some e := by
  rw [hm.enrollments, Entry.enrollment, hk]
  exact if_pos rfl

theorem Entry.Made.plan_kept (hm : entry.Made s t locks) {k : Id}
    (hk : ∀ e, entry.plan ≠ some (k, e)) : t.enrollments.lookup k = s.enrollments.lookup k := by
  rw [hm.enrollments]
  unfold Entry.enrollment
  split
  · next k' e hentry =>
    apply if_neg
    rintro rfl
    exact hk e hentry
  · rfl

/-! ### Rows continue -/

theorem Posting.stable (h : Posting E s kind entry) (hm : entry.Made s t locks) : Stable s t where
  payments := by
    intro k p hp
    by_cases hk : ∃ q, entry.payment = some (k, q)
    · obtain ⟨q, hq⟩ := hk
      refine ⟨q, hm.payment_put hq, ?_⟩
      rcases h.payment_old hq with hnone | ⟨p', hp', hc⟩
      · rw [hp] at hnone
        cases hnone
      · obtain rfl := Option.some.inj (hp.symm.trans hp')
        exact hc
    · refine ⟨p, ?_, .refl p⟩
      rw [hm.payment_kept fun q hq => hk ⟨q, hq⟩]
      exact hp
  enrollments := by
    intro k e he
    by_cases hk : ∃ e', entry.plan = some (k, e')
    · obtain ⟨e', he'⟩ := hk
      refine ⟨e', hm.plan_put he', ?_⟩
      rcases h.plan_old he' with hnone | ⟨e₀, he₀, hc⟩
      · rw [he] at hnone
        cases hnone
      · obtain rfl := Option.some.inj (he.symm.trans he₀)
        exact hc
    · refine ⟨e, ?_, .refl e⟩
      rw [hm.plan_kept fun e' he' => hk ⟨e', he'⟩]
      exact he
  children := hm.children
  parents := hm.parents
  schools := hm.schools
  users := hm.users
  classFees := hm.classFees

/-! ### The invariant is kept -/

theorem Payment.Sound.mono {p : Payment} (hst : Stable s t) (h : p.Sound s) : p.Sound t := by
  obtain ⟨e, he, hschool, hmigrated, hfirst⟩ := h.plan
  obtain ⟨e', he', hc⟩ := hst.enrollments _ e he
  refine ⟨⟨e', he', ?_, ?_, ?_⟩, h.confirmed, h.reference, h.first, h.installment, h.migrated⟩
  · rw [hc.schoolId]
    exact hschool
  · rw [hc.enrollmentInviteId]
    exact hmigrated
  · rw [hc.enrollmentInviteId]
    exact hfirst

theorem ChildEnrollment.Sound.mono {e : ChildEnrollment} (hst : Stable s t) (h : e.Sound s) :
    e.Sound t := by
  obtain ⟨c, parent, hc, hparent⟩ := h.child
  refine ⟨h.fee, ⟨c, parent, hst.children _ _ hc, hst.parents _ _ hparent⟩, ?_, h.opened⟩
  rw [hst.schools]
  exact h.school

/-- A row with other columns, sound where the old one was. -/
theorem ChildEnrollment.Sound.update {e e' : ChildEnrollment} (h : e.Sound s)
    (hc : e.Continues e') (hfee : 0 < e'.totalSchoolFee)
    (hopened : e.enrollmentInviteId ≠ none → e'.paymentStatus ≠ .PENDING ∧
      e'.paymentStatus ≠ .FAILED) : e'.Sound s := by
  refine ⟨hfee, ?_, ?_, ?_⟩
  · rw [hc.childId]
    exact h.child
  · rw [hc.schoolId]
    exact h.school
  · rw [hc.enrollmentInviteId]
    exact hopened

/-- The plan of a first payment is not a migrated one. -/
theorem Coherent.not_migrated (hs : Coherent s) {k : Id} {p : Payment} {e : ChildEnrollment}
    (hp : s.payments.lookup k = some p) (hfirst : p.paymentType = .FIRST_PAYMENT)
    (he : s.enrollments.lookup p.enrollmentId = some e) : e.enrollmentInviteId = none := by
  obtain ⟨e₀, he₀, -, -, h⟩ := hs.planOf hp
  obtain rfl := Option.some.inj (he.symm.trans he₀)
  exact h hfirst

theorem Opens.sound {k : Id} {p : Payment} {e : ChildEnrollment} (ho : Opens s k p e)
    (he : t.enrollments.lookup p.enrollmentId = some e) : p.Sound t where
  plan := ⟨e, he, ho.schoolId, by simp [ho.paymentType], fun _ => ho.notMigrated⟩
  confirmed := by simp [ho.isConfirmed, ho.status]
  reference := fun _ => ⟨ho.paymentType, ho.receiver⟩
  first := fun _ => ho.amount
  installment := by simp [ho.paymentType]
  migrated := by simp [ho.paymentType]

/-- The row a posting puts into `payments` is sound. -/
theorem Posting.payment_sound (hs : Coherent s) (h : Posting E s kind entry)
    (hm : entry.Made s t locks) {k : Id} {q : Payment} (hk : entry.payment = some (k, q)) :
    q.Sound t := by
  have hst := h.stable hm
  cases h with
  | confirm hp htype =>
    obtain ⟨rfl, rfl⟩ := Prod.mk.inj (Option.some.inj hk)
    obtain ⟨hplan, -, href, hfirst, hinst, -⟩ := (hs.payments _ _ hp).mono hst
    refine ⟨hplan, by simp [Payment.confirmedOn], href, hfirst, hinst, fun hmig => ?_⟩
    rw [Payment.confirmedOn, htype] at hmig
    cases hmig
  | reverse hp htype =>
    obtain ⟨rfl, rfl⟩ := Prod.mk.inj (Option.some.inj hk)
    obtain ⟨hplan, -, href, hfirst, hinst, -⟩ := (hs.payments _ _ hp).mono hst
    refine ⟨hplan, by simp, href, hfirst, hinst, fun hmig => ?_⟩
    rw [htype] at hmig
    cases hmig
  | reject hp _ _ hunconf =>
    obtain ⟨rfl, rfl⟩ := Prod.mk.inj (Option.some.inj hk)
    obtain ⟨hplan, hconf, href, hfirst, hinst, hmigrated⟩ := (hs.payments _ _ hp).mono hst
    refine ⟨hplan, by simp [hunconf], href, hfirst, hinst, fun hmig => ?_⟩
    -- A migrated payment is confirmed, so nobody rejects it.
    rw [hconf.mpr (hmigrated hmig).1] at hunconf
    cases hunconf
  | close hp _ htype hunconf =>
    obtain ⟨rfl, rfl⟩ := Prod.mk.inj (Option.some.inj hk)
    obtain ⟨hplan, -, href, hfirst, hinst, -⟩ := (hs.payments _ _ hp).mono hst
    refine ⟨hplan, by simp [hunconf], href, hfirst, hinst, fun hmig => ?_⟩
    rw [htype] at hmig
    cases hmig
  | credit _ hp htype =>
    obtain ⟨rfl, rfl⟩ := Prod.mk.inj (Option.some.inj hk)
    obtain ⟨hplan, -, href, hfirst, hinst, -⟩ := (hs.payments _ _ hp).mono hst
    refine ⟨hplan, by simp [Payment.paidOn, Payment.confirmedOn], href, hfirst, hinst,
      fun hmig => ?_⟩
    rw [Payment.paidOn, Payment.confirmedOn, htype] at hmig
    cases hmig
  | dispute hp _ htype =>
    obtain ⟨rfl, rfl⟩ := Prod.mk.inj (Option.some.inj hk)
    obtain ⟨hplan, -, href, hfirst, hinst, -⟩ := (hs.payments _ _ hp).mono hst
    refine ⟨hplan, by simp, href, hfirst, hinst, fun hmig => ?_⟩
    rw [htype] at hmig
    cases hmig
  | openPlan hfresh ho hplan =>
    obtain ⟨rfl, rfl⟩ := Prod.mk.inj (Option.some.inj hk)
    exact ho.sound (hm.plan_put (by rw [hplan]))
  | reopenPlan he hc ho hplan =>
    obtain ⟨rfl, rfl⟩ := Prod.mk.inj (Option.some.inj hk)
    exact ho.sound (hm.plan_put (by rw [hplan]))
  | submit hfresh _ htype hstatus hunconf href hpos hamount he hschool =>
    obtain ⟨rfl, rfl⟩ := Prod.mk.inj (Option.some.inj hk)
    refine ⟨⟨_, hm.plan_put rfl, hschool, ?_, ?_⟩, by simp [hstatus, hunconf], ?_, ?_,
      fun _ => ⟨hpos, hamount⟩, ?_⟩
    · simp [htype]
    · simp [htype]
    · exact fun h => absurd href h
    · simp [htype]
    · simp [htype]
  | migrate hfresh hnew hfee hpaid hle =>
    obtain ⟨rfl, rfl⟩ := Prod.mk.inj (Option.some.inj hk)
    refine ⟨⟨_, hm.plan_put rfl, rfl, ?_, ?_⟩, ?_, ?_, ?_, ?_, ?_⟩
    · exact fun _ h => Option.some_ne_none _ h
    · exact fun h => nomatch h
    · simp [Ledger.migratedPayment]
    · exact fun h => absurd rfl h
    · exact fun h => nomatch h
    · exact fun h => nomatch h
    · exact fun _ => ⟨rfl, hpaid, rfl⟩
  | amend hp htype hstatus hnonneg =>
    obtain ⟨rfl, rfl⟩ := Prod.mk.inj (Option.some.inj hk)
    obtain ⟨hplan, hconf, href, -, -, -⟩ := (hs.payments _ _ hp).mono hst
    refine ⟨hplan, hconf, href, ?_, ?_, fun _ => ⟨hstatus, hnonneg, rfl⟩⟩
    · simp [htype]
    · simp [htype]
  | releaseKey hp =>
    obtain ⟨rfl, rfl⟩ := Prod.mk.inj (Option.some.inj hk)
    obtain ⟨hplan, hconf, href, hfirst, hinst, hmigrated⟩ := (hs.payments _ _ hp).mono hst
    exact ⟨hplan, hconf, href, hfirst, hinst, hmigrated⟩
  | storeAccessCode hp =>
    obtain ⟨rfl, rfl⟩ := Prod.mk.inj (Option.some.inj hk)
    obtain ⟨hplan, hconf, href, hfirst, hinst, hmigrated⟩ := (hs.payments _ _ hp).mono hst
    exact ⟨hplan, hconf, href, hfirst, hinst, hmigrated⟩
  | markDefaulted | sweepDefaulted | aside => cases hk

/-- The row a posting puts into `enrollments` is sound. -/
theorem Posting.plan_sound (hE : ∀ c, E c s → Stable c s) (hs : Coherent s)
    (h : Posting E s kind entry) (hm : entry.Made s t locks) {k : Id} {e' : ChildEnrollment}
    (hk : entry.plan = some (k, e')) : e'.Sound t := by
  have hst := h.stable hm
  cases h with
  | @confirm _ p e _ _ hp htype hunconf he =>
    obtain ⟨rfl, rfl⟩ := Prod.mk.inj (Option.some.inj hk)
    have hsound := (hs.enrollments _ _ he).mono hst
    refine hsound.update (by simp) (by simpa using hsound.fee) fun hmig => ?_
    unfold ChildEnrollment.paidDown
    split
    · simp
    · exact hsound.opened hmig
  | @reverse _ p e before c _ hp htype hconf hstatus he hE' hc hbefore =>
    obtain ⟨rfl, rfl⟩ := Prod.mk.inj (Option.some.inj hk)
    have hsound := (hs.enrollments _ _ he).mono hst
    refine hsound.update ⟨rfl, rfl, rfl⟩ hsound.fee fun hmig => ?_
    -- The status that is written back was read on the older database `c`.
    have hsame := ((hE c hE').enrollment hbefore he).enrollmentInviteId
    have hopened := (hc.enrollments _ _ hbefore).opened (by rw [← hsame]; exact hmig)
    unfold ChildEnrollment.restored
    simp only
    split
    · simp
    · exact hopened
  | @close _ k' p e audit hp _ htype _ he =>
    obtain ⟨rfl, rfl⟩ := Prod.mk.inj (Option.some.inj hk)
    have hsound := (hs.enrollments _ _ he).mono hst
    refine hsound.update ⟨rfl, rfl, rfl⟩ hsound.fee fun hmig => ?_
    exact absurd (hs.not_migrated hp htype he) hmig
  | @credit _ _ p e _ _ _ _ hp htype _ _ he =>
    obtain ⟨rfl, rfl⟩ := Prod.mk.inj (Option.some.inj hk)
    have hsound := (hs.enrollments _ _ he).mono hst
    refine hsound.update ⟨rfl, rfl, rfl⟩ hsound.fee fun hmig => ?_
    exact absurd (hs.not_migrated hp htype he) hmig
  | @dispute _ _ p e before c _ hp _ htype _ he =>
    obtain ⟨rfl, rfl⟩ := Prod.mk.inj (Option.some.inj hk)
    have hsound := (hs.enrollments _ _ he).mono hst
    refine hsound.update (by simp) (by simpa using hsound.fee) fun hmig => ?_
    exact absurd (hs.not_migrated hp htype he) hmig
  | markDefaulted he =>
    obtain ⟨rfl, rfl⟩ := Prod.mk.inj (Option.some.inj hk)
    have hsound := (hs.enrollments _ _ he).mono hst
    exact hsound.update ⟨rfl, rfl, rfl⟩ hsound.fee fun _ => by simp
  | sweepDefaulted he =>
    obtain ⟨rfl, rfl⟩ := Prod.mk.inj (Option.some.inj hk)
    have hsound := (hs.enrollments _ _ he).mono hst
    exact hsound.update ⟨rfl, rfl, rfl⟩ hsound.fee fun _ => by simp
  | openPlan hfresh ho hplan href hchild hschool =>
    obtain ⟨rfl, rfl⟩ := Prod.mk.inj (Option.some.inj hk)
    obtain ⟨c, hc⟩ := hchild
    obtain ⟨parent, hparent⟩ := hs.parented _ c hc
    refine ⟨ho.fee, ⟨c, parent, hm.children _ _ hc, hm.parents _ _ hparent⟩, ?_, ?_⟩
    · rw [hm.schools]
      exact hschool
    · exact fun hmig => absurd ho.notMigrated hmig
  | reopenPlan he hc ho =>
    obtain ⟨rfl, rfl⟩ := Prod.mk.inj (Option.some.inj hk)
    refine ((hs.enrollments _ _ he).mono hst).update hc ho.fee fun hmig => ?_
    rw [← hc.enrollmentInviteId] at hmig
    exact absurd ho.notMigrated hmig
  | submit _ _ _ _ _ _ _ _ he =>
    obtain ⟨rfl, rfl⟩ := Prod.mk.inj (Option.some.inj hk)
    exact (hs.enrollments _ _ he).mono hst
  | @migrate _ _ inviteId childId invite now _ hfresh hnew hfee hpaid hle hchild hschool =>
    obtain ⟨rfl, rfl⟩ := Prod.mk.inj (Option.some.inj hk)
    obtain ⟨c, hc⟩ := hchild
    obtain ⟨parent, hparent⟩ := hs.parented _ c hc
    refine ⟨hfee, ⟨c, parent, hm.children _ _ hc, hm.parents _ _ hparent⟩, ?_, fun _ => ?_⟩
    · rw [hm.schools]
      exact hschool
    · simp only [Ledger.migratedEnrollment, deriveMigratedPlan]
      split <;> simp
  | @amend _ p e newAmount _ hp htype _ _ he =>
    obtain ⟨rfl, rfl⟩ := Prod.mk.inj (Option.some.inj hk)
    have hsound := (hs.enrollments _ _ he).mono hst
    refine hsound.update ⟨rfl, rfl, rfl⟩ hsound.fee fun hmig => ?_
    unfold ChildEnrollment.amended statusAfterMigratedAmendment
    simp only
    split
    · simp
    · split
      · simp
      · exact hsound.opened hmig
  | reject | releaseKey | storeAccessCode | aside => cases hk

/-- A migrated payment that a posting puts is an old one, or the first of its plan. -/
theorem Posting.migrated_old (hs : Coherent s) (h : Posting E s kind entry) {k : Id} {q : Payment}
    (hk : entry.payment = some (k, q)) (hq : q.paymentType = .MIGRATED_PAYMENT) :
    (∃ p, s.payments.lookup k = some p ∧ p.Continues q) ∨
      ∀ k' p, s.payments.lookup k' = some p → p.enrollmentId ≠ q.enrollmentId := by
  rcases h.payment_old hk with hfresh | hold
  · refine Or.inr fun k' p hp heq => ?_
    cases h with
    | migrate hfresh' hnew =>
      obtain ⟨rfl, rfl⟩ := Prod.mk.inj (Option.some.inj hk)
      obtain ⟨e, he, -⟩ := hs.planOf hp
      have heq' : p.enrollmentId = _ := heq
      rw [heq', Ledger.migratedPayment, hnew] at he
      cases he
    | openPlan _ ho | reopenPlan _ _ ho =>
      obtain ⟨rfl, rfl⟩ := Prod.mk.inj (Option.some.inj hk)
      rw [ho.paymentType] at hq
      cases hq
    | submit _ _ htype =>
      obtain ⟨rfl, rfl⟩ := Prod.mk.inj (Option.some.inj hk)
      rw [htype] at hq
      cases hq
    | confirm hp' | reverse hp' | reject hp' | close hp' | credit _ hp' | dispute hp'
    | releaseKey hp' | storeAccessCode hp' | amend hp' =>
      obtain ⟨rfl, rfl⟩ := Prod.mk.inj (Option.some.inj hk)
      rw [hp'] at hfresh
      cases hfresh
    | markDefaulted | sweepDefaulted | aside => cases hk
  · exact Or.inl hold

/-- A reference that a posting puts is an old one, or nobody else's. -/
theorem Posting.reference_old (h : Posting E s kind entry) {k : Id} {q : Payment}
    (hk : entry.payment = some (k, q)) {reference : String}
    (hq : q.paystackReference = some reference) :
    (∃ p, s.payments.lookup k = some p ∧ p.paystackReference = some reference) ∨
      ∀ k' p, s.payments.lookup k' = some p → p.paystackReference ≠ some reference := by
  rcases h.payment_old hk with hfresh | ⟨p, hp, hc⟩
  · refine Or.inr fun k' p hp href => ?_
    cases h with
    | openPlan _ ho | reopenPlan _ _ ho =>
      obtain ⟨rfl, rfl⟩ := Prod.mk.inj (Option.some.inj hk)
      exact ho.new_reference k' p reference hp href hq
    | submit _ _ _ _ _ hnone =>
      obtain ⟨rfl, rfl⟩ := Prod.mk.inj (Option.some.inj hk)
      rw [hnone] at hq
      cases hq
    | migrate =>
      obtain ⟨rfl, rfl⟩ := Prod.mk.inj (Option.some.inj hk)
      cases hq
    | confirm hp' | reverse hp' | reject hp' | close hp' | credit _ hp' | dispute hp'
    | releaseKey hp' | storeAccessCode hp' | amend hp' =>
      obtain ⟨rfl, rfl⟩ := Prod.mk.inj (Option.some.inj hk)
      rw [hp'] at hfresh
      cases hfresh
    | markDefaulted | sweepDefaulted | aside => cases hk
  · exact Or.inl ⟨p, hp, by rw [← hc.paystackReference, hq]⟩

/-- So is an idempotency key. -/
theorem Posting.key_old (h : Posting E s kind entry) {k : Id} {q : Payment}
    (hk : entry.payment = some (k, q)) {key : String} (hq : q.idempotencyKey = some key) :
    (∃ p, s.payments.lookup k = some p ∧ p.idempotencyKey = some key) ∨
      ∀ k' p, s.payments.lookup k' = some p → p.idempotencyKey ≠ some key := by
  cases h with
  | openPlan _ ho | reopenPlan _ _ ho =>
    obtain ⟨rfl, rfl⟩ := Prod.mk.inj (Option.some.inj hk)
    exact Or.inr fun k' p hp hkey => ho.new_key k' p key hp hkey hq
  | submit _ hnew =>
    obtain ⟨rfl, rfl⟩ := Prod.mk.inj (Option.some.inj hk)
    exact Or.inr fun k' p hp hkey => hnew k' p key hp hkey hq
  | migrate | releaseKey =>
    obtain ⟨rfl, rfl⟩ := Prod.mk.inj (Option.some.inj hk)
    cases hq
  | confirm hp | reverse hp | reject hp | close hp | credit _ hp | dispute hp
  | storeAccessCode hp | amend hp =>
    obtain ⟨rfl, rfl⟩ := Prod.mk.inj (Option.some.inj hk)
    exact Or.inl ⟨_, hp, hq⟩
  | markDefaulted | sweepDefaulted | aside => cases hk

/-- A column whose values are old or nobody else's stays unique. -/
theorem Entry.Made.unique (hm : entry.Made s t locks) {f : Payment → Option String} {v : String}
    (hs : ∀ k k' p p', s.payments.lookup k = some p → s.payments.lookup k' = some p' →
      f p = some v → f p' = some v → k = k')
    (hnew : ∀ k q, entry.payment = some (k, q) → f q = some v →
      (∃ p, s.payments.lookup k = some p ∧ f p = some v) ∨
        ∀ k' p, s.payments.lookup k' = some p → f p ≠ some v)
    {k k' : Id} {q q' : Payment} (hq : t.payments.lookup k = some q)
    (hq' : t.payments.lookup k' = some q') (hv : f q = some v) (hv' : f q' = some v) :
    k = k' := by
  have hback : ∀ k q, t.payments.lookup k = some q → f q = some v →
      (∃ p, s.payments.lookup k = some p ∧ f p = some v) ∨ (entry.payment = some (k, q) ∧
        ∀ k' p, s.payments.lookup k' = some p → f p ≠ some v) := by
    intro k q hq hv
    rcases hm.payment_cases hq with hput | ⟨hold, -⟩
    · rcases hnew k q hput hv with hold | hnone
      · exact Or.inl hold
      · exact Or.inr ⟨hput, hnone⟩
    · exact Or.inl ⟨q, hold, hv⟩
  rcases hback k q hq hv with ⟨p, hp, hpv⟩ | ⟨hput, hnone⟩
  · rcases hback k' q' hq' hv' with ⟨p', hp', hpv'⟩ | ⟨-, hnone'⟩
    · exact hs k k' p p' hp hp' hpv hpv'
    · exact absurd hpv (hnone' k p hp)
  · rcases hback k' q' hq' hv' with ⟨p', hp', hpv'⟩ | ⟨hput', -⟩
    · exact absurd hpv' (hnone k' p' hp')
    · exact (Prod.mk.inj (Option.some.inj (hput.symm.trans hput'))).1

/-- Every posting keeps the invariant. -/
theorem Posting.coherent (hE : ∀ c, E c s → Stable c s) (hs : Coherent s)
    (h : Posting E s kind entry) (hm : entry.Made s t locks) : Coherent t where
  payments := by
    intro k q hq
    rcases hm.payment_cases hq with hput | ⟨hold, -⟩
    · exact h.payment_sound hs hm hput
    · exact (hs.payments k q hold).mono (h.stable hm)
  enrollments := by
    intro k e he
    rcases hm.enrollment_cases he with hput | ⟨hold, -⟩
    · exact h.plan_sound hE hs hm hput
    · exact (hs.enrollments k e hold).mono (h.stable hm)
  parented := hm.parented hs.parented
  one_migrated := by
    -- What stands for a migrated row of `t` in `s`: the row it continues.
    have hback : ∀ k q, t.payments.lookup k = some q → q.paymentType = .MIGRATED_PAYMENT →
        (∃ p, s.payments.lookup k = some p ∧ p.Continues q) ∨ (entry.payment = some (k, q) ∧
          ∀ k' p, s.payments.lookup k' = some p → p.enrollmentId ≠ q.enrollmentId) := by
      intro k q hq htype
      rcases hm.payment_cases hq with hput | ⟨hold, -⟩
      · rcases h.migrated_old hs hput htype with hcont | hnew
        · exact Or.inl hcont
        · exact Or.inr ⟨hput, hnew⟩
      · exact Or.inl ⟨q, hold, .refl q⟩
    intro k k' q q' hq hq' htype htype' hplan
    rcases hback k q hq htype with ⟨p, hp, hc⟩ | ⟨hput, hnew⟩
    · rcases hback k' q' hq' htype' with ⟨p', hp', hc'⟩ | ⟨hput', hnew'⟩
      · refine hs.one_migrated k k' p p' hp hp' ?_ ?_ ?_
        · rw [← hc.paymentType, htype]
        · rw [← hc'.paymentType, htype']
        · rw [← hc.enrollmentId, ← hc'.enrollmentId, hplan]
      · exact absurd (hc.enrollmentId.symm.trans hplan) (hnew' k p hp)
    · rcases hback k' q' hq' htype' with ⟨p', hp', hc'⟩ | ⟨hput', hnew'⟩
      · exact absurd (hc'.enrollmentId.symm.trans hplan.symm) (hnew k' p' hp')
      · exact (Prod.mk.inj (Option.some.inj (hput.symm.trans hput'))).1
  one_reference := fun k k' q q' r hq hq' hr hr' =>
    hm.unique (fun j j' p p' => hs.one_reference j j' p p' r)
      (fun _ _ hput hv => h.reference_old hput hv) hq hq' hr hr'
  one_key := fun k k' q q' key hq hq' hkey hkey' =>
    hm.unique (fun j j' p p' => hs.one_key j j' p p' key)
      (fun _ _ hput hv => h.key_old hput hv) hq hq' hkey hkey'

/-! ### Sums over payments -/

/-- What an entry adds to a sum over the payments. -/
def Entry.gain (entry : Entry) (f : Id → Payment → Int) (s : Db) : Int :=
  match entry.payment with
  | some (k, q) => f k q - ((s.payments.lookup k).map (f k)).getD 0
  | none => 0

theorem Entry.Made.total (hm : entry.Made s t locks) (f : Id → Payment → Int) :
    Table.total f t.payments = Table.total f s.payments + entry.gain f s := by
  rw [hm.payments]
  cases hentry : entry.payment with
  | none => simp only [Entry.payments, Entry.gain, hentry, Int.add_zero]
  | some put =>
    obtain ⟨k, q⟩ := put
    simp only [Entry.payments, Entry.gain, hentry]
    cases hk : s.payments.lookup k with
    | none =>
      rw [Table.total_insert_new f q hk]
      simp only [Option.map_none, Option.getD_none, Int.sub_zero]
    | some p =>
      rw [Table.total_insert_old f q hk]
      simp only [Option.map_some, Option.getD_some]
      ring

theorem Entry.gain_old {k : Id} {p q : Payment} (f : Id → Payment → Int)
    (hk : entry.payment = some (k, q)) (hp : s.payments.lookup k = some p) :
    entry.gain f s = f k q - f k p := by
  simp only [Entry.gain, hk, hp, Option.map_some, Option.getD_some]

theorem Entry.gain_new {k : Id} {q : Payment} (f : Id → Payment → Int)
    (hk : entry.payment = some (k, q)) (hfresh : s.payments.lookup k = none) :
    entry.gain f s = f k q := by
  simp only [Entry.gain, hk, hfresh, Option.map_none, Option.getD_none, Int.sub_zero]

theorem Entry.gain_none (f : Id → Payment → Int) (hk : entry.payment = none) :
    entry.gain f s = 0 := by
  simp only [Entry.gain, hk]

/-- What the payment `p` counts for in a sum over the payments of one plan. -/
def amountOn (enrollmentId : Id) (p : Payment → Bool) (r : Payment) : Int :=
  if r.enrollmentId = enrollmentId ∧ p r then r.amountPaid else 0

/-- A posting moves a sum over one plan only while it has that plan's row, unless it
    rejects a payment. -/
theorem Posting.gain_elsewhere (h : Posting E s kind entry) {eid : Id}
    (hplan : ∀ e, entry.plan ≠ some (eid, e)) {f : Payment → Int}
    (hf : ∀ p, p.enrollmentId ≠ eid → f p = 0)
    (hkey : ∀ p : Payment, f { p with idempotencyKey := none } = f p)
    (hcode : ∀ (p : Payment) code, f { p with paystackAccessCode := some code } = f p) :
    entry.gain (fun _ => f) s = 0 ∨
      ∃ k p, s.payments.lookup k = some p ∧ p.paymentType ≠ .FIRST_PAYMENT ∧
        p.isConfirmed = false ∧
        entry.gain (fun _ => f) s = f { p with status := .FAILED } - f p := by
  have helsewhere : ∀ {k : Id} {q : Payment} {e : ChildEnrollment},
      entry.payment = some (k, q) → entry.plan = some (q.enrollmentId, e) →
      entry.gain (fun _ => f) s = 0 := by
    intro k q e hk he
    have hne : q.enrollmentId ≠ eid := by
      rintro rfl
      exact hplan e he
    rcases h.payment_old hk with hfresh | ⟨p, hp, hc⟩
    · rw [Entry.gain_new _ hk hfresh, hf q hne]
    · rw [Entry.gain_old _ hk hp, hf q hne, hf p (by rw [← hc.enrollmentId]; exact hne)]
      rfl
  cases h with
  | confirm | reverse | close | credit | dispute | submit | migrate | amend =>
    exact Or.inl (helsewhere rfl rfl)
  | openPlan _ _ heq | reopenPlan _ _ _ heq =>
    subst heq
    exact Or.inl (helsewhere rfl rfl)
  | reject hp _ htype hunconf =>
    exact Or.inr ⟨_, _, hp, htype, hunconf, Entry.gain_old _ rfl hp⟩
  | releaseKey hp =>
    refine Or.inl ?_
    rw [Entry.gain_old _ rfl hp, hkey]
    exact Int.sub_self _
  | storeAccessCode hp =>
    refine Or.inl ?_
    rw [Entry.gain_old _ rfl hp, hcode]
    exact Int.sub_self _
  | markDefaulted | sweepDefaulted | aside => exact Or.inl (Entry.gain_none _ rfl)

/-- Installments that wait for a decision. -/
def Payment.isReservation (p : Payment) : Bool :=
  p.paymentType = .INSTALLMENT ∧ p.status = .PENDING ∧ p.isConfirmed = false

/-- Installments that count as paid. -/
def Payment.isPaidInstallment (p : Payment) : Bool :=
  p.paymentType = .INSTALLMENT ∧ p.isConfirmed = true ∧ p.status = .SUCCESS

theorem Entry.Made.installmentsConfirmed (hm : entry.Made s t locks) (eid : Id) :
    Ledger.installmentsConfirmed eid t = Ledger.installmentsConfirmed eid s +
      entry.gain (fun _ => amountOn eid Payment.isPaidInstallment) s :=
  hm.total fun _ => amountOn eid Payment.isPaidInstallment

theorem Entry.Made.installmentsReserved (hm : entry.Made s t locks) (eid : Id) :
    Enrollment.installmentsReserved eid t = Enrollment.installmentsReserved eid s +
      entry.gain (fun _ => amountOn eid Payment.isReservation) s :=
  hm.total fun _ => amountOn eid Payment.isReservation

/-- A posting that does not lock a plan's row leaves the plan quiet. -/
theorem Posting.quiet (hs : Coherent s) (h : Posting E s kind entry) (hm : entry.Made s t locks)
    {eid : Id} (hfree : Lock.enrollment eid ∉ locks) : Quiet eid s t := by
  have hplan : ∀ e, entry.plan ≠ some (eid, e) := fun e he => hfree (hm.locked eid e he)
  have helsewhere : ∀ (c : Payment → Bool) p, p.enrollmentId ≠ eid → amountOn eid c p = 0 :=
    fun c p hp => if_neg fun h => hp h.1
  constructor
  · rw [hm.installmentsConfirmed]
    rcases h.gain_elsewhere hplan (f := amountOn eid Payment.isPaidInstallment) (helsewhere _)
        (fun _ => rfl) (fun _ _ => rfl) with hzero | ⟨k, p, hp, -, hunconf, heq⟩
    · rw [hzero, Int.add_zero]
    · rw [heq]
      simp [amountOn, Payment.isPaidInstallment, hunconf]
  · rw [hm.installmentsReserved]
    rcases h.gain_elsewhere hplan (f := amountOn eid Payment.isReservation) (helsewhere _)
        (fun _ => rfl) (fun _ _ => rfl) with hzero | ⟨k, p, hp, -, -, heq⟩
    · rw [hzero, Int.add_zero]
    · -- A rejected payment stops being a reservation.
      have hafter : amountOn eid Payment.isReservation { p with status := .FAILED } = 0 := by
        simp [amountOn, Payment.isReservation]
      have hbefore : 0 ≤ amountOn eid Payment.isReservation p := by
        unfold amountOn
        split
        · next hcond =>
          have htype : p.paymentType = .INSTALLMENT := (of_decide_eq_true hcond.2).1
          exact ((hs.payments k p hp).installment htype).1.le
        · exact le_refl 0
      omega

end Lopay
