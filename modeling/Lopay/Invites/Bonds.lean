import Lopay.Tame.Invites

/-!
# Claimed invites and migrated plans

`Corresponds` says that the claimed invites are the ones a plan has come from, one plan for
each, and that such a plan has exactly one migrated payment. It depends on little of the
database, the *bonds*: which invites are claimed, where each plan came from, and the plan
and the type of each payment. Most statements leave the bonds as they are.
-/

namespace Lopay

open Transactions

namespace Db

variable (db : Db)

def claimed (id : Id) : Bool := (db.invites.lookup id).any fun i => i.status = .CLAIMED

/-- The invite that a plan came from, if there is such a plan. -/
def origin (k : Id) : Option (Option Id) := (db.enrollments.lookup k).map (·.enrollmentInviteId)

/-- The plan and the type of a payment. -/
def entry (m : Id) : Option (Id × PaymentType) :=
  (db.payments.lookup m).map fun p => (p.enrollmentId, p.paymentType)

end Db

structure Corresponds (db : Db) : Prop where
  claimed : ∀ id, db.claimed id = true → ∃ k, db.origin k = some (some id)
  invited : ∀ k id, db.origin k = some (some id) → db.claimed id = true
  unique : ∀ k k' id, db.origin k = some (some id) → db.origin k' = some (some id) → k = k'
  opened : ∀ k id, db.origin k = some (some id) → ∃! m, db.entry m = some (k, .MIGRATED_PAYMENT)
  uninvited : ∀ k m, db.origin k = some none → db.entry m ≠ some (k, .MIGRATED_PAYMENT)
  referenced : ∀ m k type, db.entry m = some (k, type) → db.origin k ≠ none

/-- The same bonds. -/
structure Bonded (s t : Db) : Prop where
  claimed : t.claimed = s.claimed
  origin : t.origin = s.origin
  entry : t.entry = s.entry

theorem Bonded.refl (s : Db) : Bonded s s := ⟨rfl, rfl, rfl⟩

theorem Bonded.trans {s t u : Db} (h : Bonded s t) (h' : Bonded t u) : Bonded s u where
  claimed := h'.claimed.trans h.claimed
  origin := h'.origin.trans h.origin
  entry := h'.entry.trans h.entry

theorem Corresponds.bonded {s t : Db} (h : Corresponds s) (hst : Bonded s t) : Corresponds t := by
  obtain ⟨hclaimed, horigin, hentry⟩ := hst
  constructor
  · simp only [hclaimed, horigin]
    exact h.claimed
  · simp only [hclaimed, horigin]
    exact h.invited
  · simp only [horigin]
    exact h.unique
  · simp only [horigin, hentry]
    exact h.opened
  · simp only [horigin, hentry]
    exact h.uninvited
  · simp only [horigin, hentry]
    exact h.referenced

/-- A claim: a new plan with its one migrated payment, and its invite claimed. -/
theorem Corresponds.claim {s t : Db} (h : Corresponds s) {id k m : Id}
    (hfree : s.claimed id = false) (hplan : s.origin k = none) (hpayment : s.entry m = none)
    (hclaimed : t.claimed = Function.update s.claimed id true)
    (horigin : t.origin = Function.update s.origin k (some (some id)))
    (hentry : t.entry = Function.update s.entry m (some (k, .MIGRATED_PAYMENT))) :
    Corresponds t := by
  -- No plan has come from the invite, and no payment has been made on the plan.
  have hnone : ∀ k', s.origin k' ≠ some (some id) := by
    intro k' hk'
    rw [h.invited k' id hk'] at hfree
    cases hfree
  have hunpaid : ∀ m' type, s.entry m' ≠ some (k, type) := fun m' type hm' =>
    h.referenced m' k type hm' hplan
  constructor
  · intro id' hid'
    by_cases heq : id' = id
    · subst heq
      exact ⟨k, by simp [horigin]⟩
    · rw [hclaimed, Function.update_of_ne heq] at hid'
      obtain ⟨k', hk'⟩ := h.claimed id' hid'
      have hne : k' ≠ k := by
        rintro rfl
        rw [hplan] at hk'
        cases hk'
      exact ⟨k', by rw [horigin, Function.update_of_ne hne, hk']⟩
  · intro k' id' hk'
    by_cases heq : k' = k
    · subst heq
      simp only [horigin, Function.update_self, Option.some.injEq] at hk'
      simp [hclaimed, hk']
    · rw [horigin, Function.update_of_ne heq] at hk'
      have hne : id' ≠ id := by
        rintro rfl
        exact hnone k' hk'
      rw [hclaimed, Function.update_of_ne hne]
      exact h.invited k' id' hk'
  · intro k₁ k₂ id' h₁ h₂
    by_cases heq₁ : k₁ = k <;> by_cases heq₂ : k₂ = k
    · rw [heq₁, heq₂]
    · subst heq₁
      simp only [horigin, Function.update_self, Option.some.injEq] at h₁
      subst h₁
      rw [horigin, Function.update_of_ne heq₂] at h₂
      exact absurd h₂ (hnone k₂)
    · subst heq₂
      simp only [horigin, Function.update_self, Option.some.injEq] at h₂
      subst h₂
      rw [horigin, Function.update_of_ne heq₁] at h₁
      exact absurd h₁ (hnone k₁)
    · rw [horigin, Function.update_of_ne heq₁] at h₁
      rw [horigin, Function.update_of_ne heq₂] at h₂
      exact h.unique k₁ k₂ id' h₁ h₂
  · intro k' id' hk'
    by_cases heq : k' = k
    · subst heq
      refine ⟨m, by simp [hentry], ?_⟩
      intro m' hm'
      by_contra hne
      rw [hentry, Function.update_of_ne hne] at hm'
      exact hunpaid m' _ hm'
    · rw [horigin, Function.update_of_ne heq] at hk'
      obtain ⟨m₀, hm₀, honly⟩ := h.opened k' id' hk'
      have hne : m₀ ≠ m := by
        rintro rfl
        rw [hpayment] at hm₀
        cases hm₀
      refine ⟨m₀, by simp only [hentry, Function.update_of_ne hne, hm₀], ?_⟩
      intro m' hm'
      by_cases hm : m' = m
      · subst hm
        simp only [hentry, Function.update_self, Option.some.injEq, Prod.mk.injEq] at hm'
        exact absurd hm'.1.symm heq
      · simp only [hentry, Function.update_of_ne hm] at hm'
        exact honly m' hm'
  · intro k' m' hk' hm'
    have hne : k' ≠ k := by
      rintro rfl
      simp [horigin] at hk'
    rw [horigin, Function.update_of_ne hne] at hk'
    by_cases hm : m' = m
    · subst hm
      simp only [hentry, Function.update_self, Option.some.injEq, Prod.mk.injEq] at hm'
      exact hne hm'.1.symm
    · rw [hentry, Function.update_of_ne hm] at hm'
      exact h.uninvited k' m' hk' hm'
  · intro m' k' type hm' hk'
    by_cases heq : k' = k
    · subst heq
      simp [horigin] at hk'
    · rw [horigin, Function.update_of_ne heq] at hk'
      by_cases hm : m' = m
      · subst hm
        simp only [hentry, Function.update_self, Option.some.injEq, Prod.mk.injEq] at hm'
        exact heq hm'.1.symm
      · rw [hentry, Function.update_of_ne hm] at hm'
        exact h.referenced m' k' type hm' hk'

/-- A release: the plan of the invite goes with its payments, and the invite is not claimed
    any more. -/
theorem Corresponds.release {s t : Db} (h : Corresponds s) {id k : Id}
    (hplan : s.origin k = some (some id))
    (hclaimed : t.claimed = Function.update s.claimed id false)
    (horigin : t.origin = Function.update s.origin k none)
    (hentry : ∀ m, t.entry m = (s.entry m).filter fun p => p.1 ≠ k) : Corresponds t := by
  have hkept {k' m : Id} {type : PaymentType} (hne : k' ≠ k) :
      t.entry m = some (k', type) ↔ s.entry m = some (k', type) := by
    rw [hentry, Option.filter_eq_some_iff]
    simp [hne]
  have hothers {k' : Id} {o : Option Id} (hk' : t.origin k' = some o) :
      k' ≠ k ∧ s.origin k' = some o := by
    by_cases heq : k' = k
    · subst heq
      simp [horigin] at hk'
    · rw [horigin, Function.update_of_ne heq] at hk'
      exact ⟨heq, hk'⟩
  constructor
  · intro id' hid'
    by_cases heq : id' = id
    · subst heq
      simp [hclaimed] at hid'
    · rw [hclaimed, Function.update_of_ne heq] at hid'
      obtain ⟨k', hk'⟩ := h.claimed id' hid'
      have hne : k' ≠ k := by
        rintro rfl
        rw [hplan] at hk'
        simp only [Option.some.injEq] at hk'
        exact heq hk'.symm
      exact ⟨k', by rw [horigin, Function.update_of_ne hne, hk']⟩
  · intro k' id' hk'
    obtain ⟨hne, hold⟩ := hothers hk'
    have hother : id' ≠ id := by
      rintro rfl
      exact hne (h.unique k' k id' hold hplan)
    rw [hclaimed, Function.update_of_ne hother]
    exact h.invited k' id' hold
  · intro k₁ k₂ id' h₁ h₂
    exact h.unique k₁ k₂ id' (hothers h₁).2 (hothers h₂).2
  · intro k' id' hk'
    obtain ⟨hne, hold⟩ := hothers hk'
    obtain ⟨m, hm, honly⟩ := h.opened k' id' hold
    exact ⟨m, (hkept hne).mpr hm, fun m' hm' => honly m' ((hkept hne).mp hm')⟩
  · intro k' m hk' hm
    obtain ⟨hne, hold⟩ := hothers hk'
    exact h.uninvited k' m hold ((hkept hne).mp hm)
  · intro m k' type hm hk'
    rw [hentry, Option.filter_eq_some_iff] at hm
    have hne : k' ≠ k := by simpa using hm.2
    rw [horigin, Function.update_of_ne hne] at hk'
    exact h.referenced m k' type hm.1 hk'

/-! ### Statements that keep the bonds -/

/-- A statement that leaves the bonds as they are. -/
def KeepsBonds (v : Db) (ws : List Write) : Prop := Bonded v (store.applyAll ws v)

instance : AdmitsStill KeepsBonds where
  still := by
    intro v ws h
    constructor
    · funext id
      rw [Db.claimed, Db.claimed, h.invites]
    · funext k
      rw [Db.origin, Db.origin, h.enrollments]
    · funext m
      rw [Db.entry, Db.entry, h.payments]

theorem claimed_putInvite (v : Db) (id : Id) (i : EnrollmentInvite) :
    (Write.apply (.putInvite id i) v).claimed =
      Function.update v.claimed id (decide (i.status = .CLAIMED)) := by
  funext id'
  simp only [Db.claimed, Write.apply, Table.lookup_insert_ite]
  by_cases h : id' = id
  · subst h
    simp
  · simp [h, Db.claimed]

theorem origin_putEnrollment (v : Db) (k : Id) (e : ChildEnrollment) :
    (Write.apply (.putEnrollment k e) v).origin =
      Function.update v.origin k (some e.enrollmentInviteId) := by
  funext k'
  simp only [Db.origin, Write.apply, Table.lookup_insert_ite]
  by_cases h : k' = k
  · subst h
    simp
  · simp [h, Db.origin]

theorem entry_putPayment (v : Db) (m : Id) (p : Payment) :
    (Write.apply (.putPayment m p) v).entry =
      Function.update v.entry m (some (p.enrollmentId, p.paymentType)) := by
  funext m'
  simp only [Db.entry, Write.apply, Table.lookup_insert_ite]
  by_cases h : m' = m
  · subst h
    simp
  · simp [h, Db.entry]

theorem keepsBonds_putInvite {v : Db} {id : Id} {i : EnrollmentInvite}
    (h : v.claimed id = decide (i.status = .CLAIMED)) : KeepsBonds v [.putInvite id i] := by
  refine ⟨?_, rfl, rfl⟩
  simp only [Store.applyAll_cons, Store.applyAll_nil, store_apply, claimed_putInvite, ← h,
    Function.update_eq_self]

theorem keepsBonds_putEnrollment {v : Db} {k : Id} {e e' : ChildEnrollment}
    (he : v.enrollments.lookup k = some e) (h : e'.enrollmentInviteId = e.enrollmentInviteId) :
    KeepsBonds v [.putEnrollment k e'] := by
  refine ⟨rfl, ?_, rfl⟩
  have hold : v.origin k = some e.enrollmentInviteId := by
    rw [Db.origin, he]
    rfl
  simp only [Store.applyAll_cons, Store.applyAll_nil, store_apply, origin_putEnrollment, h, ← hold,
    Function.update_eq_self]

theorem keepsBonds_putPayment {v : Db} {m : Id} {p p' : Payment}
    (hp : v.payments.lookup m = some p) (hplan : p'.enrollmentId = p.enrollmentId)
    (htype : p'.paymentType = p.paymentType) : KeepsBonds v [.putPayment m p'] := by
  refine ⟨rfl, rfl, ?_⟩
  have hold : v.entry m = some (p.enrollmentId, p.paymentType) := by
    rw [Db.entry, hp]
    rfl
  simp only [Store.applyAll_cons, Store.applyAll_nil, store_apply, entry_putPayment, hplan, htype,
    ← hold, Function.update_eq_self]

theorem keepsBonds_updateInvites {id : Id} {filter : EnrollmentInvite → Bool}
    {data : EnrollmentInvite → EnrollmentInvite}
    (h : ∀ i, filter i = true → ((data i).status = .CLAIMED ↔ i.status = .CLAIMED)) :
    Routine.Keeps KeepsBonds (updateInvites id filter data) := by
  constructor
  intro τ
  apply Invites.obeys_updateInvites (fun _ v => admits_nil v) trivial
  · exact fun _ _ => trivial
  · exact fun _ => trivial
  · intro v i hi hfilter
    refine ⟨keepsBonds_putInvite ?_, trivial⟩
    simp only [Db.claimed, hi, Option.any_some, h i hfilter]

theorem keepsBonds_createInvite {id : Id} {row : EnrollmentInvite} (h : row.status ≠ .CLAIMED) :
    Routine.Keeps KeepsBonds (createInvite id row) := by
  constructor
  intro τ
  apply Invites.obeys_createInvite (fun _ v => admits_nil v)
  · exact fun _ _ => trivial
  · intro v hnew
    refine ⟨keepsBonds_putInvite ?_, trivial⟩
    simp [Db.claimed, hnew, h]

theorem keepsBonds_updatePayments {id : Id} {filter : Payment → Bool} {data : Payment → Payment}
    (hplan : ∀ p, (data p).enrollmentId = p.enrollmentId)
    (htype : ∀ p, (data p).paymentType = p.paymentType) :
    Routine.Keeps KeepsBonds (updatePayments id filter data) := by
  apply Routine.Keeps.exec admits_nil
  intro v a ws hf
  cases hp : v.payments.lookup id with
  | none =>
    simp only [hp, Except.ok.injEq, Prod.mk.injEq] at hf
    rw [← hf.2]
    exact admits_nil v
  | some p =>
    simp only [hp] at hf
    by_cases hfilter : filter p = true
    · simp only [hfilter, if_true, Except.ok.injEq, Prod.mk.injEq] at hf
      rw [← hf.2]
      exact keepsBonds_putPayment hp (hplan p) (htype p)
    · simp only [hfilter, Bool.false_eq_true, if_false, Except.ok.injEq, Prod.mk.injEq] at hf
      rw [← hf.2]
      exact admits_nil v

theorem keepsBonds_updateEnrollment {id : Id} {data : ChildEnrollment → ChildEnrollment}
    (h : ∀ e, (data e).enrollmentInviteId = e.enrollmentInviteId) :
    Routine.Keeps KeepsBonds (updateEnrollment id data) := by
  apply Routine.Keeps.exec admits_nil
  intro v a ws hf
  cases he : v.enrollments.lookup id with
  | none => simp [he] at hf
  | some e =>
    simp only [he, Except.ok.injEq, Prod.mk.injEq] at hf
    rw [← hf.2]
    exact keepsBonds_putEnrollment he (h e)

instance : AdmitsAmounts KeepsBonds where
  restate := by
    intro inviteId amountAlreadyPaid
    apply keeps_restateInvite admits_nil
    intro v id i hi
    apply keepsBonds_putInvite
    simp [Db.claimed, hi]

/-! ### Methods that keep the bonds -/

set_option synthInstance.maxSize 4000

instance (enrollmentId : Id) (newAmountKobo : Int) (schoolId : Id) (actor : AuditActor)
    (reason : Option String) : Routine.Keeps KeepsBonds
      (Ledger.amendMigratedPayment enrollmentId newAmountKobo schoolId actor reason) := by
  unfold Ledger.amendMigratedPayment
  have hpayment (id : Id) (filter : Payment → Bool) : Routine.Keeps KeepsBonds
      (updatePayments id filter
        (fun p => { p with amountPaid := newAmountKobo, schoolAmount := newAmountKobo })) :=
    keepsBonds_updatePayments (fun _ => rfl) (fun _ => rfl)
  have hplan (nextBalance : Int) (current : PaymentStatus) : Routine.Keeps KeepsBonds
      (updateEnrollment enrollmentId fun e =>
        { e with
          firstPaymentPaid := newAmountKobo
          remainingBalance := nextBalance
          paymentStatus := statusAfterMigratedAmendment current nextBalance }) :=
    keepsBonds_updateEnrollment fun _ => rfl
  refine .andThen fun _ => .andThen fun found => .andThen fun (enrollment, payments) =>
    .andThen fun order => .andThen fun (migratedId, migrated) => ?_
  infer_instance

namespace Invites

instance (inviteId : Id) (amountAlreadyPaid : ℚ) (reason : Option String) (actor : AuthUser) :
    Routine.Keeps KeepsBonds (amend inviteId amountAlreadyPaid reason actor) := by
  unfold amend
  refine .andThen fun school => .andThen fun found => .andThen fun (_, enrollment) =>
    .andThen fun (enrollmentId, _) => ?_
  infer_instance

instance (env : InviteEnvironment) (rawToken : Option String) :
    Routine.Keeps KeepsBonds (findByToken env rawToken) := by
  unfold findByToken
  have hretire (id : Id) : Routine.Keeps KeepsBonds (updateInvites id
      (fun i => i.status ∈ EXPIRABLE_STATUSES) (fun i => { i with status := .EXPIRED })) := by
    apply keepsBonds_updateInvites
    intro i hi
    have hlive : i.status ≠ .CLAIMED := by
      intro h
      simp [h, EXPIRABLE_STATUSES] at hi
    simp [hlive]
  refine .andThen fun tokenHash => .andThen fun found => .andThen fun (id, invite) => ?_
  infer_instance

instance (env : InviteEnvironment) (rawToken : Option String) (user : AuthUser)
    (reason : String) : Routine.Keeps KeepsBonds (dispute env rawToken user reason) := by
  unfold dispute
  have hdispute (id : Id) (now disputedAt : Int) : Routine.Keeps KeepsBonds (updateInvites id
      (fun i => i.status = .PENDING ∧ now < i.expiresAt)
      (fun i => { i with
        status := .DISPUTED, disputeReason := some reason, disputedAt := some disputedAt })) := by
    apply keepsBonds_updateInvites
    intro i hi
    simp [(of_decide_eq_true hi).1]
  refine .andThen fun found => .andThen fun now => .andThen fun disputedAt =>
    .andThen fun disputed => .andThen fun _ => .andThen fun _ => .andThen fun school => ?_
  cases school with
  | none => infer_instance
  | some school => infer_instance

instance (inviteId : Id) (actor : AuthUser) (reason : Option String) :
    Routine.Keeps KeepsBonds (revoke inviteId actor reason) := by
  unfold revoke
  have hrevoke (schoolId : Id) (now : Int) : Routine.Keeps KeepsBonds (updateInvites inviteId
      (fun i => i.schoolId = schoolId ∧ (i.status = .PENDING ∨ i.status = .DISPUTED))
      (fun i => { i with
        status := .REVOKED, revokedAt := some now, revokedByUserId := some actor.userId })) := by
    apply keepsBonds_updateInvites
    intro i hi
    rcases (of_decide_eq_true hi).2 with h | h <;> simp [h]
  infer_instance

instance (env : InviteEnvironment) (inviteId : Id) (actor : AuthUser) :
    Routine.Keeps KeepsBonds (reissue env inviteId actor) := by
  unfold reissue
  have hreissue (schoolId : Id) (tokenHash : String) (expiresAt : Int) :
      Routine.Keeps KeepsBonds (updateInvites inviteId
        (fun i => i.schoolId = schoolId ∧ (i.status = .PENDING ∨ i.status = .EXPIRED))
        (fun i => { i with status := .PENDING, tokenHash, expiresAt })) := by
    apply keepsBonds_updateInvites
    intro i hi
    rcases (of_decide_eq_true hi).2 with h | h <;> simp [h]
  infer_instance

instance (env : InviteEnvironment) (dto : CreateEnrollmentInviteDto) (actor : AuthUser) :
    Routine.Keeps KeepsBonds (create env dto actor) := by
  unfold create
  have hrefused (error : Err) : Routine.Keeps KeepsBonds (match error with
      | .unique _ => throw (liveInviteExists dto.studentName dto.className)
      | error => throw error : Action Unit) := by
    cases error <;> infer_instance
  refine .andThen fun school => .andThen fun now => .andThen fun origin => .andThen fun _ => ?_
  dsimp only
  refine .andThen fun phoneNumber => .andThen fun parentPhoneHash => ?_
  split
  · exact ⟨fun _ => Routine.obeys_bind (Routine.obeys_throw.mpr trivial)⟩
  · refine .andThen fun _ => .andThen fun found => .andThen fun classFee => .andThen fun _ =>
      .andThen fun _ => .andThen fun token => .andThen fun id => ?_
    apply Routine.Keeps.before
    exact Routine.Keeps.tryCatch (h := keepsBonds_createInvite (by simp))

end Invites

end Lopay
