import Lopay.Work

/-!
# The figures of migrated plans

What a school says a family had paid is kept with the invite, with the plan that was claimed
from it and with the payment that the plan opened on. `InStep` says that the copies agree;
`Onward` what an older database still says about a later one. The rest of the module is about
the steps that there are: rows that keep their figures, a claim, a release and a correction.
-/

namespace Lopay

open Transactions

/-- The plan is open, in arrears or paid off. -/
def ChildEnrollment.Opened (e : ChildEnrollment) : Prop :=
  e.paymentStatus = .ACTIVE ∨ e.paymentStatus = .COMPLETED ∨ e.paymentStatus = .DEFAULTED

/-- A claimed invite, its plan and its opening payment say the same. -/
structure EnrollmentInvite.Matches (i : EnrollmentInvite) (e : ChildEnrollment) (p : Payment) :
    Prop where
  firstPaymentPaid : e.firstPaymentPaid = i.amountAlreadyPaid
  amountPaid : p.amountPaid = i.amountAlreadyPaid
  schoolAmount : p.schoolAmount = i.amountAlreadyPaid
  totalSchoolFee : e.totalSchoolFee = i.totalSchoolFee
  status : p.status = .SUCCESS
  isConfirmed : p.isConfirmed = true
  nonneg : 0 ≤ i.amountAlreadyPaid
  le : i.amountAlreadyPaid ≤ e.totalSchoolFee
  opened : e.Opened

namespace Db

variable (db : Db)

/-- A plan that came from the invite. -/
def PlanFrom (id k : Id) (e : ChildEnrollment) : Prop :=
  db.enrollments.lookup k = some e ∧ e.enrollmentInviteId = some id

/-- A migrated payment of the plan. -/
def MigratedOn (k m : Id) (p : Payment) : Prop :=
  db.payments.lookup m = some p ∧ p.paymentType = .MIGRATED_PAYMENT ∧ p.enrollmentId = k

end Db

/-- Every claimed invite has one plan, every plan from an invite one migrated payment, and their
    figures agree. -/
structure InStep (db : Db) : Prop where
  terms : ∀ id i, db.invites.lookup id = some i →
    0 ≤ i.amountAlreadyPaid ∧ i.amountAlreadyPaid ≤ i.totalSchoolFee
  plan : ∀ id i, db.invites.lookup id = some i → i.status = .CLAIMED → ∃ k e, db.PlanFrom id k e
  one_plan : ∀ id k k' e e', db.PlanFrom id k e → db.PlanFrom id k' e' → k = k'
  claimed : ∀ id k e, db.PlanFrom id k e →
    ∃ i, db.invites.lookup id = some i ∧ i.status = .CLAIMED
  payment : ∀ id k e, db.PlanFrom id k e → ∃ m p, db.MigratedOn k m p
  one_payment : ∀ k m m' p p', db.MigratedOn k m p → db.MigratedOn k m' p' → m = m'
  placed : ∀ k m p, db.MigratedOn k m p → ∃ id e, db.PlanFrom id k e
  agrees : ∀ id i k e m p, db.invites.lookup id = some i → db.PlanFrom id k e →
    db.MigratedOn k m p → i.Matches e p

/-- What `s` still says about the later `t`. -/
structure Onward (s t : Db) : Prop where
  plans : ∀ k e e', s.enrollments.lookup k = some e → t.enrollments.lookup k = some e' →
    e'.enrollmentInviteId = e.enrollmentInviteId ∧ e'.totalSchoolFee = e.totalSchoolFee
  payments : ∀ k e' m p, s.MigratedOn k m p → t.enrollments.lookup k = some e' →
    ∃ p', t.MigratedOn k m p'
  kept : ∀ id k e i', s.PlanFrom id k e → t.invites.lookup id = some i' → i'.status = .CLAIMED →
    ∃ e', t.PlanFrom id k e'
  invites : ∀ id i', t.invites.lookup id = some i' → ∃ i, s.invites.lookup id = some i ∧
    i.totalSchoolFee = i'.totalSchoolFee ∧
    (i'.status = .PENDING → i.status = .PENDING ∧ i.amountAlreadyPaid = i'.amountAlreadyPaid) ∧
    (i'.status = .CLAIMED → i.status = .PENDING ∨ i.status = .CLAIMED)

/-- A step that keeps the figures together. -/
structure Together (s t : Db) : Prop where
  inStep : InStep t
  onward : Onward s t

namespace Onward

theorem refl (s : Db) : Onward s s where
  plans := by grind
  payments := fun _ _ _ p hp _ => ⟨p, hp⟩
  kept := fun _ _ e _ he _ _ => ⟨e, he⟩
  invites := fun _ i hi => ⟨i, hi, rfl, fun h => ⟨h, rfl⟩, Or.inr⟩

/-- A plan that is gone does not come back under the same key. -/
theorem trans {s t u : Db} (hs : InStep s) (h : Onward s t) (h' : Onward t u)
    (hfresh : ∀ k, t.enrollments.lookup k = none → u.enrollments.lookup k ≠ none →
      s.enrollments.lookup k = none) : Onward s u := by
  have hbetween : ∀ k e e', s.enrollments.lookup k = some e → u.enrollments.lookup k = some e' →
      ∃ e₁, t.enrollments.lookup k = some e₁ := by
    intro k e e' he he'
    cases hk : t.enrollments.lookup k with
    | some e₁ => exact ⟨e₁, rfl⟩
    | none =>
      have hnone := hfresh k hk (by simp [he'])
      rw [he] at hnone
      cases hnone
  constructor
  · intro k e e' he he'
    obtain ⟨e₁, he₁⟩ := hbetween k e e' he he'
    obtain ⟨hid, hfee⟩ := h.plans k e e₁ he he₁
    obtain ⟨hid', hfee'⟩ := h'.plans k e₁ e' he₁ he'
    exact ⟨hid'.trans hid, hfee'.trans hfee⟩
  · intro k e' m p hp he'
    obtain ⟨id, e, he, -⟩ := hs.placed k m p hp
    obtain ⟨e₁, he₁⟩ := hbetween k e e' he he'
    obtain ⟨p₁, hp₁⟩ := h.payments k e₁ m p hp he₁
    exact h'.payments k e' m p₁ hp₁ he'
  · intro id k e i' he hi' hclaimed
    obtain ⟨i₁, hi₁, -, -, hwas⟩ := h'.invites id i' hi'
    rcases hwas hclaimed with hpending | hclaimed₁
    · -- A claimed invite never becomes PENDING again.
      obtain ⟨i, hi, -, hbefore, -⟩ := h.invites id i₁ hi₁
      obtain ⟨j, hj, hjclaimed⟩ := hs.claimed id k e he
      obtain rfl := Option.some.inj (hi.symm.trans hj)
      rw [(hbefore hpending).1] at hjclaimed
      cases hjclaimed
    · obtain ⟨e₁, he₁⟩ := h.kept id k e i₁ he hi₁ hclaimed₁
      exact h'.kept id k e₁ i' he₁ hi' hclaimed
  · intro id i' hi'
    obtain ⟨i₁, hi₁, hfee', hpending', hclaimed'⟩ := h'.invites id i' hi'
    obtain ⟨i, hi, hfee, hpending, hclaimed⟩ := h.invites id i₁ hi₁
    refine ⟨i, hi, hfee.trans hfee', fun hp => ?_, fun hc => ?_⟩
    · obtain ⟨hp₁, hamount'⟩ := hpending' hp
      obtain ⟨hp₀, hamount⟩ := hpending hp₁
      exact ⟨hp₀, hamount.trans hamount'⟩
    · rcases hclaimed' hc with hp₁ | hc₁
      · exact Or.inl (hpending hp₁).1
      · exact hclaimed hc₁

end Onward

/-! ### Rows that keep their figures -/

/-- What a plan was opened with. -/
structure PlanOpening where
  enrollmentInviteId : Option Id
  totalSchoolFee : Int
  firstPaymentPaid : Int

def ChildEnrollment.opening (e : ChildEnrollment) : PlanOpening where
  enrollmentInviteId := e.enrollmentInviteId
  totalSchoolFee := e.totalSchoolFee
  firstPaymentPaid := e.firstPaymentPaid

/-- What a migrated payment records. -/
structure PaymentOpening where
  enrollmentId : Id
  amountPaid : Int
  schoolAmount : Int
  status : PaymentTransactionStatus
  isConfirmed : Bool

def Payment.opening? (p : Payment) : Option PaymentOpening :=
  if p.paymentType = .MIGRATED_PAYMENT then
    some
      { enrollmentId := p.enrollmentId
        amountPaid := p.amountPaid
        schoolAmount := p.schoolAmount
        status := p.status
        isConfirmed := p.isConfirmed }
  else none

/-- What an invite says, and whether it is claimed. -/
structure InviteFigures where
  totalSchoolFee : Int
  amountAlreadyPaid : Int
  claimed : Bool

def EnrollmentInvite.figures (i : EnrollmentInvite) : InviteFigures where
  totalSchoolFee := i.totalSchoolFee
  amountAlreadyPaid := i.amountAlreadyPaid
  claimed := decide (i.status = .CLAIMED)

/-- A plan keeps what it was opened with, and one from an invite stays open. -/
structure KeepsPlan (r r' : Option ChildEnrollment) : Prop where
  opening : r'.map (·.opening) = r.map (·.opening)
  opened : ∀ e e', r = some e → r' = some e' → e.enrollmentInviteId ≠ none → e.Opened → e'.Opened

/-- A migrated payment keeps its record, and no other becomes one. -/
def KeepsPayment (r r' : Option Payment) : Prop := r'.bind Payment.opening? = r.bind Payment.opening?

/-- An invite keeps its figures and does not become PENDING. -/
structure KeepsInvite (r r' : Option EnrollmentInvite) : Prop where
  figures : r'.map (·.figures) = r.map (·.figures)
  pending : ∀ i', r' = some i' → i'.status = .PENDING → ∃ i, r = some i ∧ i.status = .PENDING

theorem KeepsPlan.refl (r : Option ChildEnrollment) : KeepsPlan r r where
  opening := rfl
  opened := by grind

theorem KeepsPlan.trans {r r' r'' : Option ChildEnrollment} (h : KeepsPlan r r')
    (h' : KeepsPlan r' r'') : KeepsPlan r r'' := by
  refine ⟨h'.opening.trans h.opening, fun e e'' he he'' hinvite hopened => ?_⟩
  have hmiddle := h.opening
  rw [he] at hmiddle
  obtain ⟨e', he', hsame⟩ := Option.map_eq_some_iff.mp hmiddle
  refine h'.opened e' e'' he' he'' ?_ (h.opened e e' he he' hinvite hopened)
  rw [show e'.enrollmentInviteId = e.enrollmentInviteId from
    congrArg PlanOpening.enrollmentInviteId hsame]
  exact hinvite

theorem KeepsPayment.refl (r : Option Payment) : KeepsPayment r r := rfl

theorem KeepsPayment.trans {r r' r'' : Option Payment} (h : KeepsPayment r r')
    (h' : KeepsPayment r' r'') : KeepsPayment r r'' := Eq.trans h' h

/-- A migrated payment has been one before. -/
theorem KeepsPayment.migratedOn {s t : Db} {k m : Id} {p' : Payment}
    (h : KeepsPayment (s.payments.lookup m) (t.payments.lookup m)) (hp' : t.MigratedOn k m p') :
    ∃ p, s.MigratedOn k m p ∧ p'.opening? = p.opening? := by
  obtain ⟨hrow, htype, hplan⟩ := hp'
  rw [KeepsPayment, hrow, Option.bind_some] at h
  cases hp : s.payments.lookup m with
  | none =>
    rw [hp] at h
    simp [Payment.opening?, htype] at h
  | some p =>
    rw [hp, Option.bind_some] at h
    refine ⟨p, ⟨hp, ?_⟩, h⟩
    rw [← hplan]
    grind [Payment.opening?]

theorem KeepsInvite.refl (r : Option EnrollmentInvite) : KeepsInvite r r where
  figures := rfl
  pending := by grind

theorem KeepsInvite.trans {r r' r'' : Option EnrollmentInvite} (h : KeepsInvite r r')
    (h' : KeepsInvite r' r'') : KeepsInvite r r'' := by
  refine ⟨h'.figures.trans h.figures, fun i'' hi'' hpending => ?_⟩
  obtain ⟨i', hi', hpending'⟩ := h'.pending i'' hi'' hpending
  exact h.pending i' hi' hpending'

/-- A step whose rows all keep their figures. -/
structure KeepsFigures (s t : Db) : Prop where
  plans : ∀ k, KeepsPlan (s.enrollments.lookup k) (t.enrollments.lookup k)
  payments : ∀ m, KeepsPayment (s.payments.lookup m) (t.payments.lookup m)
  invites : ∀ id, KeepsInvite (s.invites.lookup id) (t.invites.lookup id)

namespace KeepsFigures

variable {s t : Db}

/-- A plan has been there with the same opening. -/
theorem plan_before (h : KeepsFigures s t) {k : Id} {e' : ChildEnrollment}
    (he' : t.enrollments.lookup k = some e') :
    ∃ e, s.enrollments.lookup k = some e ∧ e'.opening = e.opening := by
  have hsame := (h.plans k).opening
  rw [he'] at hsame
  obtain ⟨e, he, heq⟩ := Option.map_eq_some_iff.mp hsame.symm
  exact ⟨e, he, heq.symm⟩

theorem plan_after (h : KeepsFigures s t) {k : Id} {e : ChildEnrollment}
    (he : s.enrollments.lookup k = some e) :
    ∃ e', t.enrollments.lookup k = some e' ∧ e'.opening = e.opening := by
  have hsame := (h.plans k).opening
  rw [he] at hsame
  exact Option.map_eq_some_iff.mp hsame

theorem planFrom_before (h : KeepsFigures s t) {id k : Id} {e' : ChildEnrollment}
    (he' : t.PlanFrom id k e') : ∃ e, s.PlanFrom id k e ∧ e'.opening = e.opening := by
  obtain ⟨hrow, hid⟩ := he'
  obtain ⟨e, he, hsame⟩ := h.plan_before hrow
  exact ⟨e, ⟨he, (congrArg PlanOpening.enrollmentInviteId hsame).symm.trans hid⟩, hsame⟩

theorem planFrom_after (h : KeepsFigures s t) {id k : Id} {e : ChildEnrollment} (he : s.PlanFrom id k e) :
    ∃ e', t.PlanFrom id k e' := by
  obtain ⟨hrow, hid⟩ := he
  obtain ⟨e', he', hsame⟩ := h.plan_after hrow
  exact ⟨e', he', (congrArg PlanOpening.enrollmentInviteId hsame).trans hid⟩

theorem migratedOn_before (h : KeepsFigures s t) {k m : Id} {p' : Payment}
    (hp' : t.MigratedOn k m p') : ∃ p, s.MigratedOn k m p ∧ p'.opening? = p.opening? :=
  (h.payments m).migratedOn hp'

theorem migratedOn_after (h : KeepsFigures s t) {k m : Id} {p : Payment} (hp : s.MigratedOn k m p) :
    ∃ p', t.MigratedOn k m p' := by
  obtain ⟨p', hp', -⟩ := KeepsPayment.migratedOn (Eq.symm (h.payments m)) hp
  exact ⟨p', hp'⟩

theorem invite_before (h : KeepsFigures s t) {id : Id} {i' : EnrollmentInvite}
    (hi' : t.invites.lookup id = some i') :
    ∃ i, s.invites.lookup id = some i ∧ i'.figures = i.figures := by
  have hsame := (h.invites id).figures
  rw [hi'] at hsame
  obtain ⟨i, hi, heq⟩ := Option.map_eq_some_iff.mp hsame.symm
  exact ⟨i, hi, heq.symm⟩

theorem invite_after (h : KeepsFigures s t) {id : Id} {i : EnrollmentInvite}
    (hi : s.invites.lookup id = some i) :
    ∃ i', t.invites.lookup id = some i' ∧ i'.figures = i.figures := by
  have hsame := (h.invites id).figures
  rw [hi] at hsame
  exact Option.map_eq_some_iff.mp hsame

theorem claimed_iff {i i' : EnrollmentInvite} (h : i'.figures = i.figures) :
    i'.status = .CLAIMED ↔ i.status = .CLAIMED := by
  have hsame := congrArg InviteFigures.claimed h
  simpa [EnrollmentInvite.figures] using hsame

theorem matches_after {i i' : EnrollmentInvite} {e e' : ChildEnrollment} {p p' : Payment}
    (hi : i'.figures = i.figures) (he : e'.opening = e.opening) (hp : p'.opening? = p.opening?)
    (htype : p.paymentType = .MIGRATED_PAYMENT) (hopened : e'.Opened) (h : i.Matches e p) :
    i'.Matches e' p' := by
  have hpayment : p'.amountPaid = p.amountPaid ∧ p'.schoolAmount = p.schoolAmount ∧
      p'.status = p.status ∧ p'.isConfirmed = p.isConfirmed := by
    grind [Payment.opening?]
  obtain ⟨hamount, hschool, hstatus, hconfirmed⟩ := hpayment
  have hfee := congrArg PlanOpening.totalSchoolFee he
  have hpaid := congrArg PlanOpening.firstPaymentPaid he
  have hifee := congrArg InviteFigures.totalSchoolFee hi
  have hiamount := congrArg InviteFigures.amountAlreadyPaid hi
  simp only [ChildEnrollment.opening, EnrollmentInvite.figures] at hfee hpaid hifee hiamount
  obtain ⟨h₁, h₂, h₃, h₄, h₅, h₆, h₇, h₈, -⟩ := h
  refine ⟨?_, ?_, ?_, ?_, ?_, ?_, ?_, ?_, hopened⟩
  · rw [hpaid, hiamount, h₁]
  · rw [hamount, hiamount, h₂]
  · rw [hschool, hiamount, h₃]
  · rw [hfee, hifee, h₄]
  · rw [hstatus, h₅]
  · rw [hconfirmed, h₆]
  · rw [hiamount]
    exact h₇
  · rw [hiamount, hfee]
    exact h₈

theorem inStep (h : KeepsFigures s t) (hs : InStep s) : InStep t := by
  constructor
  · intro id i' hi'
    obtain ⟨i, hi, hsame⟩ := h.invite_before hi'
    have hfee := congrArg InviteFigures.totalSchoolFee hsame
    have hamount := congrArg InviteFigures.amountAlreadyPaid hsame
    simp only [EnrollmentInvite.figures] at hfee hamount
    rw [hfee, hamount]
    exact hs.terms id i hi
  · intro id i' hi' hclaimed
    obtain ⟨i, hi, hsame⟩ := h.invite_before hi'
    obtain ⟨k, e, he⟩ := hs.plan id i hi ((claimed_iff hsame).mp hclaimed)
    exact ⟨k, h.planFrom_after he⟩
  · intro id k k' e e' he he'
    obtain ⟨e₀, he₀, -⟩ := h.planFrom_before he
    obtain ⟨e₀', he₀', -⟩ := h.planFrom_before he'
    exact hs.one_plan id k k' e₀ e₀' he₀ he₀'
  · intro id k e' he'
    obtain ⟨e, he, -⟩ := h.planFrom_before he'
    obtain ⟨i, hi, hclaimed⟩ := hs.claimed id k e he
    obtain ⟨i', hi', hsame⟩ := h.invite_after hi
    exact ⟨i', hi', (claimed_iff hsame).mpr hclaimed⟩
  · intro id k e' he'
    obtain ⟨e, he, -⟩ := h.planFrom_before he'
    obtain ⟨m, p, hp⟩ := hs.payment id k e he
    exact ⟨m, h.migratedOn_after hp⟩
  · intro k m m' p p' hp hp'
    obtain ⟨p₀, hp₀, -⟩ := h.migratedOn_before hp
    obtain ⟨p₀', hp₀', -⟩ := h.migratedOn_before hp'
    exact hs.one_payment k m m' p₀ p₀' hp₀ hp₀'
  · intro k m p' hp'
    obtain ⟨p, hp, -⟩ := h.migratedOn_before hp'
    obtain ⟨id, e, he⟩ := hs.placed k m p hp
    exact ⟨id, h.planFrom_after he⟩
  · intro id i' k e' m p' hi' he' hp'
    obtain ⟨i, hi, hisame⟩ := h.invite_before hi'
    obtain ⟨e, he, hesame⟩ := h.planFrom_before he'
    obtain ⟨p, hp, hpsame⟩ := h.migratedOn_before hp'
    have hmatches := hs.agrees id i k e m p hi he hp
    have hopened : e'.Opened := by
      refine (h.plans k).opened e e' he.1 he'.1 ?_ hmatches.opened
      rw [he.2]
      exact Option.some_ne_none id
    exact matches_after hisame hesame hpsame hp.2.1 hopened hmatches

theorem onward (h : KeepsFigures s t) : Onward s t := by
  constructor
  · intro k e e' he he'
    obtain ⟨e₀, he₀, hsame⟩ := h.plan_before he'
    obtain rfl := Option.some.inj (he.symm.trans he₀)
    exact ⟨congrArg PlanOpening.enrollmentInviteId hsame,
      congrArg PlanOpening.totalSchoolFee hsame⟩
  · exact fun k e' m p hp _ => h.migratedOn_after hp
  · exact fun id k e i' he _ _ => h.planFrom_after he
  · intro id i' hi'
    obtain ⟨i, hi, hsame⟩ := h.invite_before hi'
    refine ⟨i, hi, (congrArg InviteFigures.totalSchoolFee hsame).symm, fun hp => ?_, fun hc => ?_⟩
    · obtain ⟨i₀, hi₀, hpending⟩ := (h.invites id).pending i' hi' hp
      obtain rfl := Option.some.inj (hi.symm.trans hi₀)
      exact ⟨hpending, (congrArg InviteFigures.amountAlreadyPaid hsame).symm⟩
    · exact Or.inr ((claimed_iff hsame).mp hc)

theorem together (h : KeepsFigures s t) (hs : InStep s) : Together s t :=
  ⟨h.inStep hs, h.onward⟩

end KeepsFigures

end Lopay
