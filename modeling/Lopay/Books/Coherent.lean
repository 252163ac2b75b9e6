import Lopay.Ledger.Migrated
import Lopay.Enrollment.Installment

/-!
# What every reachable database satisfies

Three relations on committed databases carry the proofs about the ledger.

`Coherent` is the invariant: relations resolve, a payment is confirmed exactly when
its status is SUCCESS, references are unique and belong to card first payments,
idempotency keys are unique, and migrated plans stand apart from the others. `Stable` relates an earlier database to a
later one: rows stay, and the columns that say what a row is about do not change.
`Quiet` is what one plan can count on while its row is locked.
-/

namespace Lopay

open Transactions

/-! ### What a payment counts for -/

/-- What a confirmed payment is worth towards the school fee. -/
def Payment.worth (p : Payment) : Int :=
  match p.paymentType with
  | .FIRST_PAYMENT => p.schoolAmount
  | .INSTALLMENT => p.amountPaid
  | .MIGRATED_PAYMENT => p.amountPaid

def Payment.isCredited (p : Payment) : Bool := p.status = .SUCCESS ∧ p.isConfirmed

/-- The sum of the confirmed payments of a plan. -/
def credited (enrollmentId : Id) (db : Db) : Int :=
  Table.total (fun _ p => if p.enrollmentId = enrollmentId ∧ p.isCredited then p.worth else 0)
    db.payments

/-! ### The invariant -/

/-- A payment row, and its place in the database. -/
structure Payment.Sound (db : Db) (p : Payment) : Prop where
  plan : ∃ e, db.enrollments.lookup p.enrollmentId = some e ∧ p.schoolId = e.schoolId ∧
    (p.paymentType = .MIGRATED_PAYMENT → e.enrollmentInviteId ≠ none) ∧
    (p.paymentType = .FIRST_PAYMENT → e.enrollmentInviteId = none)
  confirmed : p.isConfirmed = true ↔ p.status = .SUCCESS
  reference : p.paystackReference ≠ none → p.paymentType = .FIRST_PAYMENT ∧ p.receiver = .PLATFORM
  first : p.paymentType = .FIRST_PAYMENT → 0 ≤ p.schoolAmount
  installment : p.paymentType = .INSTALLMENT → 0 < p.amountPaid ∧ p.schoolAmount = p.amountPaid
  migrated : p.paymentType = .MIGRATED_PAYMENT →
    p.status = .SUCCESS ∧ 0 ≤ p.amountPaid ∧ p.schoolAmount = p.amountPaid

/-- An enrollment row, and its place in the database. A migrated plan is opened by
    its claim and never leaves the opened states. -/
structure ChildEnrollment.Sound (db : Db) (e : ChildEnrollment) : Prop where
  fee : 0 < e.totalSchoolFee
  child : ∃ c parent, db.children.lookup e.childId = some c ∧
    db.parents.lookup c.parentId = some parent
  school : ∃ school, db.schools.lookup e.schoolId = some school
  opened : e.enrollmentInviteId ≠ none → e.paymentStatus ≠ .PENDING ∧ e.paymentStatus ≠ .FAILED

/-- Every child has its parent. -/
def Db.Parented (db : Db) : Prop :=
  db.children.Forall fun _ c => ∃ parent, db.parents.lookup c.parentId = some parent

structure Coherent (db : Db) : Prop where
  payments : db.payments.Forall fun _ p => p.Sound db
  enrollments : db.enrollments.Forall fun _ e => e.Sound db
  parented : db.Parented
  one_migrated : ∀ k k' p p', db.payments.lookup k = some p → db.payments.lookup k' = some p' →
    p.paymentType = .MIGRATED_PAYMENT → p'.paymentType = .MIGRATED_PAYMENT →
    p.enrollmentId = p'.enrollmentId → k = k'
  one_reference : ∀ k k' p p' r, db.payments.lookup k = some p → db.payments.lookup k' = some p' →
    p.paystackReference = some r → p'.paystackReference = some r → k = k'
  one_key : ∀ k k' p p' key, db.payments.lookup k = some p → db.payments.lookup k' = some p' →
    p.idempotencyKey = some key → p'.idempotencyKey = some key → k = k'

/-! ### Later databases -/

/-- What never changes about a payment, and an access code is never taken back. -/
structure Payment.Continues (p q : Payment) : Prop where
  enrollmentId : q.enrollmentId = p.enrollmentId
  schoolId : q.schoolId = p.schoolId
  paymentType : q.paymentType = p.paymentType
  receiver : q.receiver = p.receiver
  paystackReference : q.paystackReference = p.paystackReference
  amounts : p.paymentType ≠ .MIGRATED_PAYMENT →
    q.amountPaid = p.amountPaid ∧ q.schoolAmount = p.schoolAmount
  accessCode : p.paystackAccessCode ≠ none → q.paystackAccessCode ≠ none

structure ChildEnrollment.Continues (e e' : ChildEnrollment) : Prop where
  childId : e'.childId = e.childId
  schoolId : e'.schoolId = e.schoolId
  enrollmentInviteId : e'.enrollmentInviteId = e.enrollmentInviteId

/-- `t` is a later database than `s`. -/
structure Stable (s t : Db) : Prop where
  payments : ∀ k p, s.payments.lookup k = some p →
    ∃ q, t.payments.lookup k = some q ∧ p.Continues q
  enrollments : ∀ k e, s.enrollments.lookup k = some e →
    ∃ e', t.enrollments.lookup k = some e' ∧ e.Continues e'
  children : ∀ k c, s.children.lookup k = some c → t.children.lookup k = some c
  parents : ∀ k r, s.parents.lookup k = some r → t.parents.lookup k = some r
  schools : t.schools = s.schools
  users : t.users = s.users
  classFees : t.classFees = s.classFees

namespace Payment.Continues

theorem refl (p : Payment) : p.Continues p :=
  ⟨rfl, rfl, rfl, rfl, rfl, fun _ => ⟨rfl, rfl⟩, fun h => h⟩

theorem trans {p q r : Payment} (hpq : p.Continues q) (hqr : q.Continues r) : p.Continues r where
  enrollmentId := hqr.enrollmentId.trans hpq.enrollmentId
  schoolId := hqr.schoolId.trans hpq.schoolId
  paymentType := hqr.paymentType.trans hpq.paymentType
  receiver := hqr.receiver.trans hpq.receiver
  paystackReference := hqr.paystackReference.trans hpq.paystackReference
  amounts := by
    intro hp
    obtain ⟨h₁, h₂⟩ := hpq.amounts hp
    obtain ⟨h₃, h₄⟩ := hqr.amounts (by rw [hpq.paymentType]; exact hp)
    exact ⟨h₃.trans h₁, h₄.trans h₂⟩
  accessCode := fun h => hqr.accessCode (hpq.accessCode h)

end Payment.Continues

namespace ChildEnrollment.Continues

theorem refl (e : ChildEnrollment) : e.Continues e := ⟨rfl, rfl, rfl⟩

theorem trans {e f g : ChildEnrollment} (hef : e.Continues f) (hfg : f.Continues g) :
    e.Continues g :=
  ⟨hfg.childId.trans hef.childId, hfg.schoolId.trans hef.schoolId,
    hfg.enrollmentInviteId.trans hef.enrollmentInviteId⟩

end ChildEnrollment.Continues

namespace Stable

theorem refl (s : Db) : Stable s s where
  payments := fun _ p hp => ⟨p, hp, .refl p⟩
  enrollments := fun _ e he => ⟨e, he, .refl e⟩
  children := fun _ _ h => h
  parents := fun _ _ h => h
  schools := rfl
  users := rfl
  classFees := rfl

theorem trans {s t u : Db} (hst : Stable s t) (htu : Stable t u) : Stable s u where
  payments := by
    intro k p hp
    obtain ⟨q, hq, hpq⟩ := hst.payments k p hp
    obtain ⟨r, hr, hqr⟩ := htu.payments k q hq
    exact ⟨r, hr, hpq.trans hqr⟩
  enrollments := by
    intro k e he
    obtain ⟨f, hf, hef⟩ := hst.enrollments k e he
    obtain ⟨g, hg, hfg⟩ := htu.enrollments k f hf
    exact ⟨g, hg, hef.trans hfg⟩
  children := fun k c h => htu.children k c (hst.children k c h)
  parents := fun k r h => htu.parents k r (hst.parents k r h)
  schools := htu.schools.trans hst.schools
  users := htu.users.trans hst.users
  classFees := htu.classFees.trans hst.classFees

/-- A row that exists at both ends is about the same thing. -/
theorem payment {s t : Db} (h : Stable s t) {k : Id} {p q : Payment}
    (hp : s.payments.lookup k = some p) (hq : t.payments.lookup k = some q) : p.Continues q := by
  obtain ⟨q', hq', hc⟩ := h.payments k p hp
  obtain rfl := Option.some.inj (hq'.symm.trans hq)
  exact hc

theorem enrollment {s t : Db} (h : Stable s t) {k : Id} {e f : ChildEnrollment}
    (he : s.enrollments.lookup k = some e) (hf : t.enrollments.lookup k = some f) :
    e.Continues f := by
  obtain ⟨f', hf', hc⟩ := h.enrollments k e he
  obtain rfl := Option.some.inj (hf'.symm.trans hf)
  exact hc

theorem putPayment {s : Db} {k : Id} {p q : Payment} (hp : s.payments.lookup k = some p)
    (hpq : p.Continues q) : Stable s (store.apply (.putPayment k q) s) :=
  { refl s with
    payments := by
      intro k' p' hp'
      have hnow := Table.lookup_insert_ite s.payments k k' q
      by_cases hk : k' = k
      · subst hk
        obtain rfl := Option.some.inj (hp.symm.trans hp')
        rw [if_pos rfl] at hnow
        exact ⟨q, hnow, hpq⟩
      · rw [if_neg hk] at hnow
        exact ⟨p', hnow.trans hp', .refl p'⟩ }

theorem putEnrollment {s : Db} {k : Id} {e e' : ChildEnrollment}
    (he : s.enrollments.lookup k = some e) (hee : e.Continues e') :
    Stable s (store.apply (.putEnrollment k e') s) :=
  { refl s with
    enrollments := by
      intro k' f hf
      have hnow := Table.lookup_insert_ite s.enrollments k k' e'
      by_cases hk : k' = k
      · subst hk
        obtain rfl := Option.some.inj (he.symm.trans hf)
        rw [if_pos rfl] at hnow
        exact ⟨e', hnow, hee⟩
      · rw [if_neg hk] at hnow
        exact ⟨f, hnow.trans hf, .refl f⟩ }

end Stable

theorem Stable.plan? {s t : Db} (h : Stable s t) {k : Id} {plan : Plan}
    (hplan : s.plan? k = some plan) :
    ∃ row, t.plan? k = some { plan with row } ∧ plan.row.Continues row := by
  simp only [Db.plan?, Option.bind_eq_bind, Option.bind_eq_some_iff] at hplan
  obtain ⟨row, hrow, school, hschool, child, hchild, parent, hparent, heq⟩ := hplan
  obtain rfl := Option.some.inj heq
  obtain ⟨row', hrow', hc⟩ := h.enrollments k row hrow
  have hschool' : t.schools.lookup row'.schoolId = some school := by
    rw [hc.schoolId, h.schools, hschool]
  have hchild' : t.children.lookup row'.childId = some child := by
    rw [hc.childId, h.children _ _ hchild]
  refine ⟨row', ?_, hc⟩
  simp only [Db.plan?, hrow', hschool', hchild', h.parents _ _ hparent, Option.bind_eq_bind,
    Option.bind_some]

/-- What other transactions leave alone on a plan whose row is locked: its confirmed
    installments keep their sum, and no more gets reserved. -/
structure Quiet (enrollmentId : Id) (s t : Db) : Prop where
  confirmed : Ledger.installmentsConfirmed enrollmentId t =
    Ledger.installmentsConfirmed enrollmentId s
  reserved : Enrollment.installmentsReserved enrollmentId t ≤
    Enrollment.installmentsReserved enrollmentId s

theorem Quiet.refl (k : Id) (s : Db) : Quiet k s s := ⟨rfl, le_refl _⟩

theorem Quiet.trans {k : Id} {s t u : Db} (hst : Quiet k s t) (htu : Quiet k t u) : Quiet k s u :=
  ⟨htu.confirmed.trans hst.confirmed, htu.reserved.trans hst.reserved⟩

/-! ### Reading a coherent database -/

namespace Coherent

variable {db : Db}

/-- The enrollment of a payment. -/
theorem planOf (h : Coherent db) {k : Id} {p : Payment} (hp : db.payments.lookup k = some p) :
    ∃ e, db.enrollments.lookup p.enrollmentId = some e ∧ p.schoolId = e.schoolId ∧
      (p.paymentType = .MIGRATED_PAYMENT → e.enrollmentInviteId ≠ none) ∧
      (p.paymentType = .FIRST_PAYMENT → e.enrollmentInviteId = none) :=
  (h.payments k p hp).plan

/-- Enrollments have all their relations. -/
theorem plan?_isSome (h : Coherent db) {k : Id} {e : ChildEnrollment}
    (he : db.enrollments.lookup k = some e) : ∃ plan, db.plan? k = some plan := by
  obtain ⟨c, parent, hc, hparent⟩ := (h.enrollments k e he).child
  obtain ⟨school, hschool⟩ := (h.enrollments k e he).school
  refine ⟨{ id := k, row := e, school, child := c, parent }, ?_⟩
  simp only [Db.plan?, he, hschool, hc, hparent, Option.bind_eq_bind, Option.bind_some]

/-- So do payments. -/
theorem payment?_isSome (h : Coherent db) {k : Id} {p : Payment}
    (hp : db.payments.lookup k = some p) : ∃ payment, db.payment? k = some payment := by
  obtain ⟨e, he, -⟩ := h.planOf hp
  obtain ⟨plan, hplan⟩ := h.plan?_isSome he
  refine ⟨{ id := k, row := p, plan }, ?_⟩
  simp only [Db.payment?, hp, hplan, Option.bind_eq_bind, Option.bind_some]

end Coherent

theorem Db.plan?_eq_some {db : Db} {k : Id} {plan : Plan} (h : db.plan? k = some plan) :
    plan.id = k ∧ db.enrollments.lookup k = some plan.row := by
  simp only [Db.plan?, Option.bind_eq_bind, Option.bind_eq_some_iff] at h
  obtain ⟨row, hrow, school, -, child, -, parent, -, hplan⟩ := h
  obtain rfl := Option.some.inj hplan
  exact ⟨rfl, hrow⟩

theorem Db.payment?_eq_some {db : Db} {k : Id} {payment : PaymentOfPlan}
    (h : db.payment? k = some payment) :
    payment.id = k ∧ db.payments.lookup k = some payment.row ∧
      payment.plan.id = payment.row.enrollmentId ∧
      db.enrollments.lookup payment.row.enrollmentId = some payment.plan.row := by
  simp only [Db.payment?, Option.bind_eq_bind, Option.bind_eq_some_iff] at h
  obtain ⟨row, hrow, plan, hplan, hpayment⟩ := h
  obtain rfl := Option.some.inj hpayment
  obtain ⟨hid, hlookup⟩ := Db.plan?_eq_some hplan
  exact ⟨rfl, hrow, hid, hlookup⟩

theorem Db.referenced_eq_some {db : Db} {reference : String} {k : Id}
    (h : db.referenced reference = some k) :
    ∃ p, db.payments.lookup k = some p ∧ p.paystackReference = some reference := by
  simp only [Db.referenced, Option.map_eq_some_iff] at h
  obtain ⟨⟨k', p⟩, hfind, rfl⟩ := h
  have hmem := List.mem_of_find?_eq_some hfind
  have href := List.find?_some hfind
  exact ⟨p, Table.mem_rows.mp hmem, of_decide_eq_true href⟩

theorem Db.paymentByReference?_eq_some {db : Db} {reference : String} {payment : PaymentOfPlan}
    (h : db.paymentByReference? reference = some payment) :
    db.payments.lookup payment.id = some payment.row ∧
      payment.row.paystackReference = some reference ∧
      payment.plan.id = payment.row.enrollmentId ∧
      db.enrollments.lookup payment.row.enrollmentId = some payment.plan.row := by
  simp only [Db.paymentByReference?, Option.bind_eq_bind, Option.bind_eq_some_iff] at h
  obtain ⟨k, hk, hpayment⟩ := h
  obtain ⟨p, hp, href⟩ := Db.referenced_eq_some hk
  obtain ⟨rfl, hrow, hid, hplan⟩ := Db.payment?_eq_some hpayment
  obtain rfl := Option.some.inj (hp.symm.trans hrow)
  exact ⟨hrow, href, hid, hplan⟩

/-- Where references are unique, the payment that carries one is found by it. -/
theorem Db.paymentByReference?_of {db : Db} {reference : String} {payment : PaymentOfPlan}
    (hone : ∀ k p, db.payments.lookup k = some p → p.paystackReference = some reference →
      k = payment.id)
    (hpayment : db.payment? payment.id = some payment)
    (href : payment.row.paystackReference = some reference) :
    db.paymentByReference? reference = some payment := by
  obtain ⟨-, hrow, -⟩ := Db.payment?_eq_some hpayment
  have hfound : (db.payments.rows.find? fun r => r.2.paystackReference = some reference).isSome := by
    rw [List.find?_isSome]
    exact ⟨(payment.id, payment.row), Table.mem_rows.mpr hrow, decide_eq_true href⟩
  obtain ⟨⟨k', p'⟩, hr⟩ := Option.isSome_iff_exists.mp hfound
  have hk' : db.referenced reference = some k' := by
    simp only [Db.referenced, hr, Option.map_some]
  obtain ⟨q, hq, hqref⟩ := Db.referenced_eq_some hk'
  obtain rfl := hone k' q hq hqref
  simp only [Db.paymentByReference?, hk', Option.bind_eq_bind, Option.bind_some, hpayment]

/-- In a coherent database a reference that some payment carries is found. -/
theorem Coherent.paymentByReference? {db : Db} (h : Coherent db) {k : Id} {p : Payment}
    {reference : String} (hp : db.payments.lookup k = some p)
    (href : p.paystackReference = some reference) :
    ∃ payment, db.paymentByReference? reference = some payment ∧ payment.id = k ∧
      payment.row = p := by
  obtain ⟨payment, hpayment⟩ := h.payment?_isSome hp
  obtain ⟨rfl, hrow, -⟩ := Db.payment?_eq_some hpayment
  obtain rfl := Option.some.inj (hrow.symm.trans hp)
  refine ⟨payment, Db.paymentByReference?_of (fun k' q hq hqref => ?_) hpayment href, rfl, rfl⟩
  exact h.one_reference k' payment.id q payment.row reference hq hp hqref href

end Lopay
