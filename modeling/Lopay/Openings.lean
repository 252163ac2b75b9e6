import Lopay.Reversals
import Lopay.Transactions.Runs

/-!
# What has opened a plan

Only the first payment is meant to open a plan. The operations on installments and the mark of a
school do not look whether it has; as long as they are used on open plans, a plan that did not come
from an invite is open only while it has a first payment that was paid.
-/

namespace Lopay

open Transactions

def PaymentStatus.isOpen : PaymentStatus → Bool
  | .ACTIVE | .COMPLETED | .DEFAULTED => true
  | .PENDING | .FAILED => false

theorem PaymentStatus.isOpen_reopened (status : PaymentStatus) :
    status.reopened.isOpen = status.isOpen := by
  cases status <;> rfl

/-- The plan has a first payment that was paid. -/
def FirstPaid (id : Id) (s : Db) : Prop :=
  ∃ k p, s.payments.lookup k = some p ∧ p.enrollmentId = id ∧ p.paymentType = .FIRST_PAYMENT ∧
    p.status = .SUCCESS

/-- Every plan that is open and did not come from an invite has had its first payment. -/
def OpenedByPayment (s : Db) : Prop :=
  s.enrollments.Forall fun id e => e.enrollmentInviteId = none → e.paymentStatus.isOpen = true →
    FirstPaid id s

/-- Receipts are confirmed, and plans marked as DEFAULTED, on open plans only. -/
structure OnOpenPlans (s t : Db) : Prop where
  receipts : ∀ k p q e, s.payments.lookup k = some p → t.payments.lookup k = some q →
    p.paymentType = .INSTALLMENT → p.isConfirmed = false → q.isConfirmed = true →
    s.enrollments.lookup p.enrollmentId = some e → e.paymentStatus.isOpen = true
  marks : ∀ id e e', s.enrollments.lookup id = some e → t.enrollments.lookup id = some e' →
    e'.paymentStatus = .DEFAULTED → e.paymentStatus.isOpen = true

instance (s t : Db) : Decidable (OnOpenPlans s t) :=
  decidable_of_iff ((∀ r ∈ s.payments.rows, ∀ q ∈ t.payments.lookup r.1,
      r.2.paymentType = .INSTALLMENT → r.2.isConfirmed = false → q.isConfirmed = true →
      ∀ e ∈ s.enrollments.lookup r.2.enrollmentId, e.paymentStatus.isOpen = true) ∧
    ∀ r ∈ s.enrollments.rows, ∀ e' ∈ t.enrollments.lookup r.1,
      e'.paymentStatus = .DEFAULTED → r.2.paymentStatus.isOpen = true) <| by
    constructor
    · rintro ⟨hreceipts, hmarks⟩
      constructor
      · intro k p q e hp hq htype hbefore hafter he
        exact hreceipts (k, p) (Table.mem_rows.mpr hp) q hq htype hbefore hafter e he
      · intro id e e' he he'
        exact hmarks (id, e) (Table.mem_rows.mpr he) e' he'
    · rintro ⟨hreceipts, hmarks⟩
      constructor
      · intro r hr q hq htype hbefore hafter e he
        exact hreceipts r.1 r.2 q e (Table.mem_rows.mp hr) hq htype hbefore hafter he
      · intro r hr e' he'
        exact hmarks r.1 r.2 e' (Table.mem_rows.mp hr) he'

section Postings

variable {E : Db → Db → Prop} {s t : Db} {kind : Kind} {entry : Entry} {locks : List Lock} {id : Id}
  {j : Job}

/-- A first payment that was paid stays so, unless its plan fails with it. -/
theorem Posting.keeps_first (hs : Coherent s) (h : Posting E s kind entry)
    (hm : entry.Made s t locks) (hpaid : FirstPaid id s) :
    FirstPaid id t ∨ ∃ e', entry.plan = some (id, e') ∧ e'.paymentStatus = .FAILED := by
  rcases hpaid with ⟨k, p, hp, rfl, htype, hstatus⟩
  by_cases hput : ∃ q, entry.payment = some (k, q)
  · rcases hput with ⟨q, hput⟩
    have hstays : q.enrollmentId = p.enrollmentId → q.paymentType = p.paymentType →
        q.status = .SUCCESS → FirstPaid p.enrollmentId t := fun hplan hsame hsuccess =>
      ⟨k, q, hm.payment_put hput, hplan, hsame.trans htype, hsuccess⟩
    have hconfirmed := (hs.payments k p hp).confirmed.mpr hstatus
    cases h with
    | dispute hp' =>
      rcases Prod.mk.inj (Option.some.inj hput) with ⟨rfl, rfl⟩
      obtain rfl := Option.some.inj (hp.symm.trans hp')
      refine .inr ⟨_, rfl, ?_⟩
      simp only [ChildEnrollment.disputed]
      split <;> rfl
    | confirm hp' | credit _ hp' =>
      rcases Prod.mk.inj (Option.some.inj hput) with ⟨rfl, rfl⟩
      obtain rfl := Option.some.inj (hp.symm.trans hp')
      exact .inl (hstays rfl rfl rfl)
    | amend hp' | releaseKey hp' | storeAccessCode hp' =>
      rcases Prod.mk.inj (Option.some.inj hput) with ⟨rfl, rfl⟩
      obtain rfl := Option.some.inj (hp.symm.trans hp')
      exact .inl (hstays rfl rfl hstatus)
    | reverse hp' hinstallment =>
      rcases Prod.mk.inj (Option.some.inj hput) with ⟨rfl, rfl⟩
      obtain rfl := Option.some.inj (hp.symm.trans hp')
      rw [htype] at hinstallment
      cases hinstallment
    | reject hp' _ _ hunconfirmed | close hp' _ _ hunconfirmed =>
      rcases Prod.mk.inj (Option.some.inj hput) with ⟨rfl, rfl⟩
      obtain rfl := Option.some.inj (hp.symm.trans hp')
      rw [hconfirmed] at hunconfirmed
      cases hunconfirmed
    | openPlan _ ho | reopenPlan _ _ ho =>
      rcases Prod.mk.inj (Option.some.inj hput) with ⟨rfl, rfl⟩
      have hfresh := ho.fresh
      rw [hp] at hfresh
      cases hfresh
    | submit hfresh | migrate hfresh =>
      rcases Prod.mk.inj (Option.some.inj hput) with ⟨rfl, rfl⟩
      rw [hp] at hfresh
      cases hfresh
    | markDefaulted | sweepDefaulted | aside => cases hput
  · refine .inl ⟨k, p, ?_, rfl, htype, hstatus⟩
    rw [hm.payment_kept fun q hq => hput ⟨q, hq⟩]
    exact hp

/-- A posting on open plans opens none without its first payment. -/
theorem Posting.opened (hs : Coherent s) (hopened : OpenedByPayment s) (hon : OnOpenPlans s t)
    (h : Posting (Decided j) s kind entry) (hmay : j.May kind) (hm : entry.Made s t locks) :
    OpenedByPayment t := by
  intro id e' he' hinvite hopen
  -- A plan that has been open before had its first payment, and has not failed now.
  have hbefore : ∀ e, s.enrollments.lookup id = some e → e.enrollmentInviteId = none →
      e.paymentStatus.isOpen = true → FirstPaid id t := by
    intro e he hnone hwas
    rcases h.keeps_first hs hm (hopened id e he hnone hwas) with hpaid | ⟨f, hput, hfailed⟩
    · exact hpaid
    · obtain rfl := Option.some.inj ((hm.plan_put hput).symm.trans he')
      rw [hfailed] at hopen
      cases hopen
  rcases hm.enrollment_cases he' with hput | ⟨hold, -⟩
  · cases h with
    | @confirm k p e date a hp htype hunconfirmed he =>
      rcases Prod.mk.inj (Option.some.inj hput) with ⟨rfl, rfl⟩
      have hsame := (ChildEnrollment.paidDown_continues e p.amountPaid).enrollmentInviteId
      exact hbefore e he (hsame ▸ hinvite)
        (hon.receipts k p _ e hp (hm.payment_put rfl) htype hunconfirmed rfl he)
    | @reverse k p e before c a hp _ _ _ he hc _ hread =>
      rcases Prod.mk.inj (Option.some.inj hput) with ⟨rfl, rfl⟩
      have hsame := hc.2 k (Job.withdraws_of_may hmay) p hp
      rw [SameMark, hread, he] at hsame
      have hmarked : before.paymentStatus.reopened = e.paymentStatus.reopened :=
        Option.some.inj hsame
      refine hbefore e he hinvite ?_
      rw [← PaymentStatus.isOpen_reopened, ← hmarked, PaymentStatus.reopened_eq]
      exact hopen
    | @credit _ k p e date fee a _ hp htype =>
      rcases Prod.mk.inj (Option.some.inj hput) with ⟨rfl, rfl⟩
      exact ⟨k, _, hm.payment_put rfl, rfl, htype, rfl⟩
    | markDefaulted he | sweepDefaulted he =>
      rcases Prod.mk.inj (Option.some.inj hput) with ⟨rfl, rfl⟩
      exact hbefore _ he hinvite (hon.marks _ _ _ he he' rfl)
    | close =>
      rcases Prod.mk.inj (Option.some.inj hput) with ⟨rfl, rfl⟩
      cases hopen
    | dispute =>
      rcases Prod.mk.inj (Option.some.inj hput) with ⟨rfl, rfl⟩
      simp only [ChildEnrollment.disputed] at hopen
      split at hopen <;> cases hopen
    | openPlan _ ho | reopenPlan _ _ ho =>
      rcases Prod.mk.inj (Option.some.inj hput) with ⟨rfl, rfl⟩
      rw [ho.pending] at hopen
      cases hopen
    | submit _ _ _ _ _ _ _ _ he =>
      rcases Prod.mk.inj (Option.some.inj hput) with ⟨rfl, rfl⟩
      exact hbefore _ he hinvite hopen
    | migrate =>
      rcases Prod.mk.inj (Option.some.inj hput) with ⟨rfl, rfl⟩
      cases hinvite
    | @amend k p e newAmount a hp htype _ _ he =>
      rcases Prod.mk.inj (Option.some.inj hput) with ⟨rfl, rfl⟩
      rcases hs.planOf hp with ⟨f, hf, -, hmigrated, -⟩
      obtain rfl := Option.some.inj (he.symm.trans hf)
      exact absurd hinvite (hmigrated htype)
    | reject | releaseKey | storeAccessCode | aside => cases hput
  · exact hbefore e' hold hinvite hopen

end Postings

/-! ### Runs -/

/-- Nobody changes the status of a plan while a reversal decides on it, and schools act on open
    plans only. -/
structure Orderly (t : Service) (e : Event Job Answer) (t' : Service) : Prop where
  decisions : LeavesDecisions t e t'
  plans : OnOpenPlans t.store t'.store

instance (t : Service) (e : Event Job Answer) (t' : Service) : Decidable (Orderly t e t') :=
  decidable_of_iff (LeavesDecisions t e t' ∧ OnOpenPlans t.store t'.store)
    ⟨fun h => ⟨h.1, h.2⟩, fun h => ⟨h.decisions, h.plans⟩⟩

variable {t : Service}

/-- In any orderly interleaving a plan that is ACTIVE, COMPLETED or DEFAULTED, and did not come
    from an invite, has a first payment whose status is SUCCESS. -/
theorem opened_by_first_payment
    (ht : Sys.Reach store Job.program Orderly (fun s => Coherent s ∧ OpenedByPayment s) t)
    {id : Id} {e : ChildEnrollment} (he : t.store.enrollments.lookup id = some e)
    (hinvite : e.enrollmentInviteId = none) (hopen : e.paymentStatus.isOpen = true) :
    FirstPaid id t.store := by
  suffices hinv : OpenedByPayment t.store from hinv id e he hinvite hopen
  clear he
  induction ht with
  | init hs => exact hs.2
  | @step t t' e ht hstep horderly ih =>
    have hreach := ht.mono fun _ _ _ h => h.decisions
    have hcoh := reach_coherent (fun _ h => h.1) ht
    have hgood := hreach.good leaving_discipline fun _ h => h.1
    rcases hgood.committed leaving_discipline hstep horderly.decisions with
      hsame | ⟨pid, ch, x, ws, -, -, -, hnow, ⟨kind, hmay, entry, hposting, hmade⟩, hstore⟩
    · rw [hsame]
      exact ih
    · rw [hnow] at hposting hmade
      rw [← hstore] at hmade
      exact hposting.opened hcoh ih horderly.plans hmay hmade

/-- A plan whose deposit was settled and whose only receipt has been confirmed and taken back. -/
theorem opened_by_first_payment_reversed : ∃ t e,
    Sys.exec store Job.program (fun t e t' => decide (Orderly t e t'))
      (reversalDue ++ goingOn 4 "d" 0 9) (.init oneFamily) = some t ∧
    t.store.enrollments.lookup "a6" = some e ∧ e.paymentStatus = .ACTIVE ∧
    FirstPaid "a6" t.store := by
  have hruns : ((Sys.exec store Job.program (fun t e t' => decide (Orderly t e t'))
      (reversalDue ++ goingOn 4 "d" 0 9) (.init oneFamily)).any fun t =>
        (t.store.enrollments.lookup "a6").any fun e =>
          e.enrollmentInviteId = none ∧ e.paymentStatus = .ACTIVE) = true := by
    decide +kernel
  rcases (Option.any_eq_true _ _).mp hruns with ⟨t, ht, hany⟩
  rcases (Option.any_eq_true _ _).mp hany with ⟨e, he, hcond⟩
  rcases of_decide_eq_true hcond with ⟨hinvite, hactive⟩
  have hstart : Coherent oneFamily ∧ OpenedByPayment oneFamily := by
    refine ⟨oneFamily_opening.coherent, fun id e he => ?_⟩
    cases he
  refine ⟨t, e, ht, he, hactive, opened_by_first_payment (Sys.reach_of_exec
    (fun _ _ _ h => of_decide_eq_true h) (.init hstart) ht) he hinvite ?_⟩
  rw [hactive]
  rfl

end Lopay
