import Lopay.Balances

/-!
# A plan that is opened again

A dispute puts the balance of a plan back to the whole fee and a new first payment opens
it from there; the installments confirmed on it meanwhile stay confirmed. Where there are
none of these, and a plan that is FAILED comes back only by being opened again, the balance
is what the new first payment and the confirmed installments leave open.
-/

namespace Lopay

open Transactions

def Db.failed (db : Db) (id : Id) : Bool :=
  (db.enrollments.lookup id).any fun e => e.paymentStatus = .FAILED

/-- While a confirmation is withdrawn the fee of its plan stays. -/
def KeepsFee (j : Job) (c s : Db) : Prop :=
  ∀ k ∈ j.withdraws?, ∀ p ∈ c.payments.lookup k, ∀ before ∈ c.enrollments.lookup p.enrollmentId,
    ∀ e ∈ s.enrollments.lookup p.enrollmentId, before.totalSchoolFee = e.totalSchoolFee

/-- No plan is opened again that has confirmed payments, nothing is taken back while more
    than the fee is confirmed, and a FAILED plan whose balance is not what its payments
    leave open does not come back in another way. -/
structure ReopensCleanly (t : Service) (e : Event Job Answer) (t' : Service) : Prop where
  unclamped : Unclamped t.store t'.store
  comesBack : ∀ id, t.store.failed id = true → t'.store.failed id = false →
    Reopens t.store t'.store id ∨ Conserved id t.store
  keepsFee : ∀ q ∈ t.others e, q.prog.finished = false → KeepsFee q.job t.store t'.store

instance (j : Job) (c s : Db) : Decidable (KeepsFee j c s) :=
  inferInstanceAs (Decidable (∀ k ∈ j.withdraws?, _))

instance (id : Id) (s : Db) : Decidable (Conserved id s) :=
  inferInstanceAs (Decidable (∀ e ∈ s.enrollments.lookup id, _))

instance (s t : Db) (id : Id) : Decidable (Reopens s t id) :=
  decidable_of_iff ((s.enrollments.lookup id).isSome ∧ ∃ r ∈ t.payments.rows,
    s.payments.lookup r.1 = none ∧ r.2.paymentType = .FIRST_PAYMENT ∧ r.2.enrollmentId = id) <| by
    constructor
    · rintro ⟨hplan, ⟨k, p⟩, hp, hfresh, htype, hon⟩
      exact ⟨Option.isSome_iff_exists.mp hplan, k, p, hfresh, Table.mem_rows.mp hp, htype, hon⟩
    · rintro ⟨hplan, k, p, hfresh, hp, htype, hon⟩
      exact ⟨Option.isSome_iff_exists.mpr hplan, (k, p), Table.mem_rows.mpr hp, hfresh, htype, hon⟩

instance (t : Service) (e : Event Job Answer) (t' : Service) :
    Decidable (ReopensCleanly t e t') :=
  decidable_of_iff (Unclamped t.store t'.store ∧
    (∀ r ∈ t.store.enrollments.rows, t.store.failed r.1 = true → t'.store.failed r.1 = false →
      Reopens t.store t'.store r.1 ∨ Conserved r.1 t.store) ∧
    ∀ q ∈ t.others e, q.prog.finished = false → KeepsFee q.job t.store t'.store) <| by
    constructor
    · rintro ⟨hunclamped, hback, hfees⟩
      refine ⟨hunclamped, fun id hfailed => ?_, hfees⟩
      obtain ⟨e, he, -⟩ := (Option.any_eq_true _ _).mp hfailed
      exact hback (id, e) (Table.mem_rows.mpr he) hfailed
    · rintro ⟨hunclamped, hback, hfees⟩
      exact ⟨hunclamped, fun r _ => hback r.1, hfees⟩

variable {s t : Db} {kind : Kind} {entry : Entry} {locks : List Lock} {j : Job}

theorem Db.failed_of_lookup {id : Id} {e : ChildEnrollment}
    (he : s.enrollments.lookup id = some e) : s.failed id = true ↔ e.paymentStatus = .FAILED := by
  simp [Db.failed, he]

theorem keepsFee_heeded : Heeded KeepsFee where
  refl := by
    intro j s k _ p _ before hbefore e he
    rw [Option.some.inj (hbefore.symm.trans he)]
  trans := by
    intro j s t u hst _ hfirst hthen k hk p hp before hbefore e he
    obtain ⟨q, hq, hc⟩ := hst.payments k p hp
    obtain ⟨f, hf, -⟩ := hst.enrollments _ before hbefore
    have hone := hfirst k hk p hp before hbefore f hf
    rw [← hc.enrollmentId] at hf he
    exact hone.trans (hthen k hk q hq f hf e he)

/-- Only a posting for it opens a plan again. -/
theorem Posting.reopens {E : Db → Db → Prop} (h : Posting E s kind entry)
    (hm : entry.Made s t locks) {id : Id} (hreopens : Reopens s t id) :
    ∃ reference, kind = .reopenPlan reference := by
  obtain ⟨⟨e, he⟩, k, p, hfresh, hp, htype, hon⟩ := hreopens
  rcases hm.payment_cases hp with hput | ⟨hold, -⟩
  · cases h with
    | reopenPlan => exact ⟨_, rfl⟩
    | openPlan hnew _ hplan =>
      obtain ⟨rfl, rfl⟩ := Prod.mk.inj (Option.some.inj hput)
      rw [← hplan, hon, he] at hnew
      cases hnew
    | submit _ _ hinstallment =>
      obtain ⟨rfl, rfl⟩ := Prod.mk.inj (Option.some.inj hput)
      rw [hinstallment] at htype
      cases htype
    | migrate =>
      obtain ⟨rfl, rfl⟩ := Prod.mk.inj (Option.some.inj hput)
      cases htype
    | confirm hold | reverse hold | reject hold | close hold | credit _ hold | dispute hold
    | amend hold | releaseKey hold | storeAccessCode hold =>
      obtain ⟨rfl, -⟩ := Prod.mk.inj (Option.some.inj hput)
      rw [hold] at hfresh
      cases hfresh
    | markDefaulted | sweepDefaulted | aside => cases hput
  · rw [hold] at hfresh
    cases hfresh

/-- Every plan that is not FAILED has the balance that its payments leave open. -/
def Tallied (s : Db) : Prop :=
  s.enrollments.Forall fun id e => e.paymentStatus ≠ .FAILED →
    e.remainingBalance = max 0 (e.totalSchoolFee - credited id s)

theorem Posting.tallied (hs : Coherent s) (htallied : Tallied s)
    (hunclamped : Unclamped s t)
    (hback : ∀ id, s.failed id = true → t.failed id = false → Reopens s t id ∨ Conserved id s)
    (h : Posting (fun c s => Stable c s ∧ KeepsFee j c s) s kind entry) (hmay : j.May kind)
    (hm : entry.Made s t locks) : Tallied t := by
  intro id e' he' hopen
  rcases hm.enrollment_cases he' with hput | ⟨hold, hother⟩
  · refine h.conserved hs hunclamped ?_ ?_ hm hput ?_
    · rintro k p c before e rfl hc hp hbefore he
      exact hc.2 k (Job.withdraws_of_may hmay) p hp before hbefore e he
    · -- A dispute leaves the plan FAILED.
      rintro reference rfl
      cases h with
      | dispute =>
        obtain ⟨-, rfl⟩ := Prod.mk.inj (Option.some.inj hput)
        unfold ChildEnrollment.disputed at hopen
        split at hopen <;> exact hopen rfl
      | close _ hcloses => exact hcloses
    · intro hkind e he
      by_cases hfailed : e.paymentStatus = .FAILED
      · have hleft : t.failed id = false :=
          Bool.eq_false_iff.mpr fun h => hopen ((Db.failed_of_lookup he').mp h)
        rcases hback id ((Db.failed_of_lookup he).mpr hfailed) hleft with hreopens | hconserved
        · obtain ⟨reference, rfl⟩ := h.reopens hm hreopens
          exact absurd rfl (hkind reference)
        · exact hconserved e he
      · exact htallied id e he hfailed
  · rw [h.credited_elsewhere hm hother]
    exact htallied id e' hold hopen

variable {t t' : Service}

theorem reach_tallied (ht : Sys.Reach store Job.program ReopensCleanly Opening t) :
    Tallied t.store := by
  induction ht with
  | init hs =>
    intro id e he
    rw [Sys.init, hs.enrollments, AList.lookup_empty] at he
    cases he
  | @step t t' e ht hmove hclean ih =>
    have hcoh := reach_coherent (fun s hs => hs.coherent) ht
    rcases reach_heeded keepsFee_heeded (fun _ _ _ _ hguard => hguard.keepsFee)
        (fun s hs => hs.coherent) ht hmove hclean with
      hsame | ⟨pid, ch, x, kind, ws, rfl, -, hmay, ⟨entry, hposting, hmade⟩, hstore⟩
    · rw [hsame]
      exact ih
    · have hunclamped := hclean.unclamped
      have hback := hclean.comesBack
      rw [hstore] at hunclamped hback ⊢
      exact hposting.tallied hcoh ih hunclamped hback hmay hmade

/-- Interleave the jobs in any way: as long as plans are opened again cleanly, a plan that is
    not FAILED and has one confirmed first payment owes what this payment and its confirmed
    installments leave of the fee. -/
theorem reopened_balance (ht : Sys.Reach store Job.program ReopensCleanly Opening t)
    {k : Id} {p : Payment} {e : ChildEnrollment} (hp : t.store.payments.lookup k = some p)
    (htype : p.paymentType = .FIRST_PAYMENT) (hcredited : p.isCredited = true)
    (hone : ∀ k' q, t.store.payments.lookup k' = some q → q.paymentType = .FIRST_PAYMENT →
      q.enrollmentId = p.enrollmentId → q.isCredited = true → k' = k)
    (he : t.store.enrollments.lookup p.enrollmentId = some e)
    (hopen : e.paymentStatus ≠ .FAILED) :
    e.remainingBalance = max 0 (e.totalSchoolFee - p.schoolAmount -
      Ledger.installmentsConfirmed p.enrollmentId t.store) := by
  have hcoh := reach_coherent (fun s hs => hs.coherent) ht
  have hbalance := reach_tallied ht p.enrollmentId e he hopen
  rw [hcoh.credited_first hp htype hcredited hone] at hbalance
  rw [hbalance, Int.sub_sub]

/-- The only confirmed first payment of the plan `a9` is `k`, the plan is not FAILED, and the
    balance is as `holds` says. -/
def reopenedBy (k : Id) (holds : Db → ChildEnrollment → Payment → Bool) (s : Db) : Bool :=
  (s.payments.lookup k).any fun p => (s.enrollments.lookup "a9").any fun e =>
    p.enrollmentId = "a9" ∧ p.paymentType = .FIRST_PAYMENT ∧ p.isCredited ∧
    e.paymentStatus ≠ .FAILED ∧ holds s e p ∧
    ∀ r ∈ s.payments.rows, r.2.paymentType = .FIRST_PAYMENT → r.2.isCredited → r.1 = k

theorem reopenedBy_iff {k : Id} {holds : Db → ChildEnrollment → Payment → Bool} {s : Db}
    (h : reopenedBy k holds s = true) : ∃ p e, s.payments.lookup k = some p ∧
      p.paymentType = .FIRST_PAYMENT ∧ p.isCredited = true ∧
      (∀ k' q, s.payments.lookup k' = some q → q.paymentType = .FIRST_PAYMENT →
        q.enrollmentId = p.enrollmentId → q.isCredited = true → k' = k) ∧
      s.enrollments.lookup p.enrollmentId = some e ∧ e.paymentStatus ≠ .FAILED ∧
      holds s e p = true := by
  obtain ⟨p, hp, hany⟩ := (Option.any_eq_true _ _).mp h
  obtain ⟨e, he, hcond⟩ := (Option.any_eq_true _ _).mp hany
  obtain ⟨hplan, htype, hcredited, hopen, hholds, hone⟩ := of_decide_eq_true hcond
  rw [← hplan] at he
  exact ⟨p, e, hp, htype, hcredited,
    fun k' q hq hq' _ h => hone (k', q) (Table.mem_rows.mpr hq) hq' h, he, hopen, hholds⟩

/-- The card payment `a11` is disputed; the parent opens the plan again with `e10`, and
    Paystack reports this one paid, too. -/
def reopenedAfterDispute : List (Event Job Answer) :=
  cardChargeOpen ++
  uninterrupted 1 (.reconcilePaystackPayment "lopay_a7" none none) "b" 12 ++
  uninterrupted 2 (.reversePaystackPaymentByDispute "lopay_a7" "charge.dispute.create") "d" 11 ++
  uninterrupted 3 (.initiateFirstPayment environment (enrollment none) "parent") "e" 16 ++
  uninterrupted 4 (.reconcilePaystackPayment "lopay_e7" none none) "f" 12

theorem reopened_balance_afterDispute : ∃ t p e,
    Sys.exec store Job.program (fun t e t' => decide (ReopensCleanly t e t')) reopenedAfterDispute
      (.init oneFamily) = some t ∧ t.store.payments.lookup "e10" = some p ∧
    t.store.enrollments.lookup p.enrollmentId = some e ∧
    e.remainingBalance = max 0 (e.totalSchoolFee - p.schoolAmount -
      Ledger.installmentsConfirmed p.enrollmentId t.store) := by
  have hruns : ((Sys.exec store Job.program (fun t e t' => decide (ReopensCleanly t e t'))
      reopenedAfterDispute (.init oneFamily)).any fun t =>
        reopenedBy "e10" (fun _ _ _ => true) t.store) = true := by
    decide +kernel
  obtain ⟨t, ht, hcond⟩ := (Option.any_eq_true _ _).mp hruns
  obtain ⟨p, e, hp, htype, hcredited, hone, he, hopen, -⟩ := reopenedBy_iff hcond
  have hreach : Sys.Reach store Job.program ReopensCleanly Opening t :=
    Sys.reach_of_exec (fun _ _ _ h => of_decide_eq_true h) (.init oneFamily_opening) ht
  exact ⟨t, p, e, ht, hp, he, reopened_balance hreach hp htype hcredited hone he hopen⟩

/-- The same with an installment `x4` that is confirmed before the dispute. -/
def reopenedOverInstallment : List (Event Job Answer) :=
  cardChargeOpen ++
  uninterrupted 1 (.reconcilePaystackPayment "lopay_a7" none none) "b" 12 ++
  uninterrupted 2 (.submitInstallmentPayment "a9" 25000 parentUser none none) "x" 10 ++
  uninterrupted 3 (.confirmPayment "x4" "school" owner) "c" 11 ++
  uninterrupted 4 (.reversePaystackPaymentByDispute "lopay_a7" "charge.dispute.create") "d" 11 ++
  uninterrupted 5 (.initiateFirstPayment environment (enrollment none) "parent") "e" 16 ++
  uninterrupted 6 (.reconcilePaystackPayment "lopay_e7" none none) "f" 12

/-- The family then owes what `x4` has paid: without the condition the law fails. -/
theorem reopened_balance_needs_condition :
    ¬ ∀ t : Service, Sys.Reach store Job.program (fun _ _ _ => True) Opening t →
      ∀ k p e, t.store.payments.lookup k = some p → p.paymentType = .FIRST_PAYMENT →
        p.isCredited = true →
        (∀ k' q, t.store.payments.lookup k' = some q → q.paymentType = .FIRST_PAYMENT →
          q.enrollmentId = p.enrollmentId → q.isCredited = true → k' = k) →
        t.store.enrollments.lookup p.enrollmentId = some e → e.paymentStatus ≠ .FAILED →
        e.remainingBalance = max 0 (e.totalSchoolFee - p.schoolAmount -
          Ledger.installmentsConfirmed p.enrollmentId t.store) := by
  intro hlaw
  have hruns : ((Sys.exec store Job.program (fun _ _ _ => true) reopenedOverInstallment
      (.init oneFamily)).any fun t => reopenedBy "e10" (fun s e p =>
        e.remainingBalance ≠ max 0 (e.totalSchoolFee - p.schoolAmount -
          Ledger.installmentsConfirmed p.enrollmentId s)) t.store) = true := by
    decide +kernel
  obtain ⟨t, ht, hcond⟩ := (Option.any_eq_true _ _).mp hruns
  obtain ⟨p, e, hp, htype, hcredited, hone, he, hopen, hwrong⟩ := reopenedBy_iff hcond
  have hreach := Sys.reach_of_exec (fun _ _ _ _ => trivial) (.init oneFamily_opening) ht
  exact of_decide_eq_true hwrong (hlaw t hreach "e10" p e hp htype hcredited hone he hopen)

end Lopay
