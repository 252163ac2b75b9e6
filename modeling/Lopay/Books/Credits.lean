import Lopay.Books.Preservation

/-!
# What the confirmed payments of a plan add up to

How every posting moves `credited`, the sum of what a plan's confirmed payments are
worth, and how that goes with the balance it puts.
-/

namespace Lopay

open Transactions

variable {E : Db → Db → Prop} {s t : Db} {kind : Kind} {entry : Entry} {locks : List Lock}

/-- What a payment counts for in the credit of one plan. -/
def creditOn (enrollmentId : Id) (p : Payment) : Int :=
  if p.enrollmentId = enrollmentId ∧ p.isCredited then p.worth else 0

theorem Entry.Made.credited (hm : entry.Made s t locks) (eid : Id) :
    credited eid t = credited eid s + entry.gain (fun _ => creditOn eid) s :=
  hm.total fun _ => creditOn eid

/-- A payment that is not confirmed counts for nothing. -/
theorem creditOn_unconfirmed {eid : Id} {p : Payment} (h : p.isConfirmed = false) :
    creditOn eid p = 0 := by
  simp [creditOn, Payment.isCredited, h]

/-- A confirmed payment counts for what it is worth. -/
theorem creditOn_confirmed {p : Payment} (hstatus : p.status = .SUCCESS)
    (h : p.isConfirmed = true) : creditOn p.enrollmentId p = p.worth := by
  simp [creditOn, Payment.isCredited, h, hstatus]

theorem creditOn_elsewhere {eid : Id} {p : Payment} (h : p.enrollmentId ≠ eid) :
    creditOn eid p = 0 := if_neg fun hcond => h hcond.1

theorem Payment.Sound.worth_nonneg {p : Payment} (h : p.Sound s) : 0 ≤ p.worth := by
  unfold Payment.worth
  cases htype : p.paymentType with
  | FIRST_PAYMENT => exact h.first htype
  | INSTALLMENT => exact (h.installment htype).1.le
  | MIGRATED_PAYMENT => exact (h.migrated htype).2.1

theorem Payment.Sound.creditOn_nonneg {p : Payment} (h : p.Sound s) (eid : Id) :
    0 ≤ creditOn eid p := by
  unfold creditOn
  split
  · exact h.worth_nonneg
  · exact le_refl 0

namespace Coherent

theorem credited_nonneg (hs : Coherent s) (eid : Id) : 0 ≤ credited eid s :=
  Table.total_nonneg fun k p hp => (hs.payments k p hp).creditOn_nonneg eid

/-- A confirmed payment is part of the credit of its plan. -/
theorem worth_le_credited (hs : Coherent s) {k : Id} {p : Payment}
    (hp : s.payments.lookup k = some p) (hstatus : p.status = .SUCCESS)
    (hconfirmed : p.isConfirmed = true) : p.worth ≤ credited p.enrollmentId s := by
  rw [← creditOn_confirmed hstatus hconfirmed]
  exact Table.le_total (f := fun _ => creditOn p.enrollmentId)
    (fun k p' hp' => (hs.payments k p' hp').creditOn_nonneg p.enrollmentId) hp

/-- Nothing is credited to a plan that does not exist. -/
theorem credited_none (hs : Coherent s) {eid : Id} (h : s.enrollments.lookup eid = none) :
    credited eid s = 0 := by
  have hzero : credited eid s = Table.total (fun _ _ => 0) s.payments := by
    apply Table.total_congr
    intro k p hp
    apply if_neg
    rintro ⟨rfl, -⟩
    obtain ⟨e, he, -⟩ := hs.planOf hp
    rw [h] at he
    cases he
  rw [hzero]
  unfold Table.total
  simp

/-- The credit of a migrated plan is its opening payment and its installments. -/
theorem credited_migrated (hs : Coherent s) {k : Id} {p : Payment}
    (hp : s.payments.lookup k = some p) (htype : p.paymentType = .MIGRATED_PAYMENT) :
    credited p.enrollmentId s =
      p.amountPaid + Ledger.installmentsConfirmed p.enrollmentId s := by
  have hsplit : credited p.enrollmentId s = Table.total (fun k' r =>
      (if k' = k then p.amountPaid else 0) +
        amountOn p.enrollmentId Payment.isPaidInstallment r) s.payments := by
    apply Table.total_congr
    intro k' r hr
    have hsound := hs.payments k' r hr
    by_cases hplan : r.enrollmentId = p.enrollmentId
    · cases hrtype : r.paymentType with
      | FIRST_PAYMENT =>
        -- A migrated plan has no first payments.
        obtain ⟨e, he, -, hmigrated, -⟩ := hs.planOf hp
        rw [← hplan] at he
        exact absurd (hs.not_migrated hr hrtype he) (hmigrated htype)
      | INSTALLMENT =>
        have hne : k' ≠ k := by
          rintro rfl
          obtain rfl := Option.some.inj (hp.symm.trans hr)
          rw [htype] at hrtype
          cases hrtype
        simp [amountOn, Payment.isCredited, Payment.isPaidInstallment, Payment.worth,
          hplan, hrtype, hne, and_comm]
      | MIGRATED_PAYMENT =>
        obtain rfl := hs.one_migrated k' k r p hr hp hrtype htype hplan
        obtain rfl := Option.some.inj (hp.symm.trans hr)
        have hstatus := (hsound.migrated htype).1
        simp [amountOn, Payment.isCredited, Payment.isPaidInstallment, Payment.worth,
          htype, hstatus, hsound.confirmed.mpr hstatus]
    · have hne : k' ≠ k := by
        rintro rfl
        obtain rfl := Option.some.inj (hp.symm.trans hr)
        exact hplan rfl
      simp [amountOn, hplan, hne]
  rw [hsplit, Table.total_add, Table.total_single hp]
  rfl

/-- The credit of a plan with one confirmed first payment is that payment and its
    installments. -/
theorem credited_first (hs : Coherent s) {k : Id} {p : Payment}
    (hp : s.payments.lookup k = some p) (htype : p.paymentType = .FIRST_PAYMENT)
    (hcredited : p.isCredited = true)
    (hone : ∀ k' q, s.payments.lookup k' = some q → q.paymentType = .FIRST_PAYMENT →
      q.enrollmentId = p.enrollmentId → q.isCredited = true → k' = k) :
    credited p.enrollmentId s =
      p.schoolAmount + Ledger.installmentsConfirmed p.enrollmentId s := by
  have hsplit : credited p.enrollmentId s = Table.total (fun k' r =>
      (if k' = k then p.schoolAmount else 0) +
        amountOn p.enrollmentId Payment.isPaidInstallment r) s.payments := by
    apply Table.total_congr
    intro k' r hr
    by_cases hk : k' = k
    · subst hk
      obtain rfl := Option.some.inj (hp.symm.trans hr)
      simp [amountOn, Payment.isPaidInstallment, Payment.worth, htype, hcredited]
    · by_cases hplan : r.enrollmentId = p.enrollmentId
      · cases hrtype : r.paymentType with
        | FIRST_PAYMENT =>
          have huncredited : ¬ r.isCredited = true := fun h => hk (hone k' r hr hrtype hplan h)
          simp [amountOn, Payment.isPaidInstallment, hrtype, hk, huncredited]
        | INSTALLMENT =>
          simp [amountOn, Payment.isCredited, Payment.isPaidInstallment, Payment.worth,
            hplan, hrtype, hk, and_comm]
        | MIGRATED_PAYMENT =>
          -- A plan with a first payment is not migrated.
          obtain ⟨e, he, -, -, hfirst⟩ := hs.planOf hp
          obtain ⟨e', he', -, hmigrated, -⟩ := hs.planOf hr
          rw [hplan, he] at he'
          obtain rfl := Option.some.inj he'
          exact absurd (hfirst htype) (hmigrated hrtype)
      · simp [amountOn, hplan, hk]
  rw [hsplit, Table.total_add, Table.total_single hp]
  rfl

end Coherent

/-! ### What a posting does to the credit -/

/-- A posting moves the credit of a plan only while it has that plan's row. -/
theorem Posting.credited_elsewhere (h : Posting E s kind entry) (hm : entry.Made s t locks)
    {eid : Id} (hplan : ∀ e, entry.plan ≠ some (eid, e)) : credited eid t = credited eid s := by
  rw [hm.credited]
  rcases h.gain_elsewhere hplan (f := creditOn eid) (fun _ hp => creditOn_elsewhere hp)
      (fun _ => rfl) (fun _ _ => rfl) with hzero | ⟨k, p, hp, -, hunconfirmed, heq⟩
  · rw [hzero, Int.add_zero]
  · have hafter : creditOn eid { p with status := .FAILED } = 0 :=
      creditOn_unconfirmed hunconfirmed
    rw [heq, hafter, creditOn_unconfirmed hunconfirmed, Int.sub_self, Int.add_zero]

end Lopay
