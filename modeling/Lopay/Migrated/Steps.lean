import Lopay.Migrated.Figures

/-!
# Claims, releases and corrections

The three steps that bring a migrated plan into being, remove it or change its figures, each
as what it does to the rows. All of them leave the copies of the figures in step.
-/

namespace Lopay

open Transactions

variable {s t : Db} {id k m : Id}

/-! ### A claim -/

/-- The invite `id` is claimed, and the plan `k` opened for it with the payment `m`. -/
structure ClaimStep (s t : Db) (id k m : Id) : Prop where
  claimed : ∃ i i' e p, s.invites.lookup id = some i ∧ i.status = .PENDING ∧
    i'.status = .CLAIMED ∧ i'.totalSchoolFee = i.totalSchoolFee ∧
    e.enrollmentInviteId = some id ∧ p.paymentType = .MIGRATED_PAYMENT ∧ p.enrollmentId = k ∧
    i'.Matches e p ∧
    (∀ j, t.invites.lookup j = if j = id then some i' else s.invites.lookup j) ∧
    (∀ j, t.enrollments.lookup j = if j = k then some e else s.enrollments.lookup j) ∧
    ∀ j, t.payments.lookup j = if j = m then some p else s.payments.lookup j
  newPlan : s.enrollments.lookup k = none
  newPayment : s.payments.lookup m = none

theorem ClaimStep.together (h : ClaimStep s t id k m) (hs : InStep s) : Together s t := by
  obtain ⟨⟨i, i', e, p, hi, hpending, hclaimed, hfee, horigin, htype, hplaced, hmatches, hinvites,
    hplans, hpayments⟩, hnewPlan, hnewPayment⟩ := h
  have hfree : ∀ k' e', ¬ s.PlanFrom id k' e' := by
    intro k' e' hplan
    obtain ⟨j, hj, hjclaimed⟩ := hs.claimed id k' e' hplan
    rw [hi] at hj
    grind
  have hunpaid : ∀ m' p', ¬ s.MigratedOn k m' p' := by
    intro m' p' hpaid
    obtain ⟨id', e', he', -⟩ := hs.placed k m' p' hpaid
    rw [hnewPlan] at he'
    cases he'
  have hplanFrom : ∀ id' k' e', t.PlanFrom id' k' e' ↔
      (id' = id ∧ k' = k ∧ e' = e) ∨ s.PlanFrom id' k' e' := by
    intro id' k' e'
    unfold Db.PlanFrom at hfree ⊢
    rw [hplans]
    grind
  have hmigratedOn : ∀ k' m' p', t.MigratedOn k' m' p' ↔
      (k' = k ∧ m' = m ∧ p' = p) ∨ s.MigratedOn k' m' p' := by
    intro k' m' p'
    unfold Db.MigratedOn at hunpaid ⊢
    rw [hpayments]
    grind
  constructor
  · constructor
    · intro id' j hj
      have hterms := hs.terms id' j
      have hnonneg := hmatches.nonneg
      have hle := hmatches.le
      have hsame := hmatches.totalSchoolFee
      grind
    · intro id' j hj hjclaimed
      by_cases hid : id' = id
      · exact ⟨k, e, (hplanFrom _ _ _).mpr (Or.inl ⟨hid, rfl, rfl⟩)⟩
      · rw [hinvites, if_neg hid] at hj
        obtain ⟨k', e', hplan⟩ := hs.plan id' j hj hjclaimed
        exact ⟨k', e', (hplanFrom _ _ _).mpr (Or.inr hplan)⟩
    · have hone := hs.one_plan
      grind
    · intro id' k' e' hplan
      rcases (hplanFrom _ _ _).mp hplan with ⟨rfl, -, -⟩ | hplan
      · exact ⟨i', by rw [hinvites, if_pos rfl], hclaimed⟩
      · obtain ⟨j, hj, hjclaimed⟩ := hs.claimed id' k' e' hplan
        refine ⟨j, ?_, hjclaimed⟩
        rw [hinvites, if_neg, hj]
        rintro rfl
        exact hfree k' e' hplan
    · intro id' k' e' hplan
      rcases (hplanFrom _ _ _).mp hplan with ⟨-, rfl, -⟩ | hplan
      · exact ⟨m, p, (hmigratedOn _ _ _).mpr (Or.inl ⟨rfl, rfl, rfl⟩)⟩
      · obtain ⟨m', p', hpaid⟩ := hs.payment id' k' e' hplan
        exact ⟨m', p', (hmigratedOn _ _ _).mpr (Or.inr hpaid)⟩
    · have hone := hs.one_payment
      grind
    · intro k' m' p' hpaid
      rcases (hmigratedOn _ _ _).mp hpaid with ⟨rfl, -, -⟩ | hpaid
      · exact ⟨id, e, (hplanFrom _ _ _).mpr (Or.inl ⟨rfl, rfl, rfl⟩)⟩
      · obtain ⟨id', e', hplan⟩ := hs.placed k' m' p' hpaid
        exact ⟨id', e', (hplanFrom _ _ _).mpr (Or.inr hplan)⟩
    · intro id' j k' e' m' p' hj hplan hpaid
      have hagrees := hs.agrees id' j k' e' m' p'
      have hplaced := hs.placed k' m' p'
      grind [Db.PlanFrom, Db.MigratedOn]
  · constructor
    · intro k' e' e'' he' he''
      grind
    · exact fun k' e' m' p' hpaid _ => ⟨p', (hmigratedOn _ _ _).mpr (Or.inr hpaid)⟩
    · exact fun id' k' e' j hplan _ _ => ⟨e', (hplanFrom _ _ _).mpr (Or.inr hplan)⟩
    · grind

/-! ### A release -/

/-- The claim of the invite `id` is undone, and its plan `k` removed with its payments. -/
structure ReleaseStep (s t : Db) (id k : Id) : Prop where
  released : ∃ i i' e, s.invites.lookup id = some i ∧ s.PlanFrom id k e ∧ i'.status = .REVOKED ∧
    i'.totalSchoolFee = i.totalSchoolFee ∧ i'.amountAlreadyPaid = i.amountAlreadyPaid ∧
    (∀ j, t.invites.lookup j = if j = id then some i' else s.invites.lookup j) ∧
    ∀ j, t.enrollments.lookup j = if j = k then none else s.enrollments.lookup j
  removed : ∀ m p, t.payments.lookup m = some p → s.payments.lookup m = some p ∧
    (p.paymentType = .MIGRATED_PAYMENT → p.enrollmentId ≠ k)
  kept : ∀ m p, s.payments.lookup m = some p → p.enrollmentId ≠ k → t.payments.lookup m = some p

theorem ReleaseStep.together (h : ReleaseStep s t id k) (hs : InStep s) : Together s t := by
  obtain ⟨⟨i, i', e, hi, he, hrevoked, hfee, hamount, hinvites, hplans⟩, hremoved, hkept⟩ := h
  have honly : ∀ k' e', s.PlanFrom id k' e' → k' = k :=
    fun k' e' he' => hs.one_plan id k' k e' e he' he
  have hplanFrom : ∀ id' k' e', t.PlanFrom id' k' e' ↔ k' ≠ k ∧ s.PlanFrom id' k' e' := by
    intro id' k' e'
    unfold Db.PlanFrom
    rw [hplans]
    grind
  have hmigratedOn : ∀ k' m' p', t.MigratedOn k' m' p' ↔ k' ≠ k ∧ s.MigratedOn k' m' p' := by
    intro k' m' p'
    have hafter := hremoved m' p'
    have hbefore := hkept m' p'
    grind [Db.MigratedOn]
  -- Only the invite itself has changed, and no plan is left that came from it.
  have hinvite : ∀ id' k' e', t.PlanFrom id' k' e' → id' ≠ id := by
    rintro _ k' e' hplan rfl
    obtain ⟨hne, hplan⟩ := (hplanFrom _ _ _).mp hplan
    exact hne (honly k' e' hplan)
  constructor
  · constructor
    · intro id' j hj
      have hterms := hs.terms id' j
      have hmine := hs.terms id i hi
      grind
    · intro id' j hj hjclaimed
      have hid : id' ≠ id := by grind
      rw [hinvites, if_neg hid] at hj
      obtain ⟨k', e', hplan⟩ := hs.plan id' j hj hjclaimed
      refine ⟨k', e', (hplanFrom _ _ _).mpr ⟨?_, hplan⟩⟩
      rintro rfl
      exact hid (Option.some.inj (hplan.2.symm.trans (by grind [Db.PlanFrom])))
    · intro id' k' k'' e' e'' hplan hplan'
      exact hs.one_plan id' k' k'' e' e'' ((hplanFrom _ _ _).mp hplan).2
        ((hplanFrom _ _ _).mp hplan').2
    · intro id' k' e' hplan
      obtain ⟨j, hj, hjclaimed⟩ := hs.claimed id' k' e' ((hplanFrom _ _ _).mp hplan).2
      refine ⟨j, ?_, hjclaimed⟩
      rw [hinvites, if_neg (hinvite id' k' e' hplan), hj]
    · intro id' k' e' hplan
      obtain ⟨hne, hplan⟩ := (hplanFrom _ _ _).mp hplan
      obtain ⟨m, p, hpaid⟩ := hs.payment id' k' e' hplan
      exact ⟨m, p, (hmigratedOn _ _ _).mpr ⟨hne, hpaid⟩⟩
    · intro k' m m' p p' hpaid hpaid'
      exact hs.one_payment k' m m' p p' ((hmigratedOn _ _ _).mp hpaid).2
        ((hmigratedOn _ _ _).mp hpaid').2
    · intro k' m p hpaid
      obtain ⟨hne, hpaid⟩ := (hmigratedOn _ _ _).mp hpaid
      obtain ⟨id', e', hplan⟩ := hs.placed k' m p hpaid
      exact ⟨id', e', (hplanFrom _ _ _).mpr ⟨hne, hplan⟩⟩
    · intro id' j k' e' m p hj hplan hpaid
      rw [hinvites, if_neg (hinvite id' k' e' hplan)] at hj
      exact hs.agrees id' j k' e' m p hj ((hplanFrom _ _ _).mp hplan).2
        ((hmigratedOn _ _ _).mp hpaid).2
  · constructor
    · grind
    · intro k' e' m p hpaid he'
      refine ⟨p, (hmigratedOn _ _ _).mpr ⟨?_, hpaid⟩⟩
      grind
    · intro id' k' e' j hplan hj hjclaimed
      refine ⟨e', (hplanFrom _ _ _).mpr ⟨?_, hplan⟩⟩
      grind [Db.PlanFrom]
    · grind

/-! ### A correction -/

/-- The migrated payment `m` of the plan `k` is restated, in the plan and in the invite `id` too. -/
structure CorrectionStep (s t : Db) (id k m : Id) : Prop where
  corrected : ∃ i i' e e' p p', s.invites.lookup id = some i ∧ s.PlanFrom id k e ∧
    s.MigratedOn k m p ∧ i'.status = i.status ∧ i'.totalSchoolFee = i.totalSchoolFee ∧
    e'.enrollmentInviteId = e.enrollmentInviteId ∧ e'.totalSchoolFee = e.totalSchoolFee ∧
    p'.paymentType = p.paymentType ∧ p'.enrollmentId = p.enrollmentId ∧ i'.Matches e' p' ∧
    (∀ j, t.invites.lookup j = if j = id then some i' else s.invites.lookup j) ∧
    (∀ j, t.enrollments.lookup j = if j = k then some e' else s.enrollments.lookup j) ∧
    ∀ j, t.payments.lookup j = if j = m then some p' else s.payments.lookup j

theorem CorrectionStep.together (h : CorrectionStep s t id k m) (hs : InStep s) :
    Together s t := by
  obtain ⟨i, i', e, e', p, p', hi, hplan, hpaid, hstatus, hfee, horigin, hefee, htype, hplaced,
    hmatches, hinvites, hplans, hpayments⟩ := h.corrected
  have hclaimed : i.status = .CLAIMED := by
    obtain ⟨j, hj, hjclaimed⟩ := hs.claimed id k e hplan
    grind
  have hplanFrom : ∀ id' k' e₁, t.PlanFrom id' k' e₁ ↔
      (id' = id ∧ k' = k ∧ e₁ = e') ∨ k' ≠ k ∧ s.PlanFrom id' k' e₁ := by
    intro id' k' e₁
    unfold Db.PlanFrom at hplan ⊢
    rw [hplans]
    grind
  have hmigratedOn : ∀ k' m' p₁, t.MigratedOn k' m' p₁ ↔
      (k' = k ∧ m' = m ∧ p₁ = p') ∨ m' ≠ m ∧ s.MigratedOn k' m' p₁ := by
    intro k' m' p₁
    unfold Db.MigratedOn at hpaid ⊢
    rw [hpayments]
    grind
  have hplanBefore : ∀ id' k' e₁, t.PlanFrom id' k' e₁ → ∃ e₀, s.PlanFrom id' k' e₀ := by
    grind
  have hplanAfter : ∀ id' k' e₀, s.PlanFrom id' k' e₀ → ∃ e₁, t.PlanFrom id' k' e₁ := by
    intro id' k' e₀ h
    by_cases hk : k' = k
    · refine ⟨e', (hplanFrom _ _ _).mpr (Or.inl ⟨?_, hk, rfl⟩)⟩
      grind [Db.PlanFrom]
    · exact ⟨e₀, (hplanFrom _ _ _).mpr (Or.inr ⟨hk, h⟩)⟩
  have hpaidBefore : ∀ k' m' p₁, t.MigratedOn k' m' p₁ → ∃ p₀, s.MigratedOn k' m' p₀ := by
    grind
  have hpaidAfter : ∀ k' m' p₀, s.MigratedOn k' m' p₀ → ∃ p₁, t.MigratedOn k' m' p₁ := by
    intro k' m' p₀ h
    by_cases hm : m' = m
    · refine ⟨p', (hmigratedOn _ _ _).mpr (Or.inl ⟨?_, hm, rfl⟩)⟩
      grind [Db.MigratedOn]
    · exact ⟨p₀, (hmigratedOn _ _ _).mpr (Or.inr ⟨hm, h⟩)⟩
  constructor
  · constructor
    · intro id' j hj
      have hterms := hs.terms id' j
      have hnonneg := hmatches.nonneg
      have hle := hmatches.le
      have hsame := hmatches.totalSchoolFee
      grind
    · intro id' j hj hjclaimed
      have hbefore : ∃ j₀, s.invites.lookup id' = some j₀ ∧ j₀.status = .CLAIMED := by grind
      obtain ⟨j₀, hj₀, hclaimed₀⟩ := hbefore
      obtain ⟨k', e₀, he₀⟩ := hs.plan id' j₀ hj₀ hclaimed₀
      exact ⟨k', hplanAfter id' k' e₀ he₀⟩
    · intro id' k' k'' e₁ e₂ h₁ h₂
      obtain ⟨e₁', h₁'⟩ := hplanBefore _ _ _ h₁
      obtain ⟨e₂', h₂'⟩ := hplanBefore _ _ _ h₂
      exact hs.one_plan id' k' k'' e₁' e₂' h₁' h₂'
    · intro id' k' e₁ h₁
      obtain ⟨e₀, h₀⟩ := hplanBefore _ _ _ h₁
      obtain ⟨j, hj, hjclaimed⟩ := hs.claimed id' k' e₀ h₀
      grind
    · intro id' k' e₁ h₁
      obtain ⟨e₀, h₀⟩ := hplanBefore _ _ _ h₁
      obtain ⟨m', p₀, hp₀⟩ := hs.payment id' k' e₀ h₀
      exact ⟨m', hpaidAfter _ _ _ hp₀⟩
    · intro k' m₁ m₂ p₁ p₂ h₁ h₂
      obtain ⟨p₁', h₁'⟩ := hpaidBefore _ _ _ h₁
      obtain ⟨p₂', h₂'⟩ := hpaidBefore _ _ _ h₂
      exact hs.one_payment k' m₁ m₂ p₁' p₂' h₁' h₂'
    · intro k' m' p₁ h₁
      obtain ⟨p₀, h₀⟩ := hpaidBefore _ _ _ h₁
      obtain ⟨id', e₀, he₀⟩ := hs.placed k' m' p₀ h₀
      exact ⟨id', hplanAfter _ _ _ he₀⟩
    · intro id' j k' e₁ m' p₁ hj he₁ hp₁
      have hagrees := hs.agrees id' j k' e₁ m' p₁
      have honly := hs.one_plan id k k' e
      have hone := hs.one_payment k m m' p
      rcases (hplanFrom _ _ _).mp he₁ with ⟨rfl, rfl, rfl⟩ | ⟨hk, he₀⟩
      · rcases (hmigratedOn _ _ _).mp hp₁ with ⟨-, rfl, rfl⟩ | ⟨hm, hp₀⟩
        · grind
        · exact absurd (hone p₁ hpaid hp₀).symm hm
      · rcases (hmigratedOn _ _ _).mp hp₁ with ⟨rfl, -, -⟩ | ⟨hm, hp₀⟩
        · exact absurd rfl hk
        · have hid : id' ≠ id := by
            rintro rfl
            exact hk (honly e₁ hplan he₀).symm
          rw [hinvites, if_neg hid] at hj
          exact hagrees hj he₀ hp₀
  · constructor
    · grind [Db.PlanFrom]
    · exact fun k' e₁ m' p₀ h₀ _ => hpaidAfter k' m' p₀ h₀
    · exact fun id' k' e₀ j h₀ _ _ => hplanAfter id' k' e₀ h₀
    · grind

end Lopay
