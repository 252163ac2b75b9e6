import Lopay.Migrated.Bookings

/-!
# Migrated figures stay in step

Claims, corrections, installments, defaults and releases, in any interleaving: what a claimed
invite says has been paid is what its plan and the opening payment of the plan say.
-/

namespace Lopay

open Transactions

/-- What is done to a migrated plan. -/
def Work.migrating : Work → Bool
  | .payments job => match job with
    | .submitInstallmentPayment .. | .confirmPayment .. | .reversePayment .. => true
    | .amendMigratedPayment .. | .markEnrollmentAsDefaulted .. => true
    | .markEnrollmentDefaultedBySweep .. | .runDetection => true
    | _ => false
  | .invites job => match job with
    | .claim .. | .amend .. | .release .. => true
    | _ => false

/-- Only such work is started, and a new plan gets a key that nobody has seen. -/
def migratingWork (s : Office) : Event Work Answer → Office → Prop
  | .spawn w, _ => w.migrating = true
  | .move _ _, s' => ∀ k, s.store.enrollments.lookup k = none →
      s'.store.enrollments.lookup k ≠ none → ∀ p ∈ s.procs, ∀ c ∈ p.ctx.seen,
        c.enrollments.lookup k = none

namespace Work

variable {x : Context} {c : Db}

theorem action_booking (env : InviteEnvironment) {w : Work} (hw : w.migrating = true)
    (hx : Booking c none (fun _ => True) x) :
    (w.action env).wp store figuresContract (fun _ => Informed) (fun _ => Informed) x := by
  have hquiet {α : Type} (m : Action α) [h : Routine.Keeps RowsKeepFigures m] (f : α → Reply) :
      (f <$> m).wp store figuresContract (fun _ => Informed) (fun _ => Informed) x :=
    wp_map (fun _ _ h => h) (Routine.Keeps.wp_figures h hx.knows hx.begun)
  cases w with
  | payments job =>
    cases job with
    | submitInstallmentPayment => exact hquiet _ _
    | confirmPayment => exact hquiet _ _
    | markEnrollmentAsDefaulted => exact hquiet _ _
    | markEnrollmentDefaultedBySweep => exact hquiet _ _
    | runDetection => exact hquiet _ _
    | reversePayment => exact wp_map (fun _ _ h => h) (Ledger.reversePayment_booking hx)
    | amendMigratedPayment => exact wp_map (fun _ _ h => h) (Ledger.amendMigratedPayment_booking hx)
    | _ => cases hw
  | invites job =>
    cases job with
    | claim => exact wp_map (fun _ _ h => h) (Invites.claim_booking hx)
    | amend => exact wp_map (fun _ _ h => h) (Invites.amend_booking hx)
    | release => exact wp_map (fun _ _ h => h) (Invites.release_booking hx)
    | _ => cases hw

theorem migrating_discipline (env : InviteEnvironment) :
    Discipline store (program env) migratingWork (fun _ => figuresContract) (fun _ _ _ => True)
      InStep := by
  constructor
  · intro s s' w hw hs
    have hx : Booking s.store none (fun _ => True) (.init s.store) :=
      ⟨rfl, .init hs, List.mem_cons_self, trivial, fun _ _ _ h => h⟩
    exact Prog.wp_mono (fun _ _ _ => trivial) (action_booking env hw hx)
  · exact fun _ _ _ _ _ _ _ _ _ => trivial
  · exact fun _ _ _ _ _ _ _ _ => trivial
  · intro s s' pid ch p ws hguard hp _ hnow hstore k hk hk'
    rw [hnow] at hk hk'
    rw [← hstore] at hk'
    exact hguard k hk hk' p (List.mem_of_getElem? hp)
  · intro s s' pid ch p ws _ _ _ hnow hstore hguarantee _
    rw [hstore, ← hnow]
    exact hguarantee.inStep
  · intro s s' pid ch p i q ws hguard _ hq _ _ _ hnow hqnow hstore hguarantee _
    constructor
    · rw [keepingTogether, hqnow, ← hnow]
      exact hguarantee
    · intro k hk hk'
      rw [hqnow] at hk hk'
      rw [← hstore] at hk'
      exact hguard k hk hk' q (List.mem_of_getElem? hq)

end Work

/-- A database in which no invite has been claimed yet. -/
structure Unclaimed (db : Db) : Prop where
  terms : ∀ id i, db.invites.lookup id = some i →
    0 ≤ i.amountAlreadyPaid ∧ i.amountAlreadyPaid ≤ i.totalSchoolFee
  invites : ∀ id i, db.invites.lookup id = some i → i.status ≠ .CLAIMED
  plans : ∀ k e, db.enrollments.lookup k = some e → e.enrollmentInviteId = none
  payments : ∀ m p, db.payments.lookup m = some p → p.paymentType ≠ .MIGRATED_PAYMENT

theorem Unclaimed.inStep {db : Db} (h : Unclaimed db) : InStep db := by
  have hplans : ∀ id k e, ¬ db.PlanFrom id k e := by
    rintro id k e ⟨he, hid⟩
    rw [h.plans k e he] at hid
    cases hid
  have hpayments : ∀ k m p, ¬ db.MigratedOn k m p :=
    fun k m p hp => h.payments m p hp.1 hp.2.1
  constructor
  · exact h.terms
  · exact fun id i hi hclaimed => absurd hclaimed (h.invites id i hi)
  · exact fun id k k' e e' he _ => absurd he (hplans id k e)
  · exact fun id k e he => absurd he (hplans id k e)
  · exact fun id k e he => absurd he (hplans id k e)
  · exact fun k m m' p p' hp _ => absurd hp (hpayments k m p)
  · exact fun k m p hp => absurd hp (hpayments k m p)
  · exact fun id i k e m p _ he _ => absurd he (hplans id k e)

/-- In every interleaving a claimed invite has one plan and the plan one migrated payment; the
    three say the same of what had been paid, the payment is confirmed, the amount is within the
    fee on which plan and invite agree, and the plan is open, paid off or in arrears. -/
theorem migrated_figures_in_step (env : InviteEnvironment) {s : Office}
    (hs : Sys.Reach store (Work.program env) migratingWork InStep s) {id : Id}
    {i : EnrollmentInvite} (hi : s.store.invites.lookup id = some i) (hclaimed : i.status = .CLAIMED) :
    ∃ k e m p,
      (∀ k' e', s.store.enrollments.lookup k' = some e' ∧ e'.enrollmentInviteId = some id ↔
        k' = k ∧ e' = e) ∧
      (∀ m' p', s.store.payments.lookup m' = some p' ∧ p'.paymentType = .MIGRATED_PAYMENT ∧
        p'.enrollmentId = k ↔ m' = m ∧ p' = p) ∧
      e.firstPaymentPaid = i.amountAlreadyPaid ∧ p.amountPaid = i.amountAlreadyPaid ∧
      p.schoolAmount = i.amountAlreadyPaid ∧ p.status = .SUCCESS ∧ p.isConfirmed = true ∧
      0 ≤ i.amountAlreadyPaid ∧ i.amountAlreadyPaid ≤ e.totalSchoolFee ∧
      e.totalSchoolFee = i.totalSchoolFee ∧
      (e.paymentStatus = .ACTIVE ∨ e.paymentStatus = .COMPLETED ∨ e.paymentStatus = .DEFAULTED) := by
  have hstep : InStep s.store := (hs.good (Work.migrating_discipline env) fun _ h => h).inv
  obtain ⟨k, e, he⟩ := hstep.plan id i hi hclaimed
  obtain ⟨m, p, hp⟩ := hstep.payment id k e he
  obtain ⟨hfirst, hamount, hschool, hfee, hstatus, hconfirmed, hnonneg, hle, hopened⟩ :=
    hstep.agrees id i k e m p hi he hp
  refine ⟨k, e, m, p, fun k' e' => ⟨fun h => ?_, ?_⟩, fun m' p' => ⟨fun h => ?_, ?_⟩,
    hfirst, hamount, hschool, hstatus, hconfirmed, hnonneg, hle, hfee, hopened⟩
  · obtain rfl := hstep.one_plan id k k' e e' he h
    exact ⟨rfl, Option.some.inj (h.1.symm.trans he.1)⟩
  · rintro ⟨rfl, rfl⟩
    exact he
  · obtain rfl := hstep.one_payment k m m' p p' hp h
    exact ⟨rfl, Option.some.inj (h.1.symm.trans hp.1)⟩
  · rintro ⟨rfl, rfl⟩
    exact hp

/-! ### A run -/

/-- The guard of `migratingWork`, for a run of finitely many steps. -/
def migratingCheck (s : Office) : Event Work Answer → Office → Bool
  | .spawn w, _ => w.migrating
  | .move _ _, s' => s'.store.enrollments.rows.all fun r =>
      (s.store.enrollments.lookup r.1).isSome || s.procs.all fun p =>
        p.ctx.seen.all fun c => (c.enrollments.lookup r.1).isNone

theorem migratingCheck_sound (s : Office) (e : Event Work Answer) (s' : Office)
    (h : migratingCheck s e s' = true) : migratingWork s e s' := by
  cases e with
  | spawn w => exact h
  | move pid ch =>
    intro k hk hk' p hp c hc
    obtain ⟨e, he⟩ := Option.ne_none_iff_exists'.mp hk'
    have hrow := List.all_eq_true.mp h (k, e) (Table.mem_rows.mpr he)
    simp only [hk, Option.isSome_none, Bool.false_or] at hrow
    exact Option.isNone_iff_eq_none.mp
      (List.all_eq_true.mp (List.all_eq_true.mp hrow p hp) c hc)

/-- The parent claims the invite, and the school then corrects what it had recorded. -/
def claimedAndCorrected : List (Event Work Answer) :=
  working 0 firstClaim "a" 29 ++
    working 1 (.invites (.amend "invite" 50000 none schoolOwner)) "b" 15

theorem invitedInTime_unclaimed : Unclaimed invitedInTime := by
  have hrow : ∀ id i, invitedInTime.invites.lookup id = some i →
      i = { invitation with expiresAt := 50 } := by
    intro id i hi
    exact (Prod.mk.inj (List.mem_singleton.mp (Table.mem_rows.mpr hi))).2
  constructor
  · intro id i hi
    rw [hrow id i hi]
    decide
  · intro id i hi
    rw [hrow id i hi]
    decide
  · exact fun k e he => nomatch he
  · exact fun m p hp => nomatch hp

/-- Fifty thousand naira have been paid, whoever is asked. -/
theorem migrated_figures_in_step_corrected : ∃ s : Office, ∃ i,
    Sys.exec store (Work.program inviteEnvironment) migratingCheck claimedAndCorrected
      (.init invitedInTime) = some s ∧
    s.store.invites.lookup "invite" = some i ∧ i.status = .CLAIMED ∧
    i.amountAlreadyPaid = 5000000 ∧
    ∃ k e m p,
      (∀ k' e', s.store.enrollments.lookup k' = some e' ∧ e'.enrollmentInviteId = some "invite" ↔
        k' = k ∧ e' = e) ∧
      (∀ m' p', s.store.payments.lookup m' = some p' ∧ p'.paymentType = .MIGRATED_PAYMENT ∧
        p'.enrollmentId = k ↔ m' = m ∧ p' = p) ∧
      e.firstPaymentPaid = i.amountAlreadyPaid ∧ p.amountPaid = i.amountAlreadyPaid ∧
      p.schoolAmount = i.amountAlreadyPaid ∧ p.status = .SUCCESS ∧ p.isConfirmed = true ∧
      0 ≤ i.amountAlreadyPaid ∧ i.amountAlreadyPaid ≤ e.totalSchoolFee ∧
      e.totalSchoolFee = i.totalSchoolFee ∧
      (e.paymentStatus = .ACTIVE ∨ e.paymentStatus = .COMPLETED ∨
        e.paymentStatus = .DEFAULTED) := by
  have hruns : ((Sys.exec store (Work.program inviteEnvironment) migratingCheck claimedAndCorrected
      (.init invitedInTime)).any fun s => (s.store.invites.lookup "invite").any fun i =>
        i.status = .CLAIMED ∧ i.amountAlreadyPaid = 5000000) = true := by
    decide +kernel
  obtain ⟨s, hs, hinvite⟩ := (Option.any_eq_true _ _).mp hruns
  obtain ⟨i, hi, hclaimed⟩ := (Option.any_eq_true _ _).mp hinvite
  obtain ⟨hclaimed, hamount⟩ := of_decide_eq_true hclaimed
  have hreach := Sys.reach_of_exec migratingCheck_sound (.init invitedInTime_unclaimed.inStep) hs
  exact ⟨s, i, hs, hi, hclaimed, hamount,
    migrated_figures_in_step inviteEnvironment hreach hi hclaimed⟩

end Lopay
