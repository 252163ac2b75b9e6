import Lopay.Invites.Lifecycle
import Lopay.Invites.Tokens
import Lopay.Schedule.Arrears

/-!
# The day a plan opens

A claim turns the terms of an invite into a plan. They were checked against the clock when
the invite was created, but the link can be claimed, and be re-issued, long after. A plan
opens in arrears exactly if something is left to pay and its first instalment has fallen
due by then.
-/

namespace Lopay

open Transactions

namespace Schedule

open Invites

/-! ### Before the first instalment -/

/-- Nothing is past due, and the term has not expired. -/
def ArrearsResult.Clear (a : ArrearsResult) : Prop :=
  a.overdueAmount = 0 ∧ a.missedInstallments = 0 ∧ a.termExpired = false

instance (a : ArrearsResult) : Decidable a.Clear := inferInstanceAs (Decidable (_ ∧ _ ∧ _))

theorem fallenDue_of_le {termStartDate now n : Int} {frequency : InstallmentFrequency}
    (h : installmentDueDate termStartDate frequency n ≤ now) :
    FallenDue termStartDate frequency now n := by
  cases frequency with
  | WEEKLY => exact h
  | MONTHLY => exact Int.ediv_le_ediv (by decide) h

/-- Before anything has been paid no slot is covered. -/
theorem Standing.unpaid {frequency : InstallmentFrequency} {remaining : Int} {g : PlanProgress}
    (h : Standing frequency remaining 0 g) (hr : 0 < remaining) : g.paidInstallments = 0 := by
  have hcount := installmentCountFor_pos frequency
  by_cases hslot : (remaining + 0) / installmentCountFor frequency = 0
  · exact h.empty hslot
  · have hnonneg := h.nonneg
    have hbelow := h.below
    have hreached := h.reached
    have hpos : 0 ≤ (remaining + 0) / installmentCountFor frequency :=
      Int.ediv_nonneg (by omega) (by omega)
    rw [cumulativeTarget_level hnonneg (by omega)] at hreached
    by_contra hne
    have : 0 < (remaining + 0) / installmentCountFor frequency * g.paidInstallments :=
      mul_pos (by omega) (by omega)
    omega

/-- A plan on which no installment has been paid is clear until the first falls due. -/
theorem clear_unpaid {input : ArrearsInput} {now : Int} (hr : 0 < input.remainingBalance)
    (hpaid : input.installmentsPaidKobo = 0)
    (hend : input.termEndDate = derivePlanEnd input.termStartDate input.installmentFrequency) :
    (computeArrears input now).Clear ↔
      ¬ FallenDue input.termStartDate input.installmentFrequency now 1 := by
  have hcount := installmentCountFor_pos input.installmentFrequency
  have ha := computeArrears_open now hr hpaid.ge
  have hstanding := input.standing hr hpaid.ge
  rw [hpaid] at hstanding
  have hnone := hstanding.unpaid hr
  have hfirst : 1 ≤ elapsedPeriods input.termStartDate input.installmentFrequency now ↔
      FallenDue input.termStartDate input.installmentFrequency now 1 :=
    le_elapsedPeriods (le_refl 1)
  -- Once the term is over, every instalment has fallen due.
  have hover : input.termEndDate < now →
      1 ≤ elapsedPeriods input.termStartDate input.installmentFrequency now := by
    intro hlate
    rw [hend] at hlate
    have hall := (le_elapsedPeriods (by omega)).mpr (fallenDue_of_le hlate.le)
    omega
  rw [← hfirst, ArrearsResult.Clear, ha.expired, ha.missed, ha.overdue, hnone, hpaid,
    ArrearsInput.expected]
  by_cases hexpired : input.termEndDate < now
  · have := hover hexpired
    simp only [hexpired, if_true]
    omega
  · simp only [hexpired, if_false, decide_false, and_true]
    constructor
    · omega
    · intro hbefore
      have hzero : min (elapsedPeriods input.termStartDate input.installmentFrequency now)
          (installmentCountFor input.installmentFrequency) = 0 := by
        have := elapsedPeriods_nonneg input.termStartDate input.installmentFrequency now
        omega
      rw [hzero, cumulativeTarget_zero]
      omega

end Schedule

/-! ### The terms of an invite -/

theorem EnrollmentInvite.Dated.of_terms {i i' : EnrollmentInvite} (h : i.Dated)
    (hterms : i'.terms = i.terms) : i'.Dated := by
  have hend : i'.termEndDate = i.termEndDate := congrArg Terms.termEndDate hterms
  have hstart : i'.planStartDate = i.planStartDate := congrArg Terms.planStartDate hterms
  have hfrequency : i'.installmentFrequency = i.installmentFrequency :=
    congrArg Terms.installmentFrequency hterms
  rw [EnrollmentInvite.Dated, hend, hstart, hfrequency]
  exact h

/-- An invite keeps its terms; a new one is dated. -/
structure TermsLast (r r' : Option EnrollmentInvite) : Prop where
  kept : ∀ i, r = some i → ∃ i', r' = some i' ∧ i'.terms = i.terms
  created : r = none → ∀ i, r' = some i → i.Dated

namespace TermsLast

theorem refl (r : Option EnrollmentInvite) : TermsLast r r where
  kept := fun i hi => ⟨i, hi, rfl⟩
  created := by
    intro hnone i hi
    rw [hnone] at hi
    cases hi

theorem restated {i i' : EnrollmentInvite} (h : i'.terms = i.terms) :
    TermsLast (some i) (some i') where
  kept := by
    rintro j ⟨⟩
    exact ⟨i', rfl, h⟩
  created := fun hnone => nomatch hnone

theorem issued {i : EnrollmentInvite} (h : i.Dated) : TermsLast none (some i) where
  kept := fun _ hi => nomatch hi
  created := by
    rintro - j ⟨⟩
    exact h

theorem trans {r r' r'' : Option EnrollmentInvite} (h : TermsLast r r') (h' : TermsLast r' r'') :
    TermsLast r r'' where
  kept := by
    intro i hi
    obtain ⟨i', hi', hterms⟩ := h.kept i hi
    obtain ⟨i'', hi'', hterms'⟩ := h'.kept i' hi'
    exact ⟨i'', hi'', hterms'.trans hterms⟩
  created := by
    intro hnone i hi
    cases hr : r' with
    | none => exact h'.created hr i hi
    | some j =>
      obtain ⟨j', hj', hterms⟩ := h'.kept j hr
      obtain rfl := Option.some.inj (hi.symm.trans hj')
      exact (h.created hnone j hr).of_terms hterms

end TermsLast

/-- A statement that keeps the terms of every invite. -/
def KeepsTerms (v : Db) (ws : List Write) : Prop :=
  ∀ id, TermsLast (v.invites.lookup id) ((store.applyAll ws v).invites.lookup id)

instance : AdmitsTame KeepsTerms where
  tame := by
    intro v ws h id
    rw [h.invites]
    exact .refl _

theorem keepsTerms_putInvite {v : Db} {id : Id} {row : EnrollmentInvite}
    (h : TermsLast (v.invites.lookup id) (some row)) : KeepsTerms v [.putInvite id row] := by
  intro k
  simp only [Store.applyAll_cons, Store.applyAll_nil, store_apply, Write.apply,
    Table.lookup_insert_ite]
  by_cases hk : k = id
  · subst hk
    rw [if_pos rfl]
    exact h
  · rw [if_neg hk]
    exact .refl _

instance : AdmitsAmounts KeepsTerms where
  restate := by
    intro inviteId amountAlreadyPaid
    apply keeps_restateInvite admits_nil
    intro v id i hi
    apply keepsTerms_putInvite
    rw [hi]
    exact .restated rfl

instance : AdmitsInvites KeepsTerms where
  update := by
    intro id filter data hdata
    constructor
    intro τ
    apply Invites.obeys_updateInvites (fun _ => admits_nil) trivial
    · exact fun _ _ => trivial
    · exact fun _ => trivial
    · intro v i hi _
      refine ⟨keepsTerms_putInvite ?_, trivial⟩
      rw [hi]
      exact .restated (hdata i)
  create := by
    intro id row hdated _
    constructor
    intro τ
    apply Invites.obeys_createInvite (fun _ => admits_nil)
    · exact fun _ _ => trivial
    · intro v hnew
      refine ⟨keepsTerms_putInvite ?_, trivial⟩
      rw [hnew]
      exact .issued hdated
  expire := by
    intro ids
    constructor
    intro τ
    apply Invites.obeys_expireInvites (fun _ => admits_nil) trivial
    intro v ws hws
    refine ⟨fun id => ?_, fun _ => trivial⟩
    rcases hws id with hkept | ⟨-, hretired⟩
    · rw [hkept]
      exact .refl _
    · rw [hretired]
      cases v.invites.lookup id with
      | none => exact .refl _
      | some i => exact .restated rfl

/-- The dates of every invite are those of its plan. -/
def Db.InvitesDated (db : Db) : Prop := ∀ id i, db.invites.lookup id = some i → i.Dated

section Interleaved

variable {env : InviteEnvironment} {guard : Office → Event Work Answer → Office → Prop}
  {start : Db → Prop} {s s' : Office} {e : Event Work Answer}

/-- A step keeps the terms of an invite, or creates it. -/
theorem step_terms (hs : Sys.Reach store (Work.program env) guard start s)
    (hstep : s.step store (Work.program env) e = some s') (hguard : guard s e s') (id : Id) :
    TermsLast (s.store.invites.lookup id) (s'.store.invites.lookup id) := by
  have hjobs (t : Office) (w : Work) (t' : Office) (_ : guard t (.spawn w) t') :
      (Work.program env w).obeys (fun _ => KeepsTerms) (fun _ _ => True) .nil := by
    refine Prog.obeys_mono ?_ ((Work.keeps env w).obeys .nil)
    exact fun _ _ _ => trivial
  rcases hs.obeys store_frame (fun _ ws _ _ h => agree_applyAll ws h)
    (L := fun _ _ => KeepsTerms) hjobs hstep hguard with hsame | hmoved
  · rw [hsame]
    exact .refl _
  · obtain ⟨pid, ch, p, τ, done, -, -, -, -, hreplays, hstore⟩ := hmoved
    rw [hstore]
    apply hreplays.law inviteRows
    · exact .refl
    · exact fun _ _ _ h h' => h.trans h'
    · exact fun _ v ws _ hlaw => hlaw id

theorem reach_dated (hs : Sys.Reach store (Work.program env) guard Db.InvitesDated s) :
    s.store.InvitesDated := by
  induction hs with
  | init hstart => exact hstart
  | @step t t' e ht hstep hguard ih =>
    intro id i hi
    have hlast := step_terms ht hstep hguard id
    cases hbefore : t.store.invites.lookup id with
    | none => exact hlast.created hbefore i hi
    | some j =>
      obtain ⟨j', hj', hterms⟩ := hlast.kept j hbefore
      obtain rfl := Option.some.inj (hi.symm.trans hj')
      exact (ih id j hbefore).of_terms hterms

end Interleaved

/-! ### The plan of a claim -/

/-- A plan stays as it is, or is opened on the terms of an invite that was read under the
    digest of the raw token. -/
def OpensFrom (env : InviteEnvironment) (rawToken : Option String) (read : List Db)
    (r r' : Option ChildEnrollment) : Prop :=
  r' = r ∨ r = none ∧ ∃ id i childId, (∃ db ∈ read, db.invites.lookup id = some i) ∧
    Invites.hashInviteToken env rawToken = some i.tokenHash ∧
    r' = some (Ledger.migratedEnrollment id i childId)

namespace InviteJob

/-- A statement of a claim opens plans only like that. -/
def openingLaw (env : InviteEnvironment) (rawToken : Option String) (τ : Journal) (v : Db)
    (ws : List Write) : Prop :=
  ∀ k, OpensFrom env rawToken τ.read (v.enrollments.lookup k)
    ((store.applyAll ws v).enrollments.lookup k)

section Obeys

variable {env : InviteEnvironment} {rawToken : Option String} {τ τ' : Journal}
  {found : Invites.FoundInvite}

theorem openingLaw_noPlan (τ : Journal) (v : Db) (ws : List Write) (h : NoPlan v ws) :
    openingLaw env rawToken τ v ws := by
  intro k
  rw [h]
  exact Or.inl rfl

theorem openingLaw_still (τ : Journal) (v : Db) (ws : List Write) (h : Still v ws) :
    openingLaw env rawToken τ v ws := openingLaw_noPlan τ v ws h.enrollments

theorem met_within (h : τ.Met found) (hτ : τ.Within τ') : τ'.Met found := by
  obtain ⟨db, hdb, hfound⟩ := h
  exact ⟨db, hτ.read db hdb, hfound⟩

/-- The terms of the plan are those of the invite that was found. -/
theorem recordMigratedEnrollment_terms {childId parentUserId : Id} {actor : AuditActor}
    (hhash : Invites.hashInviteToken env rawToken = some found.tokenHash) (hmet : τ.Met found) :
    (Ledger.recordMigratedEnrollment found.id found.row childId parentUserId actor).obeys
      (openingLaw env rawToken) (fun _ _ => True) (fun _ _ => True) τ := by
  unfold Ledger.recordMigratedEnrollment
  apply Routine.obeys_bind
  apply Routine.obeys_ask.mpr
  intro enrollmentId
  apply Routine.obeys_seq
  · apply Routine.obeys_tryCatch
    apply obeys_createEnrollment (fun τ v => openingLaw_noPlan τ v [] rfl)
    · exact fun _ _ => Routine.obeys_throw.mpr trivial
    · intro v hnew
      refine ⟨fun k => ?_, trivial⟩
      simp only [Store.applyAll_cons, Store.applyAll_nil, store_apply, Write.apply,
        Table.lookup_insert_ite]
      by_cases hk : k = enrollmentId
      · subst hk
        rw [if_pos rfl, hnew]
        obtain ⟨db, hdb, i, hi, htoken, hrow⟩ := hmet
        refine Or.inr ⟨rfl, found.id, i, childId, ⟨db, hdb, hi⟩, by rw [hhash, htoken], ?_⟩
        rcases hrow with hrow | hrow
        · rw [hrow]
        · rw [hrow]
          rfl
      · rw [if_neg hk]
        exact Or.inl rfl
  · intro _ _
    exact Routine.Keeps.lawful openingLaw_noPlan inferInstance

theorem claimTransaction_terms {phoneMatched : Option Bool} {user : AuthUser}
    (hhash : Invites.hashInviteToken env rawToken = some found.tokenHash) (hmet : τ.Met found) :
    (Invites.claimTransaction found phoneMatched user).obeys (openingLaw env rawToken)
      (fun _ _ => True) (fun _ _ => True) τ := by
  unfold Invites.claimTransaction
  apply Routine.obeys_tryCatch
  apply Routine.obeys_transaction
  apply Routine.obeys_regardless
  · exact fun _ _ => ⟨trivial, trivial⟩
  · exact fun _ _ => trivial
  -- Whatever runs before the plan is opened forgets nothing of what has been read.
  refine Routine.Keeps.followed_within inferInstance openingLaw_still fun now τ₁ h₁ => ?_
  refine Routine.Keeps.followed_within inferInstance openingLaw_still fun claimedAt τ₂ h₂ => ?_
  refine Routine.Keeps.followed_within inferInstance openingLaw_noPlan fun claimed τ₃ h₃ => ?_
  refine Routine.Keeps.followed_within inferInstance openingLaw_still fun _ τ₄ h₄ => ?_
  refine Routine.Keeps.followed_within inferInstance openingLaw_still fun parentId τ₅ h₅ => ?_
  refine Routine.Keeps.followed_within inferInstance openingLaw_still fun childId τ₆ h₆ => ?_
  have hopened : τ.Within τ₁ := ⟨h₁.log, h₁.read⟩
  apply recordMigratedEnrollment_terms hhash
  exact met_within hmet (hopened.trans (h₂.trans (h₃.trans (h₄.trans (h₅.trans h₆)))))

theorem claim_terms (user : AuthUser) (hout : τ.inside = false) :
    (Invites.claim env rawToken user).obeys (openingLaw env rawToken) (fun _ _ => True)
      (fun _ _ => True) τ := by
  unfold Invites.claim
  apply Routine.obeys_bind
  apply lookup_meets (fun τ v => openingLaw_noPlan τ v [] rfl) hout
  · exact fun τ id v i _ _ _ => openingLaw_noPlan τ v _ rfl
  intro found τ hhash hmet
  refine Routine.Keeps.followed_within inferInstance openingLaw_still fun phoneMatched τ₁ h₁ => ?_
  refine Routine.Keeps.followed_within inferInstance openingLaw_still fun _ τ₂ h₂ => ?_
  refine Routine.Keeps.followed_within inferInstance openingLaw_still fun school τ₃ h₃ => ?_
  refine Routine.Keeps.followed_within inferInstance openingLaw_still fun school τ₄ h₄ => ?_
  have hmet₄ := met_within hmet (h₁.trans (h₂.trans (h₃.trans h₄)))
  refine Routine.obeys_seq (claimTransaction_terms hhash hmet₄) fun _ _ => ?_
  exact Routine.Keeps.lawful openingLaw_still inferInstance

end Obeys

end InviteJob

/-- The raw token that a claim is made with. -/
def Work.claims? : Work → Option (Option String)
  | .invites (.claim rawToken _) => some rawToken
  | .invites _ | .payments _ => none

theorem Work.claims_eq {w : Work} {rawToken : Option String} (h : w.claims? = some rawToken) :
    ∃ user, w = .invites (.claim rawToken user) := by
  cases w with
  | payments job => cases h
  | invites j =>
    cases j with
    | claim rawToken' user =>
      obtain rfl := Option.some.inj h
      exact ⟨user, rfl⟩
    | _ => cases h

/-- A plan that a claim opens has the terms of the invite as the claim has read it. -/
theorem step_opensFrom {env : InviteEnvironment}
    {guard : Office → Event Work Answer → Office → Prop} {start : Db → Prop} {s s' : Office}
    (hs : Sys.Reach store (Work.program env) guard start s) {e : Event Work Answer}
    (hstep : s.step store (Work.program env) e = some s') (hguard : guard s e s')
    {p : Proc Work Db Write Answer (Except Err Reply)} (hp : s.mover? e = some p)
    {rawToken : Option String} (hj : p.job.claims? = some rawToken) (k : Id) : OpensFrom env rawToken p.ctx.seen (s.store.enrollments.lookup k)
      (s'.store.enrollments.lookup k) := by
  let law (w : Work) (τ : Journal) (v : Db) (ws : List Write) : Prop :=
    ∀ rawToken, w.claims? = some rawToken → InviteJob.openingLaw env rawToken τ v ws
  have hjobs (t : Office) (w : Work) (t' : Office) (_ : guard t (.spawn w) t') :
      (Work.program env w).obeys (law w) (fun _ _ => True) .nil := by
    cases hclaims : w.claims? with
    | none => exact Prog.obeys_always fun τ v ws rawToken hw => nomatch hclaims.symm.trans hw
    | some rawToken =>
      obtain ⟨user, rfl⟩ := Work.claims_eq hclaims
      refine Prog.obeys_weaken ?_ (fun _ _ _ => trivial)
        (Routine.obeys_map (f := fun _ => Reply.done) (InviteJob.claim_terms user rfl))
      rintro τ v ws h _ ⟨⟩
      exact h
  rcases hs.obeys store_frame (fun _ ws _ _ h => agree_applyAll ws h) hjobs hstep hguard
    with hsame | hmoved
  · rw [hsame]
    exact Or.inl rfl
  obtain ⟨pid, ch, q, τ, done, rfl, hq, -, hread, hreplays, hstore⟩ := hmoved
  obtain rfl := Option.some.inj (hp.symm.trans hq)
  rw [hstore]
  apply hreplays.law enrollmentRows
  · exact fun r => Or.inl rfl
  · rintro r r' r'' (rfl | ⟨hnone, id, i, childId, hfrom, hhash, rfl⟩) h'
    · exact h'
    · rcases h' with rfl | ⟨hr', -⟩
      · exact Or.inr ⟨hnone, id, i, childId, hfrom, hhash, rfl⟩
      · cases hr'
  · intro τ' v ws hτ hlaw
    rcases hlaw rawToken hj k with hsame | ⟨hnone, id, i, childId, ⟨db, hdb, hi⟩, hrest⟩
    · exact Or.inl hsame
    · exact Or.inr ⟨hnone, id, i, childId, ⟨db, hread db (hτ.read db hdb), hi⟩, hrest⟩

/-- The arrears of a plan on which no installment has been paid. -/
def openingArrears (plan : ChildEnrollment) (now : Int) : Schedule.ArrearsResult :=
  Schedule.computeArrears
    { remainingBalance := plan.remainingBalance
      installmentFrequency := plan.installmentFrequency
      termStartDate := plan.termStartDate
      termEndDate := plan.termEndDate
      installmentsPaidKobo := 0 } now

/-- The whole fee has been paid, or the first instalment has not fallen due. -/
def EnrollmentInvite.Timely (invite : EnrollmentInvite) (now : Int) : Prop :=
  invite.totalSchoolFee ≤ invite.amountAlreadyPaid ∨
    ¬ Schedule.FallenDue invite.planStartDate invite.installmentFrequency now 1

theorem openingArrears_clear {invite : EnrollmentInvite} (hdated : invite.Dated) (id childId : Id)
    (now : Int) : (openingArrears (Ledger.migratedEnrollment id invite childId) now).Clear ↔
      invite.Timely now := by
  have hbalance : (Ledger.migratedEnrollment id invite childId).remainingBalance =
      max 0 (invite.totalSchoolFee - invite.amountAlreadyPaid) := rfl
  unfold openingArrears EnrollmentInvite.Timely
  by_cases hpaid : invite.totalSchoolFee ≤ invite.amountAlreadyPaid
  · rw [Schedule.computeArrears_settled (by simp only [hbalance]; omega)]
    simp [Schedule.ArrearsResult.Clear, hpaid]
  · simp only [hpaid, false_or]
    exact Schedule.clear_unpaid (by simp only [hbalance]; omega) rfl hdated

/-- What an invite that has been read says about the plan, it says now. -/
theorem seen_terms {env : InviteEnvironment}
    {guard : Office → Event Work Answer → Office → Prop} {start : Db → Prop} {s : Office}
    (hs : Sys.Reach store (Work.program env) guard start s)
    {p : Proc Work Db Write Answer (Except Err Reply)} (hp : p ∈ s.procs) {db : Db}
    (hdb : db ∈ p.ctx.seen) {id : Id} {i : EnrollmentInvite} (hi : db.invites.lookup id = some i) :
    ∃ i', s.store.invites.lookup id = some i' ∧ i'.terms = i.terms := by
  have hobserves := hs.observes
    (R := fun c t => ∀ i, c.invites.lookup id = some i →
      ∃ i', t.invites.lookup id = some i' ∧ i'.terms = i.terms)
    (fun _ _ i hi => ⟨i, hi, rfl⟩) ?_ p hp
  · exact hobserves.seen db hdb i hi
  · intro t t' pid ch ht hstep hguard _ _ c _ hkept i hi
    obtain ⟨i', hi', hterms⟩ := hkept i hi
    obtain ⟨i'', hi'', hterms'⟩ := (step_terms ht hstep hguard id).kept i' hi'
    exact ⟨i'', hi'', hterms'.trans hterms⟩

/-- The plan comes from an invite that the job has read under the digest of its link, on the
    terms that are stored, and is clear at an instant exactly if the invite is timely then. -/
def OpensAsTimed (env : InviteEnvironment) (s : Office)
    (p : Proc Work Db Write Answer (Except Err Reply)) (rawToken : Option String)
    (plan : ChildEnrollment) : Prop :=
  ∃ id i, plan.enrollmentInviteId = some id ∧
    Invites.hashInviteToken env rawToken = some i.tokenHash ∧
    (∃ db ∈ p.ctx.seen, db.invites.lookup id = some i) ∧
    (∃ i', s.store.invites.lookup id = some i' ∧ i'.terms = i.terms) ∧
    ∀ now, (openingArrears plan now).Clear ↔ i.Timely now

/-- Every plan that a claim opens is clear as long as its invite is timely, and no longer. -/
theorem plans_open_as_timed (env : InviteEnvironment) {s s' : Office}
    (hs : Sys.Reach store (Work.program env) (fun _ _ _ => True) Db.InvitesDated s)
    {e : Event Work Answer} (hstep : s.step store (Work.program env) e = some s')
    {p : Proc Work Db Write Answer (Except Err Reply)} (hp : s.mover? e = some p)
    {rawToken : Option String} (hj : p.job.claims? = some rawToken) {k : Id}
    {plan : ChildEnrollment} (hnew : s.store.enrollments.lookup k = none)
    (hplan : s'.store.enrollments.lookup k = some plan) : OpensAsTimed env s p rawToken plan := by
  rcases step_opensFrom hs hstep trivial hp hj k with hsame | hopened
  · rw [hplan, hnew] at hsame
    cases hsame
  obtain ⟨-, id, i, childId, ⟨db, hdb, hi⟩, hhash, hrow⟩ := hopened
  obtain rfl := Option.some.inj (hplan.symm.trans hrow)
  have hmem : p ∈ s.procs := by
    cases e with
    | spawn j => cases hp
    | move pid ch => exact List.mem_of_getElem? hp
  have hdated : db.InvitesDated := hs.seen (fun t ht => reach_dated ht) hmem db hdb
  refine ⟨id, i, rfl, hhash, ⟨db, hdb, hi⟩, seen_terms hs hmem hdb hi, fun now => ?_⟩
  exact openingArrears_clear (hdated id i hi) id childId now

/-! ### A weekly plan -/

/-- The same answers with the clock at `now`. -/
def atTime (now : Int) (ch : Choice Answer) : Choice Answer where
  fault := ch.fault
  answer := fun
    | .now => now
    | c => ch.answer c

/-- The family's school with an account for its owner. -/
def staffedSchool : Db :=
  { oneFamily with
    users := oneFamily.users.insert "owner"
      { email := "owner@mail"
        role := .SCHOOL_OWNER
        fullName := none
        name := none
        phoneNumber := none
        phoneHash := none } }

/-- A weekly plan from the day of the invite on; the link lives for two weeks. -/
def weeklyInvite : CreateEnrollmentInviteDto where
  studentName := "Ada"
  className := "JSS1"
  amountAlreadyPaid := 40000
  parentPhone := "081"
  installmentFrequency := .WEEKLY
  planStartDate := 0
  expiresInDays := none

def weeklyLink : String := String.ofList ("a8".toList ++ List.replicate 41 'A')

def claimAt (day : Int) (i : Nat) : Event Work Answer :=
  .move 1 (atTime (day * Invites.DAY_MS) (smoothly "b" i))

/-- The school invites the family, and some days later the parent is about to claim. -/
def claimedOnDay (day : Int) : List (Event Work Answer) :=
  working 0 (.invites (.create weeklyInvite schoolOwner)) "a" 12 ++
    .spawn (.invites (.claim (some weeklyLink) invitedParent)) ::
      (List.range 23).map (claimAt day)

theorem staffedSchool_dated : staffedSchool.InvitesDated := by
  intro id i hi
  cases hi

/-- On the third day the plan opens clear. -/
theorem plans_open_as_timed_third_day : ∃ s s' : Office, ∃ p plan,
    Sys.exec store (Work.program inviteEnvironment) (fun _ _ _ => true) (claimedOnDay 3)
      (.init staffedSchool) = some s ∧
    s.step store (Work.program inviteEnvironment) (claimAt 3 23) = some s' ∧
    s'.store.enrollments.lookup "b17" = some plan ∧
    (openingArrears plan (3 * Invites.DAY_MS)).Clear ∧
    OpensAsTimed inviteEnvironment s p (some weeklyLink) plan := by
  have hruns : ((Sys.exec store (Work.program inviteEnvironment) (fun _ _ _ => true)
      (claimedOnDay 3) (.init staffedSchool)).any fun s => (s.mover? (claimAt 3 23)).any fun p =>
        (s.step store (Work.program inviteEnvironment) (claimAt 3 23)).any fun s' =>
          (s'.store.enrollments.lookup "b17").any fun plan =>
            p.job.claims? = some (some weeklyLink) ∧
              (s.store.enrollments.lookup "b17").isNone = true ∧
              (openingArrears plan (3 * Invites.DAY_MS)).Clear) = true := by
    decide +kernel
  obtain ⟨s, hs, hany⟩ := (Option.any_eq_true _ _).mp hruns
  obtain ⟨p, hp, hany⟩ := (Option.any_eq_true _ _).mp hany
  obtain ⟨s', hs', hany⟩ := (Option.any_eq_true _ _).mp hany
  obtain ⟨plan, hplan, hcond⟩ := (Option.any_eq_true _ _).mp hany
  obtain ⟨hj, hnew, hclear⟩ := of_decide_eq_true hcond
  refine ⟨s, s', p, plan, hs, hs', hplan, hclear, ?_⟩
  exact plans_open_as_timed inviteEnvironment
    (Sys.reach_of_exec (fun _ _ _ _ => trivial) (.init staffedSchool_dated) hs) hs' hp hj
    (Option.isNone_iff_eq_none.mp hnew) hplan

/-- On the eighth day the link is still good, and the plan opens with an instalment missed. -/
theorem plan_opens_behind : ¬ ∀ (s s' : Office) e p rawToken k plan,
    Sys.Reach store (Work.program inviteEnvironment) (fun _ _ _ => True) Db.InvitesDated s →
    s.step store (Work.program inviteEnvironment) e = some s' → s.mover? e = some p →
    p.job.claims? = some rawToken → s.store.enrollments.lookup k = none →
    s'.store.enrollments.lookup k = some plan →
    ∀ n ∈ clockReadings p.ctx.log, (openingArrears plan n).Clear := by
  intro hclaim
  have hruns : ((Sys.exec store (Work.program inviteEnvironment) (fun _ _ _ => true)
      (claimedOnDay 8) (.init staffedSchool)).any fun s => (s.mover? (claimAt 8 23)).any fun p =>
        (s.step store (Work.program inviteEnvironment) (claimAt 8 23)).any fun s' =>
          (s'.store.enrollments.lookup "b17").any fun plan =>
            p.job.claims? = some (some weeklyLink) ∧
              (s.store.enrollments.lookup "b17").isNone = true ∧
              8 * Invites.DAY_MS ∈ clockReadings p.ctx.log ∧
              ¬ (openingArrears plan (8 * Invites.DAY_MS)).Clear) = true := by
    decide +kernel
  obtain ⟨s, hs, hany⟩ := (Option.any_eq_true _ _).mp hruns
  obtain ⟨p, hp, hany⟩ := (Option.any_eq_true _ _).mp hany
  obtain ⟨s', hs', hany⟩ := (Option.any_eq_true _ _).mp hany
  obtain ⟨plan, hplan, hcond⟩ := (Option.any_eq_true _ _).mp hany
  obtain ⟨hj, hnew, hread, hbehind⟩ := of_decide_eq_true hcond
  have hreach : Sys.Reach store (Work.program inviteEnvironment) (fun _ _ _ => True)
      Db.InvitesDated s := Sys.reach_of_exec (fun _ _ _ _ => trivial) (.init staffedSchool_dated) hs
  exact hbehind (hclaim s s' _ p _ "b17" plan hreach hs' hp hj
    (Option.isNone_iff_eq_none.mp hnew) hplan _ hread)

end Lopay
