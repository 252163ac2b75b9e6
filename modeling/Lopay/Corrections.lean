import Lopay.Balances
import Lopay.Books.Passages
import Lopay.Books.Smooth
import Lopay.Work

/-!
# Corrections of the migrated amount

`amendMigratedPayment` locks the plan before it sums what has been confirmed on it, and
restates the payment only while it still shows the amount the call has read. So a correction
that ends well has left the balance that follows from the figures, one that is refused has
changed nothing, and of two that have read the same amount the second succeeds only if a
further correction has put that amount back.
-/

namespace Lopay

open Transactions

/-- The migrated payment of the plan stands at `amount`. -/
def Recorded (enrollmentId : Id) (amount : Int) (s : Db) : Prop :=
  ∃ k p, s.payments.lookup k = some p ∧ p.enrollmentId = enrollmentId ∧
    p.paymentType = .MIGRATED_PAYMENT ∧ p.status = .SUCCESS ∧ p.amountPaid = amount

theorem Recorded.unique {enrollmentId : Id} {amount amount' : Int} {s : Db} (hs : Coherent s)
    (h : Recorded enrollmentId amount s) (h' : Recorded enrollmentId amount' s) :
    amount = amount' := by
  obtain ⟨k, p, hp, hon, htype, -, rfl⟩ := h
  obtain ⟨k', p', hp', hon', htype', -, rfl⟩ := h'
  obtain rfl := hs.one_migrated k k' p p' hp hp' htype htype' (hon.trans hon'.symm)
  rw [Option.some.inj (hp.symm.trans hp')]

/-- The plan after a correction to `newAmount`. -/
structure Corrected (newAmount installmentsPaid : Int) (e e' : ChildEnrollment) : Prop where
  fee : e'.totalSchoolFee = e.totalSchoolFee
  balance : e'.remainingBalance = e'.totalSchoolFee - newAmount - installmentsPaid
  nonneg : 0 ≤ e'.remainingBalance
  completed : e'.paymentStatus = .COMPLETED ↔ e'.remainingBalance = 0
  kept : e'.remainingBalance ≠ 0 →
    e'.paymentStatus = if e.paymentStatus = .COMPLETED then .ACTIVE else e.paymentStatus

theorem ChildEnrollment.amended_corrected {e : ChildEnrollment} {newAmount installmentsPaid : Int}
    (h : 0 ≤ e.totalSchoolFee - newAmount - installmentsPaid) :
    Corrected newAmount installmentsPaid e (e.amended newAmount installmentsPaid) where
  fee := rfl
  balance := rfl
  nonneg := h
  completed := by
    simp only [ChildEnrollment.amended, statusAfterMigratedAmendment]
    split
    · exact ⟨fun _ => by omega, fun _ => rfl⟩
    · constructor
      · intro hstatus
        split at hstatus
        · cases hstatus
        · contradiction
      · intro hzero
        omega
  kept := by
    intro hne
    simp only [ChildEnrollment.amended] at hne ⊢
    rw [statusAfterMigratedAmendment, if_neg (by omega)]

section Call

variable {enrollmentId schoolId : Id} {newAmount : Int} {actor : AuditActor}
  {reason : Option String}

/-! ### A call that has committed does not fail -/

theorem restateInvite_ends {inviteId : Option Id} {amount : Int} {ok : Bool → Bool → Unit → Prop}
    {err : Bool → Bool → Err → Prop} {c : Bool} (hok : ok c true ()) (herr : ∀ e, err c true e) :
    (Ledger.restateInvite inviteId amount).Ends ok err c true := by
  cases inviteId with
  | none => exact hok
  | some inviteId => exact Routine.ends_exec herr fun _ => hok

/-- A correction throws before its commit or not at all. -/
theorem amendMigratedPayment_ends :
    (Ledger.amendMigratedPayment enrollmentId newAmount schoolId actor reason).Ends
      (fun _ _ _ => True) (fun committed _ _ => committed = false) false false := by
  unfold Ledger.amendMigratedPayment
  refine Routine.ends_bind (Routine.ends_throwIf rfl ?_)
  refine Routine.ends_bind (Routine.ends_query rfl fun found => ?_)
  refine Routine.ends_bind (Routine.ends_orThrow rfl fun plan => ?_)
  refine Routine.ends_bind fun order => ?_
  refine Routine.ends_bind (Routine.ends_orThrow rfl fun picked => ?_)
  refine Routine.ends_bind (Routine.ends_throwIf rfl ?_)
  refine Routine.ends_bind (Routine.ends_throwIf rfl ?_)
  refine Routine.ends_bind (Routine.ends_transaction ?_)
  refine Routine.ends_bind (statement_ends (fun _ => rfl) fun row => ?_)
  refine Routine.ends_bind (Routine.ends_orThrow rfl fun locked => ?_)
  refine Routine.ends_bind (Routine.ends_query rfl fun installmentsPaid => ?_)
  refine Routine.ends_bind (Routine.ends_throwIf rfl ?_)
  refine Routine.ends_bind (statement_ends (fun _ => rfl) fun restated => ?_)
  refine Routine.ends_bind (Routine.ends_throwIf rfl ?_)
  refine Routine.ends_bind (statement_ends (fun _ => rfl) fun updated => ?_)
  refine Routine.ends_bind (restateInvite_ends ?_ fun _ => rfl)
  refine Routine.ends_bind (statement_ends (fun _ => rfl) fun _ => ?_)
  refine ⟨?_, rfl⟩
  -- What follows the commit: two messages, of which the second may be refused.
  refine Routine.ends_bind (Routine.ends_bind fun _ => Routine.ends_bind fun _ => ?_)
  refine Routine.ends_bind (Routine.ends_tryCatch (createNotification_ends ?_ fun _ => ?_))
  · exact trivial
  · exact trivial

/-! ### What a correction commits -/

variable {pid : Nat} {t₀ t t' : Service}

theorem recorded_of_migratedPayments {s : Db} {k : Id} {r : Payment}
    (h : (k, r) ∈ Ledger.migratedPayments enrollmentId s) :
    Recorded enrollmentId r.amountPaid s := by
  obtain ⟨hmem, hcond⟩ := List.mem_filter.mp h
  simp only [decide_eq_true_eq] at hcond
  obtain ⟨hon, htype, hstatus⟩ := hcond
  exact ⟨k, r, Table.mem_rows.mp hmem, hon, htype, hstatus, rfl⟩

theorem amendMigratedPayment_refused (h : newAmount < 0) :
    (Job.amendMigratedPayment enrollmentId newAmount schoolId actor reason).program =
      .ret (.error (.badRequest "Corrected amount must be zero or more")) := by
  simp only [Job.program, Job.action, Ledger.amendMigratedPayment, Routine.throwIf, if_pos h]
  rfl

/-- A correction that has something to read asks for a balance of zero or more. -/
theorem amendMigratedPayment_nonneg
    (h : Sys.Passage store Job.program (fun _ _ _ => True) Opening pid
      (.amendMigratedPayment enrollmentId newAmount schoolId actor reason) t₀ t t') :
    0 ≤ newAmount := by
  by_contra hneg
  obtain ⟨p, ch, s', hp, hj, hunmoved, -, hstep, -⟩ := h.begins
  obtain ⟨m, out, hm, -, hout, -⟩ := Sys.step_move hstep
  obtain rfl := Option.some.inj (hp.symm.trans hm)
  rw [hunmoved.prog, hj, amendMigratedPayment_refused (not_le.mp hneg)] at hout
  cases hout

theorem amendMigratedPayment_commits
    (h : Sys.Passage store Job.program (fun _ _ _ => True) Opening pid
      (.amendMigratedPayment enrollmentId newAmount schoolId actor reason) t₀ t t') :
    (∃ e e', t.store.enrollments.lookup enrollmentId = some e ∧
      t'.store.enrollments.lookup enrollmentId = some e' ∧
      Corrected newAmount (Ledger.installmentsConfirmed enrollmentId t.store) e e') ∧
    Recorded enrollmentId newAmount t'.store ∧
    ∃ amount ≠ newAmount, Recorded enrollmentId amount t₀.store ∧
      Recorded enrollmentId amount t.store := by
  have hnonneg := amendMigratedPayment_nonneg h
  obtain ⟨f, hbegins, hbody⟩ := amendMigratedPayment_begins
    (amid_session (A := fun _ _ => True) (G := fun y ws => ∃ plan rows k p e a,
      amendedPlan enrollmentId schoolId t₀.store = some (plan, rows) ∧
        Amends enrollmentId newAmount rows y.now ws k p e a))
    enrollmentId newAmount schoolId actor reason
  have hbegun : (Job.amendMigratedPayment enrollmentId newAmount schoolId actor reason).action =
      (fun _ => .done) <$> (read (amendedPlan enrollmentId schoolId) >>= f) := by
    simp only [Job.action, hbegins, Routine.throwIf, if_neg (not_lt.mpr hnonneg), pure_bind]
  obtain ⟨-, y, ws, hnow, hstore, plan, rows, k, p, e, a, hfound, hamends⟩ :=
    posts_of_passage h hbegun fun x hx => by
      refine hbody _ _ x hnonneg hx (fun s hs => ⟨t₀.store, hs, rfl⟩) ?_
      rintro y ws k p e a hcoh ⟨plan, rows, hfound, hamends⟩ -
      exact ⟨⟨plan, rows, k, p, e, a, hfound, hamends⟩,
        (hamends.posts (E := Stable)).coherent (fun _ h => h) hcoh⟩
  rw [hnow] at hamends
  obtain ⟨⟨r, hr, hamount⟩, hp, htype, hstatus, rfl, he, -, hdiffers, hwithin, -, hmade⟩ := hamends
  rw [← hstore] at hmade
  rw [amendedPlan, Option.map_eq_some_iff] at hfound
  obtain ⟨_, -, hpair⟩ := hfound
  obtain ⟨-, rfl⟩ := Prod.mk.inj hpair
  refine ⟨⟨e, _, he, hmade.plan_put rfl, ChildEnrollment.amended_corrected hwithin⟩, ?_, ?_⟩
  · exact ⟨k, _, hmade.payment_put rfl, rfl, htype, hstatus, rfl⟩
  · refine ⟨p.amountPaid, hdiffers, ?_, k, p, hp, rfl, htype, hstatus, rfl⟩
    rw [hamount]
    exact recorded_of_migratedPayments hr

theorem jobs_discipline : Discipline store Job.program (fun _ _ _ => True)
    (fun j => beside Stable (fun _ => True) fun kind => j.May kind ∧ True) (fun _ _ _ => True)
    Coherent :=
  Moves.any.discipline fun _ _ _ _ _ _ => trivial

/-- A call ends well exactly if it has changed the database. -/
theorem amendMigratedPayment_settles {s t : Service}
    {p q : Proc Job Db Write Answer (Except Err Reply)} {r : Except Err Reply}
    (hs : Sys.Reach store Job.program (fun _ _ _ => True) Opening s)
    (hp : s.procs[pid]? = some p)
    (hj : p.job = .amendMigratedPayment enrollmentId newAmount schoolId actor reason)
    (hunmoved : p.Unmoved Job.program)
    (hlead : Sys.Leads store Job.program (fun _ _ _ => True) s t) (hq : t.procs[pid]? = some q)
    (hr : q.prog = .ret r) :
    (∃ a, r = .ok a) ↔ Sys.Commits store Job.program (fun _ _ _ => True) pid s t := by
  have hD := jobs_discipline
  have hgood := hs.good hD fun _ h => h.coherent
  constructor
  · rintro ⟨a, rfl⟩
    -- Without a commit the call could only have failed.
    have hwp : p.prog.wp store (amid (fun _ _ => False) fun _ _ => True)
        (fun r _ => ∀ a, r ≠ .ok a) p.ctx := by
      rw [hunmoved.prog, hj]
      rcases lt_or_ge newAmount 0 with hneg | hnonneg
      · rw [amendMigratedPayment_refused hneg]
        exact nofun
      · have hunfinished : p.prog.finished = false := by
          rw [hunmoved.prog, hj]
          simp only [Job.program, Job.action, Ledger.amendMigratedPayment, Routine.throwIf,
            if_neg (not_lt.mpr hnonneg)]
          rfl
        have hx : Rests (fun _ => Coherent) false p.ctx := by
          refine ⟨by rw [hunmoved.tx]; rfl, ?_⟩
          rw [(hgood.procs p (List.mem_of_getElem? hp)).now hunfinished]
          exact hgood.inv
        have hends : (Ledger.amendMigratedPayment enrollmentId newAmount schoolId actor reason).wp
            store (amid (fun _ _ => False) fun _ _ => True) (fun _ _ => False) (fun _ _ => True)
            p.ctx := by
          refine Routine.wp_mono ?_ (fun _ _ _ => trivial) (amendMigratedPayment_admitted
            amid_session (fun _ _ _ _ h => h.elim) hx)
          rintro a y ⟨-, u, ws, hfalse⟩
          exact hfalse
        have hdone : (Job.amendMigratedPayment enrollmentId newAmount schoolId actor
            reason).action.wp store (amid (fun _ _ => False) fun _ _ => True) (fun _ _ => False)
            (fun _ _ => True) p.ctx := wp_map (fun _ _ h => h) hends
        refine Prog.wp_mono ?_ hdone
        rintro (e | b) y hfalse a heq
        · cases heq
        · exact hfalse
    rcases hlead.follow_until (L := amid (fun _ _ => False) fun _ _ => True) hD hgood hp
      (fun _ _ _ _ _ _ _ => ⟨fun _ _ => trivial, fun _ => trivial⟩) (fun _ _ h => h) hwp with ⟨q', hq', -, hfinal⟩ | hcommitted
    · obtain rfl := Option.some.inj (hq.symm.trans hq')
      rw [hr] at hfinal
      exact absurd rfl (hfinal a)
    · obtain ⟨u, u', ch, x, ws, hu, hu', hstep, hguard, -, -, hnow, hstore, hposts, -⟩ := hcommitted
      refine ⟨u, u', ch, hu, hstep, hguard, fun hsame => ?_, hu'⟩
      obtain ⟨kind, ⟨hmay, -⟩, entry, hposting, hmade⟩ := hposts
      rw [hj] at hmay
      obtain rfl : kind = .amend := hmay
      have hlogs := hmade.auditLogs
      rw [hnow, ← hstore, hsame] at hlogs
      cases hposting with
      | amend => simp at hlogs
      | close _ hcloses => exact hcloses
  · intro hcommits
    have hends : (Job.amendMigratedPayment enrollmentId newAmount schoolId actor reason).action.Ends
        (fun _ _ _ => True) (fun committed _ _ => committed = false) false false :=
      Routine.ends_map amendMigratedPayment_ends
    unfold Routine.Ends at hends
    rw [← hj, ← Job.program, ← hunmoved.prog] at hends
    obtain ⟨q', c, hq', hfinal, hc⟩ := hcommits.ending
      ⟨p, false, hp, by rw [hunmoved.tx]; exact hends, nofun⟩
    obtain rfl := Option.some.inj (hq.symm.trans hq')
    rw [hr, hc rfl] at hfinal
    cases r with
    | ok a => exact ⟨a, rfl⟩
    | error e => cases hfinal

/-! ### Two corrections -/

/-- The recorded amount comes to `amount` by a correction only. -/
theorem recorded_by_correction {t t' : Service} {amount : Int}
    (ht : Sys.Reach store Job.program (fun _ _ _ => True) Opening t) {e : Event Job Answer}
    (hstep : t.step store Job.program e = some t')
    (hplan : ∃ plan, t.store.enrollments.lookup enrollmentId = some plan)
    (hbefore : ¬ Recorded enrollmentId amount t.store)
    (hafter : Recorded enrollmentId amount t'.store) :
    t'.store ≠ t.store ∧ ∃ pid ch x, e = .move pid ch ∧ t.procs[pid]? = some x ∧
      x.job.May .amend := by
  refine ⟨fun hsame => hbefore (hsame ▸ hafter), ?_⟩
  rcases reach_committed Moves.any (fun _ _ _ _ _ _ => trivial) (fun _ h => h.coherent) ht hstep
    trivial with hsame | ⟨pid, ch, x, kind, ws, rfl, hx, hmay, -, ⟨entry, hposting, hmade⟩, hstore⟩
  · exact absurd (hsame ▸ hafter) hbefore
  refine ⟨pid, ch, x, rfl, hx, ?_⟩
  rw [← hstore] at hmade
  obtain ⟨k, p, hp, hon, htype, hstatus, hamount⟩ := hafter
  rcases hmade.payment_cases hp with hput | ⟨hold, -⟩
  · cases hposting with
    | amend => exact hmay
    | confirm _ hkind | reverse _ hkind | close _ _ hkind | credit _ _ hkind | dispute _ _ hkind =>
      obtain ⟨-, rfl⟩ := Prod.mk.inj (Option.some.inj hput)
      exact absurd (hkind.symm.trans htype) nofun
    | reject =>
      obtain ⟨-, rfl⟩ := Prod.mk.inj (Option.some.inj hput)
      cases hstatus
    | openPlan _ hopens | reopenPlan _ _ hopens =>
      obtain ⟨-, rfl⟩ := Prod.mk.inj (Option.some.inj hput)
      exact absurd (hopens.paymentType.symm.trans htype) nofun
    | submit _ _ hkind =>
      obtain ⟨-, rfl⟩ := Prod.mk.inj (Option.some.inj hput)
      exact absurd (hkind.symm.trans htype) nofun
    | migrate _ hnew =>
      obtain ⟨-, rfl⟩ := Prod.mk.inj (Option.some.inj hput)
      obtain ⟨plan, hplan⟩ := hplan
      rw [← hon] at hplan
      cases hplan.symm.trans hnew
    | releaseKey hold | storeAccessCode hold =>
      obtain ⟨rfl, rfl⟩ := Prod.mk.inj (Option.some.inj hput)
      exact absurd ⟨_, _, hold, hon, htype, hstatus, hamount⟩ hbefore
    | markDefaulted | sweepDefaulted | aside => cases hput
  · exact absurd ⟨k, p, hold, hon, htype, hstatus, hamount⟩ hbefore

theorem Recorded.plan {amount : Int} {s : Db} (hs : Coherent s)
    (h : Recorded enrollmentId amount s) :
    ∃ plan, s.enrollments.lookup enrollmentId = some plan := by
  obtain ⟨k, p, hp, rfl, -⟩ := h
  obtain ⟨plan, hplan, -⟩ := (hs.payments k p hp).plan
  exact ⟨plan, hplan⟩

/-- A correction that has read `amount` commits only while it is recorded. -/
theorem correction_finds_recorded {amount : Int}
    (h : Sys.Passage store Job.program (fun _ _ _ => True) Opening pid
      (.amendMigratedPayment enrollmentId newAmount schoolId actor reason) t₀ t t')
    (hread : Recorded enrollmentId amount t₀.store) :
    Recorded enrollmentId amount t.store ∧ ¬ Recorded enrollmentId amount t'.store := by
  have hstart : ∀ s, Opening s → Coherent s := fun _ h => h.coherent
  obtain ⟨-, hafter, found, hne, hread', hhere⟩ := amendMigratedPayment_commits h
  obtain rfl := hread.unique (reach_coherent hstart h.reach) hread'
  refine ⟨hhere, fun hkept => hne ?_⟩
  exact hkept.unique (reach_coherent hstart (h.leads.reach (fun _ _ _ h => h) h.reached)) hafter

/-- Another correction has put the amount back between `t` and `u`. -/
def PutBack (enrollmentId : Id) (amount : Int) (pid pid' : Nat) (t u : Service) : Prop :=
  ∃ v v' third ch x, Sys.Leads store Job.program (fun _ _ _ => True) t v ∧
    v.step store Job.program (.move third ch) = some v' ∧
    Sys.Leads store Job.program (fun _ _ _ => True) v' u ∧ third ≠ pid ∧ third ≠ pid' ∧
    v.procs[third]? = some x ∧ x.job.May .amend ∧ ¬ Recorded enrollmentId amount v.store ∧
    Recorded enrollmentId amount v'.store

/-- Of two corrections that have read the same amount both commit only if a third one has put
    it back in between. -/
theorem correction_restored {pid' : Nat} {newAmount' : Int} {schoolId' : Id} {actor' : AuditActor}
    {reason' : Option String} {u₀ u u' : Service} {amount : Int}
    (h : Sys.Passage store Job.program (fun _ _ _ => True) Opening pid
      (.amendMigratedPayment enrollmentId newAmount schoolId actor reason) t₀ t t')
    (h' : Sys.Begun store Job.program (fun _ _ _ => True) Opening pid'
      (.amendMigratedPayment enrollmentId newAmount' schoolId' actor' reason') u₀ t)
    (hlead : Sys.Leads store Job.program (fun _ _ _ => True) t' u)
    (hcommit : ∃ ch, u.step store Job.program (.move pid' ch) = some u' ∧ u'.store ≠ u.store)
    (hread : Recorded enrollmentId amount t₀.store)
    (hread' : Recorded enrollmentId amount u₀.store) :
    PutBack enrollmentId amount pid pid' t' u := by
  have hstart : ∀ s, Opening s → Coherent s := fun _ h => h.coherent
  obtain ⟨ch', hstep', hchanged'⟩ := hcommit
  have hsecond : Sys.Passage store Job.program (fun _ _ _ => True) Opening pid'
      (.amendMigratedPayment enrollmentId newAmount' schoolId' actor' reason') u₀ u u' :=
    ⟨h'.leads (h.leads.trans hlead), ch', hstep', trivial, hchanged'⟩
  obtain ⟨v, v', e, hv, hstep, -, hv', hbefore, hafter⟩ := hlead.crossing
    (P := fun s => Recorded enrollmentId amount s.store) (correction_finds_recorded h hread).2
    (correction_finds_recorded hsecond hread').1
  have hreach : Sys.Reach store Job.program (fun _ _ _ => True) Opening v :=
    (h.leads.trans hv).reach (fun _ _ _ h => h) h.reached
  have hplan : ∃ plan, v.store.enrollments.lookup enrollmentId = some plan := by
    obtain ⟨plan, hplan⟩ := hread.plan (reach_coherent hstart h.reach)
    obtain ⟨plan', hplan', -⟩ := (leads_stable h.reach (h.leads_begun.trans
      (h.leads.trans hv))).enrollments _ _ hplan
    exact ⟨plan', hplan'⟩
  obtain ⟨hchanged, third, ch, x, rfl, hx, hmay⟩ :=
    recorded_by_correction hreach hstep hplan hbefore hafter
  refine ⟨v, v', third, ch, x, hv, hstep, hv', ?_, ?_, hx, hmay, hbefore, hafter⟩
  · rintro rfl
    exact hbefore (correction_finds_recorded
      ⟨h.toBegun.leads (h.leads.trans hv), ch, hstep, trivial, hchanged⟩ hread).1
  · rintro rfl
    exact hbefore (correction_finds_recorded
      ⟨h'.leads (h.leads.trans hv), ch, hstep, trivial, hchanged⟩ hread').1

/-! ### A correction by itself -/

section Alone

variable {s : Db} {k : Id} {p : Payment} {e : ChildEnrollment}

/-- A correction of the plan `e` with the migrated payment `p` to `newAmount` is in order. -/
def Correctable (enrollmentId : Id) (newAmount : Int) (e : ChildEnrollment) (p : Payment) (s : Db) :
    Prop :=
  0 ≤ newAmount ∧ newAmount ≤ e.totalSchoolFee ∧ newAmount ≠ p.amountPaid ∧
    0 ≤ e.totalSchoolFee - newAmount - Ledger.installmentsConfirmed enrollmentId s

/-- The one migrated payment is what the correction finds, in whatever order the rows come. -/
theorem Coherent.migrated_found (hs : Coherent s) (hp : s.payments.lookup k = some p)
    (hon : p.enrollmentId = enrollmentId) (htype : p.paymentType = .MIGRATED_PAYMENT)
    (hstatus : p.status = .SUCCESS) (order : List Nat) :
    (arrange (Ledger.migratedPayments enrollmentId s) order).head? = some (k, p) := by
  have hrow : (k, p) ∈ Ledger.migratedPayments enrollmentId s :=
    List.mem_filter.mpr ⟨Table.mem_rows.mpr hp, by simp [hon, htype, hstatus]⟩
  cases hhead : (arrange (Ledger.migratedPayments enrollmentId s) order).head? with
  | none =>
    rw [arrange_eq_nil hhead] at hrow
    cases hrow
  | some r =>
    obtain ⟨hmem, hcond⟩ := List.mem_filter.mp (mem_of_mem_arrange (List.mem_of_head? hhead))
    simp only [decide_eq_true_eq] at hcond
    obtain ⟨hon', htype', -⟩ := hcond
    have hr := Table.mem_rows.mp hmem
    have hk : r.1 = k := hs.one_migrated r.1 k r.2 p hr hp htype' htype (hon'.trans hon.symm)
    rw [hk, hp] at hr
    rw [← hk, Option.some.inj hr]

theorem amendMigratedPayment_smooth (hs : Coherent s)
    (he : s.enrollments.lookup enrollmentId = some e) (hschool : e.schoolId = schoolId)
    (hp : s.payments.lookup k = some p) (hon : p.enrollmentId = enrollmentId)
    (htype : p.paymentType = .MIGRATED_PAYMENT) (hstatus : p.status = .SUCCESS) :
    (Ledger.amendMigratedPayment enrollmentId newAmount schoolId actor reason).smooth store
      (fun _ _ => Correctable enrollmentId newAmount e p s)
      (fun _ _ => ¬ Correctable enrollmentId newAmount e p s) (.init s) := by
  obtain ⟨plan, hplan, rfl⟩ := hs.plan? he
  unfold Ledger.amendMigratedPayment
  refine Routine.wp_bind (Routine.wp_throwIf (fun hneg hC => ?_) fun hnonneg => ?_)
  · exact absurd hC.1 (not_le.mpr hneg)
  refine Routine.wp_bind (Routine.smooth_query (.init s) fun y hy => ?_)
  simp only [Option.getD_none, hplan, Option.filter_some, hschool, decide_true, if_true,
    Option.map_some]
  refine Routine.wp_bind (Routine.wp_orThrow nofun fun found hfound => ?_)
  obtain rfl := Option.some.inj hfound
  refine Routine.wp_bind (Routine.smooth_ask hy fun order y hy => ?_)
  rw [hs.migrated_found hp hon htype hstatus]
  refine Routine.wp_bind (Routine.wp_orThrow nofun fun found hfound => ?_)
  obtain rfl := Option.some.inj hfound
  refine Routine.wp_bind (Routine.wp_throwIf (fun hfee hC => ?_) fun hfee => ?_)
  · exact absurd hC.2.1 (not_le.mpr hfee)
  refine Routine.wp_bind (Routine.wp_throwIf (fun hsame hC => ?_) fun hdiffers => ?_)
  · exact hC.2.2.1 hsame.symm
  refine Routine.wp_bind (Routine.smooth_transaction hy fun y hy => ?_)
  refine Routine.wp_bind (lockEnrollment_smooth hy fun y hy => ?_)
  rw [he]
  refine Routine.wp_bind (Routine.wp_orThrow nofun fun locked hlocked => ?_)
  obtain rfl := Option.some.inj hlocked
  refine Routine.wp_bind (Routine.smooth_query hy fun y hy => ?_)
  refine Routine.wp_bind (Routine.wp_throwIf (fun hover => ?_) fun hwithin => ?_)
  · exact ⟨⟨s, hy⟩, fun _ _ hC => absurd hC.2.2.2 (not_le.mpr hover)⟩
  have hC : Correctable enrollmentId newAmount plan.row p s :=
    ⟨not_lt.mp hnonneg, not_lt.mp hfee, Ne.symm hdiffers, not_lt.mp hwithin⟩
  refine Routine.wp_bind (updatePayments_smooth hy hp (by simp [htype, hstatus]) fun y hy => ?_)
  refine Routine.wp_bind (Routine.wp_throwIf nofun fun _ => ?_)
  refine Routine.wp_bind (updateEnrollment_smooth hy he fun y hy => ?_)
  refine Routine.wp_bind (restateInvite_smooth hy fun _ y hy => ?_)
  refine Routine.wp_bind (record_smooth hy fun w y hy => ?_)
  refine ⟨w, hy, fun y hy => ?_⟩
  -- The change is made; what is still asked for cannot undo it.
  refine Routine.wp_bind (emitChanges_smooth hy fun y hy => ?_)
  refine Routine.wp_bind (Routine.wp_tryCatch (createNotification_smooth hy (fun _ _ => hC) ?_))
  exact fun _ _ _ => hC

end Alone

/-! ### All of it -/

/-- What a call has done that ended in `r` between `s` and `t`. -/
def Settled (pid : Nat) (enrollmentId : Id) (newAmount : Int) (j : Job) (s t : Service)
    (r : Except Err Reply) : Prop :=
  match r with
  | .ok _ => ∃ t₀ u u' e e', Sys.Leads store Job.program (fun _ _ _ => True) s t₀ ∧
      Sys.Passage store Job.program (fun _ _ _ => True) Opening pid j t₀ u u' ∧
      Sys.Leads store Job.program (fun _ _ _ => True) u' t ∧
      u.store.enrollments.lookup enrollmentId = some e ∧
      u'.store.enrollments.lookup enrollmentId = some e' ∧
      Corrected newAmount (Ledger.installmentsConfirmed enrollmentId u.store) e e'
  | .error _ => ¬ Sys.Commits store Job.program (fun _ _ _ => True) pid s t

theorem amendMigratedPayment_settled {s t : Service}
    {p q : Proc Job Db Write Answer (Except Err Reply)} {r : Except Err Reply}
    (hs : Sys.Reach store Job.program (fun _ _ _ => True) Opening s)
    (hp : s.procs[pid]? = some p)
    (hj : p.job = .amendMigratedPayment enrollmentId newAmount schoolId actor reason)
    (hunmoved : p.Unmoved Job.program)
    (hlead : Sys.Leads store Job.program (fun _ _ _ => True) s t) (hq : t.procs[pid]? = some q)
    (hr : q.prog = .ret r) : Settled pid enrollmentId newAmount p.job s t r := by
  have hiff := amendMigratedPayment_settles hs hp hj hunmoved hlead hq hr
  cases r with
  | error e => exact fun hcommits => nomatch hiff.mpr hcommits
  | ok a =>
    have hcommits := hiff.mp ⟨a, rfl⟩
    rcases lt_or_ge newAmount 0 with hneg | hnonneg
    · -- Refused before it has read anything, such a call changes nothing.
      have hends : s.Ending (fun _ _ r => ∀ a, r ≠ .ok a) pid false := by
        refine ⟨p, false, hp, ?_, nofun⟩
        rw [hunmoved.prog, hj, amendMigratedPayment_refused hneg]
        exact nofun
      obtain ⟨q', c, hq', hfinal, -⟩ := hends.leads hlead
      obtain rfl := Option.some.inj (hq.symm.trans hq')
      rw [hr] at hfinal
      exact absurd rfl (hfinal a)
    · obtain ⟨f, hbegins, -⟩ := amendMigratedPayment_begins
        (amid_session (A := fun _ _ => True) (G := fun _ _ => True))
        enrollmentId newAmount schoolId actor reason
      have hbegun : p.job.action =
          (fun _ => .done) <$> (read (amendedPlan enrollmentId schoolId) >>= f) := by
        simp only [hj, Job.action, hbegins, Routine.throwIf, if_neg (not_lt.mpr hnonneg), pure_bind]
      have hprog : p.job.program = _ :=
        (congrArg ExceptT.run hbegun).trans (Routine.map_query_run _)
      obtain ⟨t₀, u, u', ht₀, hpassage, hu'⟩ := hcommits.passage hs hp hunmoved hprog rfl
      rw [hj] at hpassage
      obtain ⟨⟨e, e', he, he', hcorrected⟩, -⟩ := amendMigratedPayment_commits hpassage
      rw [← hj] at hpassage
      exact ⟨t₀, u, u', e, e', ht₀, hpassage, hu', he, he', hcorrected⟩

end Call

/-- A correction leaves the balance that its figures and what is confirmed at its commit come
    to, or it changes nothing. Of two that have read the same amount both commit only if it was
    put back in between. By itself a correction is refused only for its figures. -/
theorem correction_exact :
    (∀ (enrollmentId schoolId : Id) (newAmount : Int) (actor : AuditActor)
      (reason : Option String) (pid : Nat) (s t : Service)
      (p q : Proc Job Db Write Answer (Except Err Reply)) (r : Except Err Reply),
      Sys.Reach store Job.program (fun _ _ _ => True) Opening s → s.procs[pid]? = some p →
      p.job = .amendMigratedPayment enrollmentId newAmount schoolId actor reason →
      p.Unmoved Job.program → Sys.Leads store Job.program (fun _ _ _ => True) s t →
      t.procs[pid]? = some q → q.prog.result? = some r →
      Settled pid enrollmentId newAmount p.job s t r) ∧
    (∀ (enrollmentId schoolId schoolId' : Id) (newAmount newAmount' amount : Int)
      (actor actor' : AuditActor) (reason reason' : Option String) (pid pid' : Nat)
      (t₀ t t' u₀ u u' : Service),
      Sys.Passage store Job.program (fun _ _ _ => True) Opening pid
        (.amendMigratedPayment enrollmentId newAmount schoolId actor reason) t₀ t t' →
      Sys.Begun store Job.program (fun _ _ _ => True) Opening pid'
        (.amendMigratedPayment enrollmentId newAmount' schoolId' actor' reason') u₀ t →
      Sys.Leads store Job.program (fun _ _ _ => True) t' u →
      (∃ ch, u.step store Job.program (.move pid' ch) = some u' ∧ u'.store ≠ u.store) →
      Recorded enrollmentId amount t₀.store → Recorded enrollmentId amount u₀.store →
      PutBack enrollmentId amount pid pid' t' u) ∧
    ∀ (enrollmentId : Id) (newAmount : Int) (actor : AuditActor) (reason : Option String)
      (t : Service) (k : Id) (p : Payment) (e : ChildEnrollment) (ch : Nat → Choice Answer),
      Sys.Reach store Job.program (fun _ _ _ => True) Opening t →
      t.store.enrollments.lookup enrollmentId = some e → t.store.payments.lookup k = some p →
      p.enrollmentId = enrollmentId → p.paymentType = .MIGRATED_PAYMENT → p.status = .SUCCESS →
      (∀ n, (ch n).fault = false) →
      ((∃ a, ((Job.amendMigratedPayment enrollmentId newAmount e.schoolId actor reason).program.alone
          store ch (.init t.store)).1 = .ok a) ↔
        Correctable enrollmentId newAmount e p t.store) := by
  refine ⟨?_, ?_, ?_⟩
  · intro enrollmentId schoolId newAmount actor reason pid s t p q r hs hp hj hunmoved hlead hq hr
    exact amendMigratedPayment_settled hs hp hj hunmoved hlead hq (Prog.eq_ret_of_result hr)
  · intro enrollmentId schoolId schoolId' newAmount newAmount' amount actor actor' reason reason'
      pid pid' t₀ t t' u₀ u u' h h' hlead hcommit hread hread'
    exact correction_restored h h' hlead hcommit hread hread'
  · intro enrollmentId newAmount actor reason t k p e ch ht he hp hon htype hstatus hch
    have hcoh : Coherent t.store := reach_coherent (fun _ h => h.coherent) ht
    have hjob : (Job.amendMigratedPayment enrollmentId newAmount e.schoolId actor
        reason).action.smooth store (fun _ _ => Correctable enrollmentId newAmount e p t.store)
        (fun _ _ => ¬ Correctable enrollmentId newAmount e p t.store) (.init t.store) :=
      wp_map (fun _ _ h => h) (amendMigratedPayment_smooth hcoh he rfl hp hon htype hstatus)
    have hends := Prog.alone_undisturbed hch hjob
    generalize hr : (Job.program _).alone store ch (.init t.store) = r
    rw [Job.program] at hr
    rw [hr] at hends
    obtain ⟨_ | a, y⟩ := r
    · constructor
      · rintro ⟨a, ha⟩
        cases ha
      · exact fun hC => absurd hC hends
    · exact ⟨fun _ => hends, fun _ => ⟨a, rfl⟩⟩

/-! ### An amount that comes back -/

def migratedInvite : IssuedInvite where
  toEnrollmentInvite := invitation
  fee_pos := by decide
  paid_nonneg := by decide
  paid_le := by decide

/-- A correction of the plan `m1`, which has opened at 40000 naira. -/
def correctionTo (newAmount : Int) : Job := .amendMigratedPayment "m1" newAmount "school" owner none

def migratedPlanOpen : List (Event Job Answer) :=
  uninterrupted 0 (.recordMigratedEnrollment "invite" migratedInvite "child" "parent" owner) "m" 8

/-- The payment of the plan `m1` is recorded at this amount. -/
def recordedAt (amount : Int) (s : Db) : Bool :=
  (s.payments.lookup "m3").any fun p => p.enrollmentId = "m1" ∧
    p.paymentType = .MIGRATED_PAYMENT ∧ p.status = .SUCCESS ∧ p.amountPaid = amount

theorem recordedAt_iff {amount : Int} {s : Db} (h : recordedAt amount s = true) :
    Recorded "m1" amount s := by
  obtain ⟨p, hp, hcond⟩ := (Option.any_eq_true _ _).mp h
  obtain ⟨hon, htype, hstatus, hamount⟩ := of_decide_eq_true hcond
  exact ⟨"m3", p, hp, hon, htype, hstatus, hamount⟩

/-- The process has ended well. -/
def endedWell (pid : Nat) (t : Service) : Bool :=
  (t.procs[pid]?).any fun p => (p.prog.result?).any Except.isOk

theorem endedWell_iff {pid : Nat} {t : Service} (h : endedWell pid t = true) :
    ∃ p a, t.procs[pid]? = some p ∧ p.prog.result? = some (.ok a) := by
  obtain ⟨p, hp, h⟩ := (Option.any_eq_true _ _).mp h
  obtain ⟨r, hr, hok⟩ := (Option.any_eq_true _ _).mp h
  cases r with
  | error e => cases hok
  | ok a => exact ⟨p, a, hp, hr⟩

/-- Two corrections read 40000 naira. The first puts 50000 in its place, a third one 40000
    again, and the second then goes through. -/
structure CameBack (t₀ u₀ t t' u u' w : Service) : Prop where
  opened : Sys.exec store Job.program (fun _ _ _ => true)
    (migratedPlanOpen ++ [.spawn (correctionTo 5000000)]) (.init oneFamily) = some t₀
  begins : Sys.exec store Job.program (fun _ _ _ => true)
    (.move 1 (smoothly "a" 0) :: [.spawn (correctionTo 6000000)]) t₀ = some u₀
  both : Sys.exec store Job.program (fun _ _ _ => true)
    (.move 2 (smoothly "b" 0) :: goingOn 1 "a" 1 8) u₀ = some t
  commits : Sys.exec store Job.program (fun _ _ _ => true) [.move 1 (smoothly "a" 9)] t = some t'
  third : Sys.exec store Job.program (fun _ _ _ => true)
    (goingOn 1 "a" 10 3 ++ uninterrupted 3 (correctionTo 4000000) "c" 13 ++ goingOn 2 "b" 1 8) t' =
      some u
  commits' : Sys.exec store Job.program (fun _ _ _ => true) [.move 2 (smoothly "b" 9)] u = some u'
  ends : Sys.exec store Job.program (fun _ _ _ => true) (goingOn 2 "b" 10 3) u' = some w
  facts : t₀.procs.length = 2 ∧ u₀.procs.length = 3 ∧ recordedAt 4000000 t₀.store = true ∧
    recordedAt 4000000 u₀.store = true ∧ recordedAt 5000000 t.store = false ∧ recordedAt 5000000 t'.store = true ∧ recordedAt 6000000 u.store = false ∧
    recordedAt 6000000 u'.store = true ∧ endedWell 1 w = true ∧ endedWell 2 w = true

theorem cameBack : ∃ t₀ u₀ t t' u u' w, CameBack t₀ u₀ t t' u u' w := by
  have hruns : ((Sys.exec store Job.program (fun _ _ _ => true)
      (migratedPlanOpen ++ [.spawn (correctionTo 5000000)]) (.init oneFamily)).any fun t₀ =>
    (Sys.exec store Job.program (fun _ _ _ => true)
      (.move 1 (smoothly "a" 0) :: [.spawn (correctionTo 6000000)]) t₀).any fun u₀ =>
    (Sys.exec store Job.program (fun _ _ _ => true)
      (.move 2 (smoothly "b" 0) :: goingOn 1 "a" 1 8) u₀).any fun t =>
    (Sys.exec store Job.program (fun _ _ _ => true) [.move 1 (smoothly "a" 9)] t).any fun t' =>
    (Sys.exec store Job.program (fun _ _ _ => true) (goingOn 1 "a" 10 3 ++
      uninterrupted 3 (correctionTo 4000000) "c" 13 ++ goingOn 2 "b" 1 8) t').any fun u =>
    (Sys.exec store Job.program (fun _ _ _ => true) [.move 2 (smoothly "b" 9)] u).any fun u' =>
    (Sys.exec store Job.program (fun _ _ _ => true) (goingOn 2 "b" 10 3) u').any fun w =>
      t₀.procs.length = 2 ∧ u₀.procs.length = 3 ∧ recordedAt 4000000 t₀.store = true ∧
        recordedAt 4000000 u₀.store = true ∧ recordedAt 5000000 t.store = false ∧ recordedAt 5000000 t'.store = true ∧
        recordedAt 6000000 u.store = false ∧ recordedAt 6000000 u'.store = true ∧ endedWell 1 w = true ∧
        endedWell 2 w = true) = true := by
    decide +kernel
  obtain ⟨t₀, ht₀, hany⟩ := (Option.any_eq_true _ _).mp hruns
  obtain ⟨u₀, hu₀, hany⟩ := (Option.any_eq_true _ _).mp hany
  obtain ⟨t, ht, hany⟩ := (Option.any_eq_true _ _).mp hany
  obtain ⟨t', ht', hany⟩ := (Option.any_eq_true _ _).mp hany
  obtain ⟨u, hu, hany⟩ := (Option.any_eq_true _ _).mp hany
  obtain ⟨u', hu', hany⟩ := (Option.any_eq_true _ _).mp hany
  obtain ⟨w, hw, hfacts⟩ := (Option.any_eq_true _ _).mp hany
  exact ⟨t₀, u₀, t, t', u, u', w, ht₀, hu₀, ht, ht', hu, hu', hw, of_decide_eq_true hfacts⟩

namespace CameBack

variable {t₀ u₀ t t' u u' w : Service}

theorem first (h : CameBack t₀ u₀ t t' u u' w) :
    Sys.Passage store Job.program (fun _ _ _ => True) Opening 1 (correctionTo 5000000) t₀ t t' := by
  obtain ⟨hpid, -, -, -, hbefore, hafter, -⟩ := h.facts
  obtain ⟨v, hcommit, -, hv⟩ := Sys.exec_cons h.commits
  obtain rfl := Option.some.inj hv
  refine ⟨(Sys.Begun.of_exec (fun _ _ _ _ => trivial) oneFamily_opening h.opened hpid rfl
    h.begins).leads (Sys.Leads.of_exec (fun _ _ _ _ => trivial) .refl h.both), _, hcommit, trivial,
    fun hsame => ?_⟩
  rw [hsame, hbefore] at hafter
  cases hafter

theorem second (h : CameBack t₀ u₀ t t' u u' w) :
    Sys.Begun store Job.program (fun _ _ _ => True) Opening 2 (correctionTo 6000000) u₀ t := by
  obtain ⟨-, hpid, -⟩ := h.facts
  have hopened : Sys.exec store Job.program (fun _ _ _ => true)
      ((migratedPlanOpen ++ [.spawn (correctionTo 5000000)] ++ [.move 1 (smoothly "a" 0)]) ++
        [.spawn (correctionTo 6000000)]) (.init oneFamily) = some u₀ := by
    rw [List.append_assoc]
    exact Sys.exec_trans h.opened h.begins
  exact .of_exec (fun _ _ _ _ => trivial) oneFamily_opening hopened hpid rfl h.both

theorem commits_second (h : CameBack t₀ u₀ t t' u u' w) :
    ∃ ch, u.step store Job.program (.move 2 ch) = some u' ∧ u'.store ≠ u.store := by
  obtain ⟨-, -, -, -, -, -, hbefore, hafter, -⟩ := h.facts
  obtain ⟨v, hcommit, -, hv⟩ := Sys.exec_cons h.commits'
  obtain rfl := Option.some.inj hv
  refine ⟨_, hcommit, fun hsame => ?_⟩
  rw [hsame, hbefore] at hafter
  cases hafter

theorem leads_third (h : CameBack t₀ u₀ t t' u u' w) :
    Sys.Leads store Job.program (fun _ _ _ => True) t' u :=
  Sys.Leads.of_exec (fun _ _ _ _ => trivial) .refl h.third

end CameBack

/-- Without the third correction the law says too much. -/
theorem correction_exact_needs_putBack :
    ¬ ∀ (enrollmentId schoolId schoolId' : Id) (newAmount newAmount' amount : Int)
      (actor actor' : AuditActor) (reason reason' : Option String) (pid pid' : Nat)
      (t₀ t t' u₀ u u' w : Service),
      Sys.Passage store Job.program (fun _ _ _ => True) Opening pid
        (.amendMigratedPayment enrollmentId newAmount schoolId actor reason) t₀ t t' →
      Sys.Passage store Job.program (fun _ _ _ => True) Opening pid'
        (.amendMigratedPayment enrollmentId newAmount' schoolId' actor' reason') u₀ u u' →
      pid ≠ pid' → Recorded enrollmentId amount t₀.store → Recorded enrollmentId amount u₀.store →
      Sys.Leads store Job.program (fun _ _ _ => True) u₀ t →
      Sys.Leads store Job.program (fun _ _ _ => True) t' u →
      Sys.Leads store Job.program (fun _ _ _ => True) u' w →
      ¬ (endedWell pid w = true ∧ endedWell pid' w = true) := by
  intro hlaw
  obtain ⟨t₀, u₀, t, t', u, u', w, h⟩ := cameBack
  obtain ⟨-, -, hread, hread', -, -, -, -, hended⟩ := h.facts
  obtain ⟨ch, hstep, hchanged⟩ := h.commits_second
  refine hlaw "m1" "school" "school" 5000000 6000000 4000000 owner owner none none 1 2 t₀ t t' u₀ u
    u' w h.first ⟨h.second.leads (h.first.leads.trans h.leads_third), ch, hstep, trivial, hchanged⟩
    (by decide) (recordedAt_iff hread) (recordedAt_iff hread') h.second.leads_begun h.leads_third
    (Sys.Leads.of_exec (fun _ _ _ _ => trivial) .refl h.ends) hended

/-- The law on this run, and a correction by itself at its end. -/
theorem correction_exact_cameBack : ∃ (t₀ u₀ t t' u u' w : Service) (r : Except Err Reply)
    (p : Payment) (e : ChildEnrollment), CameBack t₀ u₀ t t' u u' w ∧
    Settled 1 "m1" 5000000 (correctionTo 5000000) t₀ w r ∧
    PutBack "m1" 4000000 1 2 t' u ∧
    ((∃ a, ((Job.amendMigratedPayment "m1" 5000000 e.schoolId owner none).program.alone
        store (smoothly "e") (.init t₀.store)).1 = .ok a) ↔
      Correctable "m1" 5000000 e p t₀.store) := by
  obtain ⟨t₀, u₀, t, t', u, u', w, h⟩ := cameBack
  obtain ⟨-, -, hread, hread', -, -, -, -, hended, -⟩ := h.facts
  obtain ⟨p, ch, s', hp, hj, hunmoved, -⟩ := h.first.begins
  obtain ⟨q, a, hq, hr⟩ := endedWell_iff hended
  have hlead : Sys.Leads store Job.program (fun _ _ _ => True) t₀ w :=
    h.first.leads_begun.trans (h.first.leads.trans (h.leads_third.trans
      (Sys.Leads.of_exec (fun _ _ _ _ => trivial)
        (Sys.Leads.of_exec (fun _ _ _ _ => trivial) .refl h.commits') h.ends)))
  have hcoh : Coherent t₀.store := reach_coherent (fun _ h => h.coherent) h.first.reach
  obtain ⟨e, he⟩ := (recordedAt_iff hread).plan hcoh
  obtain ⟨k, m, hm, hon, htype, hstatus, -⟩ := recordedAt_iff hread
  refine ⟨t₀, u₀, t, t', u, u', w, .ok a, m, e, h, ?_, ?_, ?_⟩
  · rw [← hj]
    exact correction_exact.1 "m1" "school" 5000000 owner none 1 t₀ w p q _ h.first.reach hp hj
      hunmoved hlead hq hr
  · exact correction_exact.2.1 "m1" "school" "school" 5000000 6000000 4000000 owner owner none none
      1 2 t₀ t t' u₀ u u' h.first h.second h.leads_third h.commits_second (recordedAt_iff hread)
      (recordedAt_iff hread')
  · exact correction_exact.2.2 "m1" 5000000 owner none t₀ k m e (smoothly "e") h.first.reach he hm
      hon htype hstatus fun _ => rfl

end Lopay
