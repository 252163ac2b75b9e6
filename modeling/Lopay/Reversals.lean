import Lopay.Lifecycle

/-!
# What a reversal does to its plan

`reversePayment` decides on the status of the plan in one statement of its transaction and
writes it in the next. Only between the two can somebody else get in the way: where nobody
changes the status just then, a reversal opens a plan again that was COMPLETED and leaves
every other status as it is.
-/

namespace Lopay

open Transactions

/-- The status of a plan after one of its installments was taken back. -/
def PaymentStatus.reopened : PaymentStatus → PaymentStatus
  | .COMPLETED => .ACTIVE
  | status => status

theorem PaymentStatus.reopened_eq (status : PaymentStatus) :
    status.reopened = if status = .COMPLETED then .ACTIVE else status := by
  cases status <;> rfl

/-- The plan has the same status, up to the difference between COMPLETED and ACTIVE. -/
def SameMark (k : Id) (c s : Db) : Prop :=
  (c.enrollments.lookup k).map (fun e => e.paymentStatus.reopened) =
    (s.enrollments.lookup k).map fun e => e.paymentStatus.reopened

instance (k : Id) (c s : Db) : Decidable (SameMark k c s) := inferInstanceAs (Decidable (_ = _))

/-- The plan that a reversal has read and not written yet: three of its statements have run,
    and in its transaction it has updated the payment only. -/
def deciding? (x : Context) : Option Id :=
  match x.tx with
  | some [.putPayment _ p] => if x.ran = 3 then some p.enrollmentId else none
  | _ => none

/-- Nobody else changes the status of a plan while a reversal decides on it. -/
def LeavesDecisions (t : Service) (e : Event Job Answer) (t' : Service) : Prop :=
  ∀ q ∈ t.others e, q.prog.finished = false → q.job.withdraws?.isSome →
    ∀ k ∈ deciding? q.ctx, SameMark k t.store t'.store

instance (t : Service) (e : Event Job Answer) (t' : Service) : Decidable (LeavesDecisions t e t') :=
  inferInstanceAs (Decidable (∀ q ∈ t.others e, _))

/-- What is known of the plan of a reversal when it commits. -/
def Decided (j : Job) (c s : Db) : Prop :=
  Stable c s ∧ ∀ k ∈ j.withdraws?, ∀ p ∈ s.payments.lookup k, SameMark p.enrollmentId c s

/-- The contract of a job of which nobody changes the decisions. -/
def leaving (j : Job) : Contract Db Write Answer :=
  .plain
    (fun y ws => (∃ kind, Posts Stable kind y.now ws) ∧ (j.withdraws?.isSome →
      ∀ k ∈ deciding? y, SameMark k y.now (store.applyAll ws y.now)))
    (fun y ws => ∃ kind, j.May kind ∧ Posts (Decided j) kind y.now ws)

theorem leaving_session (j : Job) : Session (leaving j) Stable fun _ => Coherent where
  refl := .refl
  trans := fun _ _ _ => .trans
  stable := fun _ _ h => h
  coherent := fun _ _ h => h
  rely := by
    rintro y ws ⟨⟨kind, hposts⟩, -⟩ hcoh
    have hafter := hposts.coherent (fun _ h => h) hcoh
    obtain ⟨entry, hposting, hmade⟩ := id hposts
    exact ⟨hposting.stable hmade, ⟨kind, hposts⟩, hafter⟩
  answers := fun _ _ _ _ _ h => h
  asks := fun _ _ _ _ => trivial

theorem leaving_owes {j : Job} {kind : Kind} (hmay : j.May kind) :
    Owes (leaving j) (Decided j) (fun _ => Coherent) kind := by
  intro y ws hcoh hposts _
  exact ⟨⟨kind, hmay, hposts⟩, hposts.coherent (fun c hc => hc.1) hcoh⟩

theorem leaving_wp (j : Job) {s : Db} (hs : Coherent s) :
    j.program.wp store (leaving j) (fun _ _ => True) (.init s) := by
  have hx : Rests (fun _ => Coherent) false (.init s) := ⟨rfl, hs⟩
  cases hj : j.withdraws? with
  | none =>
    refine Prog.wp_mono (fun _ _ _ => trivial) (Job.posts (leaving_session j)
      (fun _ _ _ _ h => h) (fun _ _ => trivial) j ?_ hx)
    intro kind hmay y ws hcoh hposts hadmits
    refine leaving_owes hmay y ws hcoh (hposts.mono fun c s h => ⟨h, ?_⟩) hadmits
    rw [hj]
    exact nofun
  | some paymentId =>
    cases j with
    | reversePayment paymentId schoolId actor reason =>
      obtain rfl := Option.some.inj hj
      have hreverses : (Ledger.reversePayment paymentId schoolId actor reason).wp store
          (leaving (.reversePayment paymentId schoolId actor reason))
          (fun _ => Rests (fun _ => Coherent) false) (fun _ => Rests (fun _ => Coherent) false)
          (.init s) := by
        refine reversePayment_watched (W := SameMark) (leaving_session _) (fun _ _ => rfl) ?_ ?_ ?_
          hx
        · intro k c s t hrow hsame
          rw [SameMark, ← hrow]
          exact hsame
        · rintro u ws p c hran htx ⟨-, hleft⟩ hsame
          have hdeciding : p.enrollmentId ∈ deciding? u := by
            rw [deciding?, htx]
            exact if_pos hran
          exact hsame.trans (hleft rfl _ hdeciding)
        · intro y ws hcoh hposts hadmits
          have hmay : (Job.reversePayment paymentId schoolId actor reason).May
            (.reverse paymentId) := rfl
          refine leaving_owes hmay y ws hcoh (hposts.mono fun c s h => ⟨h.1, ?_⟩) hadmits
          rintro k ⟨⟩ p hp
          exact h.2 p hp
      exact wp_map_run hreverses
    | _ => cases hj

theorem leaving_discipline :
    Discipline store Job.program LeavesDecisions leaving (fun _ _ _ => True) Coherent := by
  constructor
  · exact fun _ _ j _ hs => leaving_wp j hs
  · exact fun _ _ _ _ _ _ _ _ _ => trivial
  · exact fun _ _ _ _ _ _ _ _ => trivial
  · exact fun _ _ _ _ _ _ _ _ _ _ _ => trivial
  · rintro t t' pid ch p ws - - - hnow hstore ⟨kind, -, hposts⟩ hcoh
    rw [hstore]
    rw [hnow] at hposts
    exact hposts.coherent (fun c hc => hc.1) hcoh
  · rintro t t' pid ch p i q ws hguard - hq hne hrun - hnow hqnow hstore ⟨kind, -, hposts⟩ -
    have hmem : q ∈ t.others (.move pid ch) := List.mem_eraseIdx_iff_getElem?.mpr ⟨i, hne, hq⟩
    have hleft := hguard q hmem hrun
    rw [hnow] at hposts
    rw [hstore] at hleft
    refine ⟨⟨kind, ?_⟩, ?_⟩
    · rw [hqnow]
      exact hposts.mono fun c s h => h.1
    · rw [hqnow]
      exact hleft

theorem may_of_withdraws {j : Job} {k : Id} {kind : Kind} (hj : j.withdraws? = some k)
    (hmay : j.May kind) : kind = .reverse k := by
  cases j with
  | reversePayment paymentId =>
    obtain rfl := Option.some.inj hj
    exact hmay
  | _ => cases hj

variable {t t' : Service}

/-- A reversal in any interleaving in which nobody gets between its read and its write. -/
theorem reversal_reopens (ht : Sys.Reach store Job.program LeavesDecisions Opening t) {pid : Nat}
    {ch : Choice Answer} (hstep : t.step store Job.program (.move pid ch) = some t')
    (hleft : LeavesDecisions t (.move pid ch) t') {x : Proc Job Db Write Answer (Except Err Reply)}
    (hx : t.procs[pid]? = some x) {paymentId : Id} (hj : x.job.withdraws? = some paymentId)
    (hchanged : t'.store ≠ t.store) :
    ∃ p e e', t.store.payments.lookup paymentId = some p ∧
      t.store.enrollments.lookup p.enrollmentId = some e ∧
      t'.store.enrollments.lookup p.enrollmentId = some e' ∧
      e'.paymentStatus = e.paymentStatus.reopened ∧
      ∀ k ≠ p.enrollmentId, t'.store.enrollments.lookup k = t.store.enrollments.lookup k := by
  have hgood := ht.good leaving_discipline fun _ h => h.coherent
  rcases hgood.committed leaving_discipline hstep hleft with
    hsame | ⟨pid', ch', x', ws, hmove, hx', -, hnow, ⟨kind, hmay, hposts⟩, hstore⟩
  · exact absurd hsame hchanged
  obtain ⟨rfl, rfl⟩ := Event.move.inj hmove
  obtain rfl := Option.some.inj (hx.symm.trans hx')
  obtain rfl := may_of_withdraws hj hmay
  rw [hnow] at hposts
  obtain ⟨entry, hposting, hmade⟩ := hposts
  rw [← hstore] at hmade
  cases hposting with
  | @reverse _ p e before c _ hp _ _ _ he hc _ hbefore =>
    have hplan : ∀ k, t'.store.enrollments.lookup k = if k = p.enrollmentId then
        some (e.restored p.amountPaid before) else t.store.enrollments.lookup k :=
      hmade.enrollments
    refine ⟨p, e, _, hp, he, (hplan _).trans (if_pos rfl), ?_, fun k hk =>
      (hplan k).trans (if_neg hk)⟩
    -- The status that was read is the status of the plan, as far as it matters.
    have hsame := hc.2 paymentId hj p hp
    rw [SameMark, hbefore, he] at hsame
    have hmarked : before.paymentStatus.reopened = e.paymentStatus.reopened :=
      Option.some.inj hsame
    rw [← hmarked, PaymentStatus.reopened_eq]
    rfl
  | close _ hcloses => exact hcloses.elim

/-- The school is about to take back the installment `x4` that it has confirmed. -/
def reversalDue : List (Event Job Answer) :=
  uninterrupted 0 (.enrollChild (enrollment none) "parent") "a" 18 ++
  uninterrupted 1 (.settleFirstPayment "a8" admin) "b" 12 ++
  uninterrupted 2 (.submitInstallmentPayment "a6" 25000 parentUser none none) "x" 10 ++
  uninterrupted 3 (.confirmPayment "x4" "school" owner) "c" 11 ++
  [.spawn (.reversePayment "x4" "school" owner none)]

theorem reversal_reopens_undisturbed : ∃ (t t' : Service) (p : Payment) (e e' : ChildEnrollment),
    Sys.exec store Job.program (fun t e t' => decide (LeavesDecisions t e t'))
      (reversalDue ++ goingOn 4 "d" 0 8) (.init oneFamily) = some t ∧
    t.step store Job.program (.move 4 (smoothly "d" 8)) = some t' ∧
    t.store.payments.lookup "x4" = some p ∧
    t.store.enrollments.lookup p.enrollmentId = some e ∧
    t'.store.enrollments.lookup p.enrollmentId = some e' ∧
    e'.paymentStatus = e.paymentStatus.reopened := by
  have hruns : ((Sys.exec store Job.program (fun t e t' => decide (LeavesDecisions t e t'))
      (reversalDue ++ goingOn 4 "d" 0 8) (.init oneFamily)).any fun t =>
        (t.step store Job.program (.move 4 (smoothly "d" 8))).any fun t' =>
          (t.procs[4]?).any fun x => x.job.withdraws? = some "x4" ∧
            t'.store.auditLogs.length ≠ t.store.auditLogs.length ∧
            LeavesDecisions t (.move 4 (smoothly "d" 8)) t') = true := by
    decide +kernel
  obtain ⟨t, ht, hany⟩ := (Option.any_eq_true _ _).mp hruns
  obtain ⟨t', ht', hany⟩ := (Option.any_eq_true _ _).mp hany
  obtain ⟨x, hx, hcond⟩ := (Option.any_eq_true _ _).mp hany
  obtain ⟨hj, hlogs, hleft⟩ := of_decide_eq_true hcond
  have hreach : Sys.Reach store Job.program LeavesDecisions Opening t :=
    Sys.reach_of_exec (fun _ _ _ h => of_decide_eq_true h) (.init oneFamily_opening) ht
  obtain ⟨p, e, e', hp, he, he', hstatus, -⟩ := reversal_reopens hreach ht' hleft hx hj
    fun h => hlogs (congrArg (fun s => s.auditLogs.length) h)
  exact ⟨t, t', p, e, e', ht, ht', hp, he, he', hstatus⟩

/-- The reversal has read that the plan is ACTIVE when the school marks it as DEFAULTED. -/
def markedMeanwhile : List (Event Job Answer) :=
  reversalDue ++ goingOn 4 "d" 0 4 ++
  uninterrupted 5 (.markEnrollmentAsDefaulted "a6" "school" owner) "m" 7 ++ goingOn 4 "d" 4 4

/-- It then makes the plan ACTIVE again. -/
theorem reversal_reopens_needs_condition :
    ¬ ∀ (t t' : Service) pid ch x paymentId,
      Sys.Reach store Job.program (fun _ _ _ => True) Opening t →
      t.step store Job.program (.move pid ch) = some t' → t.procs[pid]? = some x →
      x.job.withdraws? = some paymentId → t'.store ≠ t.store →
      ∀ p e e', t.store.payments.lookup paymentId = some p →
        t.store.enrollments.lookup p.enrollmentId = some e →
        t'.store.enrollments.lookup p.enrollmentId = some e' →
        e'.paymentStatus = e.paymentStatus.reopened := by
  intro hlaw
  have hruns : ((Sys.exec store Job.program (fun _ _ _ => true) markedMeanwhile
      (.init oneFamily)).any fun t => (t.step store Job.program (.move 4 (smoothly "d" 8))).any
        fun t' => (t.procs[4]?).any fun x => (t.store.payments.lookup "x4").any fun p =>
          (t.store.enrollments.lookup p.enrollmentId).any fun e =>
          (t'.store.enrollments.lookup p.enrollmentId).any fun e' =>
            x.job.withdraws? = some "x4" ∧
            t'.store.auditLogs.length ≠ t.store.auditLogs.length ∧
            e'.paymentStatus ≠ e.paymentStatus.reopened) = true := by
    decide +kernel
  obtain ⟨t, ht, hany⟩ := (Option.any_eq_true _ _).mp hruns
  obtain ⟨t', ht', hany⟩ := (Option.any_eq_true _ _).mp hany
  obtain ⟨x, hx, hany⟩ := (Option.any_eq_true _ _).mp hany
  obtain ⟨p, hp, hany⟩ := (Option.any_eq_true _ _).mp hany
  obtain ⟨e, he, hany⟩ := (Option.any_eq_true _ _).mp hany
  obtain ⟨e', he', hcond⟩ := (Option.any_eq_true _ _).mp hany
  obtain ⟨hj, hlogs, hwrong⟩ := of_decide_eq_true hcond
  have hreach : Sys.Reach store Job.program (fun _ _ _ => True) Opening t :=
    Sys.reach_of_exec (fun _ _ _ _ => trivial) (.init oneFamily_opening) ht
  exact hwrong (hlaw t t' 4 _ x "x4" hreach ht' hx hj
    (fun h => hlogs (congrArg (fun s => s.auditLogs.length) h)) p e e' hp he he')

end Lopay
