import Lopay.Books.Jobs
import Lopay.Transactions.Runs

/-!
# What a reconcile reports

`reconcilePaystackPayment` reads the payment and flips it in a guarded update, and takes an update
that finds nothing for one that another reconcile has forestalled. Where nobody takes an open
payment elsewhere than to SUCCESS between the two, that is so: whatever is reported as reconciled
has been SUCCESS during the call, and every conflict has claimed the alert.
-/

namespace Lopay

open Transactions

/-- The reference that a call reconciles. -/
def Job.reconciles? : Job → Option String
  | reconcilePaystackPayment reference .. => some reference
  | _ => none

/-- Nobody else takes an open payment elsewhere than to SUCCESS while a call that has read it has
    not come to its update: one of its statements has run. -/
def LeavesOpen (t : Service) (e : Event Job Answer) (t' : Service) : Prop :=
  ∀ q ∈ t.others e, q.prog.finished = false → q.ctx.ran = 1 → ∀ reference ∈ q.job.reconciles?,
    ∀ k, Open reference k t.store → Open reference k t'.store ∨ Paid reference t'.store

/-- The contract of a job whose reconcile is not overtaken. -/
def watching (j : Job) : Contract Db Write Answer :=
  .plain
    (fun y ws => (∃ kind, Posts Stable kind y.now ws) ∧ (y.ran = 1 →
      ∀ reference ∈ j.reconciles?, ∀ k, Open reference k y.now →
        Open reference k (store.applyAll ws y.now) ∨ Paid reference (store.applyAll ws y.now)))
    (fun y ws => ∃ kind, j.May kind ∧ Posts Stable kind y.now ws)

theorem watching_session (j : Job) : Session (watching j) Stable fun _ => Coherent where
  refl := .refl
  trans := fun _ _ _ => .trans
  stable := fun _ _ h => h
  coherent := fun _ _ h => h
  rely := by
    rintro y ws ⟨⟨kind, hposts⟩, -⟩ hcoh
    have hafter := hposts.coherent (fun _ h => h) hcoh
    rcases id hposts with ⟨entry, hposting, hmade⟩
    exact ⟨hposting.stable hmade, ⟨kind, hposts⟩, hafter⟩
  answers := fun _ _ _ _ _ h => h
  asks := fun _ _ _ _ => trivial

theorem watching_owes {j : Job} {kind : Kind} (hmay : j.May kind) :
    Owes (watching j) Stable (fun _ => Coherent) kind := by
  intro y ws hcoh hposts _
  exact ⟨⟨kind, hmay, hposts⟩, hposts.coherent (fun c hc => hc) hcoh⟩

/-- A reconcile tells the truth about the states it has seen; of other jobs nothing is said. -/
def TellsTruth (j : Job) (r : Except Err Reply) (y : Context) : Prop :=
  ∀ reference ∈ j.reconciles?, ∀ outcome, r = .ok (.reconciled outcome) →
    outcome.Told reference False y

theorem watching_wp (j : Job) {s : Db} (hs : Coherent s) :
    j.program.wp store (watching j) (TellsTruth j) (.init s) := by
  have hx : Rests (fun _ => Coherent) false (.init s) := ⟨rfl, hs⟩
  cases hj : j.reconciles? with
  | none =>
    refine Prog.wp_mono ?_ (Job.posts (watching_session j) (fun _ _ _ _ h => h)
      (fun _ _ => trivial) j (fun _ => watching_owes) hx)
    intro r y _ reference href
    rw [hj] at href
    cases href
  | some reference =>
    cases j with
    | reconcilePaystackPayment reference fee actor =>
      have hwatched : Watched (watching (.reconcilePaystackPayment reference fee actor))
          reference 1 := by
        rintro y ws k hran ⟨-, hleft⟩ hopen
        exact hleft hran reference rfl k hopen
      have htold : (Ledger.reconcilePaystackPayment reference fee actor).wp store
          (watching (.reconcilePaystackPayment reference fee actor))
          (fun outcome y => Rests (fun _ => Coherent) false y ∧ outcome.Told reference False y)
          (fun _ => Rests (fun _ => Coherent) false) (.init s) := by
        have hmay : (Job.reconcilePaystackPayment reference fee actor).May
          (.credit .FIRST_PAYMENT_PAID) := Or.inl rfl
        have hmay' : (Job.reconcilePaystackPayment reference fee actor).May .aside := Or.inr rfl
        exact reconcilePaystackPayment_posts (watching_session _) (watching_owes hmay)
          (watching_owes hmay') hx (Or.inl hwatched)
      have hanswer : (Reply.reconciled <$> Ledger.reconcilePaystackPayment reference fee actor).wp
          store (watching (.reconcilePaystackPayment reference fee actor))
          (fun reply y => ∀ outcome, reply = .reconciled outcome → outcome.Told reference False y)
          (fun _ => Rests (fun _ => Coherent) false) (.init s) := by
        refine wp_map (fun outcome y hy => ?_) htold
        rintro _ ⟨⟩
        exact hy.2
      refine Prog.wp_mono (fun r y hr => ?_) hanswer
      rintro _ ⟨⟩ outcome rfl
      exact hr outcome rfl
    | _ => cases hj

theorem watching_discipline :
    Discipline store Job.program LeavesOpen watching TellsTruth Coherent := by
  constructor
  · exact fun _ _ j _ hs => watching_wp j hs
  · exact fun _ _ _ _ _ _ _ _ _ => trivial
  · exact fun _ _ _ _ _ _ _ _ => trivial
  · exact fun _ _ _ _ _ _ _ _ _ _ _ => trivial
  · rintro t t' pid ch p ws - - - hnow hstore ⟨kind, -, hposts⟩ hcoh
    rw [hstore]
    rw [hnow] at hposts
    exact hposts.coherent (fun c hc => hc) hcoh
  · rintro t t' pid ch p i q ws hguard - hq hne hrun - hnow hqnow hstore ⟨kind, -, hposts⟩ -
    have hmem : q ∈ t.others (.move pid ch) := List.mem_eraseIdx_iff_getElem?.mpr ⟨i, hne, hq⟩
    have hleft := hguard q hmem hrun
    rw [hnow] at hposts
    rw [hstore] at hleft
    refine ⟨⟨kind, ?_⟩, ?_⟩
    · rw [hqnow]
      exact hposts
    · rw [hqnow]
      exact hleft

variable {t : Service}

/-- The payment under this reference is there. -/
def Known (reference : String) (s : Db) : Prop :=
  ∃ k p, s.payments.lookup k = some p ∧ p.paystackReference = some reference

/-- In any interleaving in which nobody overtakes a reconcile: what it reports as reconciled has
    been SUCCESS at some moment of the call, and if there was a payment and it never was, the
    answer is a conflict whose alert was claimed during the call. -/
theorem reconcile_truthful (ht : Sys.Reach store Job.program LeavesOpen Opening t)
    {x : Proc Job Db Write Answer (Except Err Reply)} (hx : x ∈ t.procs) {reference : String}
    (hj : x.job.reconciles? = some reference) {outcome : Ledger.ReconcileOutcome}
    (hanswer : x.prog.result? = some (.ok (.reconciled outcome))) :
    (outcome.reconciled = true → ∃ s ∈ x.ctx.seen, Paid reference s) ∧
    ((∀ s ∈ x.ctx.seen, Known reference s ∧ ¬ Paid reference s) →
      ∃ status, outcome = .statusConflict status ∧
        ∃ s ∈ x.ctx.seen, (s.webhookEvents.lookup (Ledger.conflictKey reference)).isSome) := by
  have hstart : ∀ s, Opening s → Coherent s := fun _ h => h.coherent
  have hgood := ht.good watching_discipline hstart
  have hcoherent : ∀ s ∈ x.ctx.seen, Coherent s :=
    ht.seen (fun _ hreach => (hreach.good watching_discipline hstart).inv) hx
  have htruth := (hgood.procs x hx).wp
  rw [Prog.eq_ret_of_result hanswer] at htruth
  have htold := htruth reference hj outcome rfl
  cases outcome with
  | unknownReference =>
    rcases htold with ⟨s, hs, hnone⟩
    refine ⟨fun h => absurd h (by decide), fun hknown => ?_⟩
    rcases (hknown s hs).1 with ⟨k, p, hp, href⟩
    rcases (hcoherent s hs).paymentByReference? hp href with ⟨payment, hpayment, -⟩
    rw [hnone] at hpayment
    cases hpayment
  | alreadyProcessed =>
    rcases htold with ⟨s, hs, hpaid⟩ | hfalse
    · exact ⟨fun _ => ⟨s, hs, hpaid⟩, fun h => absurd hpaid (h s hs).2⟩
    · exact hfalse.elim
  | completed isCompleted =>
    rcases htold with ⟨s, hs, hpaid⟩
    exact ⟨fun _ => ⟨s, hs, hpaid⟩, fun h => absurd hpaid (h s hs).2⟩
  | statusConflict status =>
    exact ⟨fun h => absurd h (by simp [Ledger.ReconcileOutcome.reconciled]),
      fun _ => ⟨status, rfl, htold.1⟩⟩

/-- Nobody runs beside a reconcile between its two statements. -/
def undivided (t : Service) (e : Event Job Answer) (_ : Service) : Bool :=
  (t.others e).all fun q => q.prog.finished || q.ctx.ran ≠ 1 || q.job.reconciles?.isNone

theorem leavesOpen_of_undivided {t t' : Service} {e : Event Job Answer}
    (h : undivided t e t' = true) : LeavesOpen t e t' := by
  intro q hq hrun hran reference href
  have hdone := List.all_eq_true.mp h q hq
  simp [hrun, hran, Option.mem_def.mp href] at hdone

/-- The answer of a finished reconcile. -/
def outcome? (p : Prog Db Write Answer (Except Err Reply)) : Option Ledger.ReconcileOutcome :=
  match p.result? with
  | some (.ok (.reconciled outcome)) => some outcome
  | _ => none

theorem result_of_outcome {p : Prog Db Write Answer (Except Err Reply)}
    {outcome : Ledger.ReconcileOutcome} (h : outcome? p = some outcome) :
    p.result? = some (.ok (.reconciled outcome)) := by
  unfold outcome? at h
  split at h
  · next hanswer =>
    obtain rfl := Option.some.inj h
    exact hanswer
  · cases h

/-- Paystack reports the open charge as paid, and the parent comes back to the page. -/
def reconcileDue : List (Event Job Answer) :=
  cardChargeOpen ++ [.spawn (.reconcilePaystackPayment "lopay_a7" (some 41250) none)]

theorem reconcile_truthful_undisturbed : ∃ (t : Service)
      (x : Proc Job Db Write Answer (Except Err Reply)) (s : Db),
    Sys.exec store Job.program undivided (reconcileDue ++ goingOn 1 "b" 0 12)
      (.init oneFamily) = some t ∧
    x ∈ t.procs ∧ x.prog.result? = some (.ok (.reconciled (.completed false))) ∧
    s ∈ x.ctx.seen ∧ Paid "lopay_a7" s := by
  have hruns : ((Sys.exec store Job.program undivided (reconcileDue ++ goingOn 1 "b" 0 12)
      (.init oneFamily)).any fun t => (t.procs[1]?).any fun x =>
        x.job.reconciles? = some "lopay_a7" ∧ outcome? x.prog = some (.completed false)) = true := by
    decide +kernel
  rcases (Option.any_eq_true _ _).mp hruns with ⟨t, ht, hany⟩
  rcases (Option.any_eq_true _ _).mp hany with ⟨x, hx, hcond⟩
  rcases of_decide_eq_true hcond with ⟨hj, hdone⟩
  have hanswer := result_of_outcome hdone
  have hreach : Sys.Reach store Job.program LeavesOpen Opening t :=
    Sys.reach_of_exec (fun _ _ _ => leavesOpen_of_undivided) (.init oneFamily_opening) ht
  have hmem := List.mem_of_getElem? hx
  rcases (reconcile_truthful hreach hmem hj hanswer).1 rfl with ⟨s, hs, hpaid⟩
  exact ⟨t, x, s, ht, hmem, hanswer, hs, hpaid⟩

/-- The call has read that the payment is open when a sweep or a late event marks it as FAILED. -/
def failedMeanwhile : List (Event Job Answer) :=
  reconcileDue ++ goingOn 1 "b" 0 1 ++ uninterrupted 2 (.failPaystackPayment "lopay_a7") "f" 8 ++
    goingOn 1 "b" 1 4

/-- It then reports that the payment has been processed, which it never was. -/
theorem reconcile_truthful_needs_condition :
    ¬ ∀ (t : Service) (x : Proc Job Db Write Answer (Except Err Reply)) reference outcome,
      Sys.Reach store Job.program (fun _ _ _ => True) Opening t → x ∈ t.procs →
      x.job.reconciles? = some reference → x.prog.result? = some (.ok (.reconciled outcome)) →
      outcome.reconciled = true → ∃ s ∈ x.ctx.seen, Paid reference s := by
  intro hlaw
  have hruns : ((Sys.exec store Job.program (fun _ _ _ => true) failedMeanwhile
      (.init oneFamily)).any fun t => (t.procs[1]?).any fun x =>
        x.job.reconciles? = some "lopay_a7" ∧ outcome? x.prog = some .alreadyProcessed ∧
          ∀ s ∈ x.ctx.seen, ∀ r ∈ s.payments.rows, r.2.status ≠ .SUCCESS) = true := by
    decide +kernel
  rcases (Option.any_eq_true _ _).mp hruns with ⟨t, ht, hany⟩
  rcases (Option.any_eq_true _ _).mp hany with ⟨x, hx, hcond⟩
  rcases of_decide_eq_true hcond with ⟨hj, hdone, hnever⟩
  have hreach : Sys.Reach store Job.program (fun _ _ _ => True) Opening t :=
    Sys.reach_of_exec (fun _ _ _ _ => trivial) (.init oneFamily_opening) ht
  rcases hlaw t x "lopay_a7" .alreadyProcessed hreach (List.mem_of_getElem? hx) hj
    (result_of_outcome hdone) rfl with ⟨s, hs, k, p, hp, -, hstatus⟩
  exact hnever s hs (k, p) (Table.mem_rows.mpr hp) hstatus

end Lopay
