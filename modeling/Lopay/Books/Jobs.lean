import Lopay.Books.InitiationPosts
import Lopay.Transactions.Soundness

/-!
# The jobs of the service

A `Job` is one call of a service method with its arguments. `Job.May` lists the postings
it can make, and `Job.posts` is the theorem about every method at once: whatever runs
beside it, it commits nothing else. From it follow the two rules that the results about
runs use: `serial_invariant`, for jobs run one after the other, and `reach_committed`,
for any interleaving of their statements.
-/

namespace Lopay

open Transactions

/-- An invite as the CHECK constraints of its table admit it. -/
structure IssuedInvite extends EnrollmentInvite where
  fee_pos : 0 < totalSchoolFee
  paid_nonneg : 0 ≤ amountAlreadyPaid
  paid_le : amountAlreadyPaid ≤ totalSchoolFee

inductive Job where
  | initiateFirstPayment (env : Environment) (dto : CreateEnrollmentDto) (userId : Id)
  | enrollChild (dto : CreateEnrollmentDto) (userId : Id)
  | submitInstallmentPayment (enrollmentId : Id) (amountPaid : ℚ) (user : AuthUser)
      (receiptUrl idempotencyKey : Option String)
  | confirmPayment (paymentId schoolId : Id) (actor : AuditActor)
  | rejectPayment (paymentId schoolId : Id) (actor : AuditActor)
  | reversePayment (paymentId schoolId : Id) (actor : AuditActor) (reason : Option String)
  | settleFirstPayment (paymentId : Id) (actor : AuditActor)
  | rejectFirstPayment (paymentId : Id) (actor : AuditActor)
  | confirmFirstPayment (enrollmentId schoolId : Id) (actor : AuditActor)
  | reconcilePaystackPayment (reference : String) (fee : Option Int) (actor : Option AuditActor)
  | failPaystackPayment (reference : String)
  | reversePaystackPaymentByDispute (reference eventType : String)
  | processPaystackWebhookEvent (event : PaystackWebhookEvent)
  | runSweep
  | recordMigratedEnrollment (inviteId : Id) (invite : IssuedInvite) (childId parentUserId : Id)
      (actor : AuditActor)
  | amendMigratedPayment (enrollmentId : Id) (newAmountKobo : Int) (schoolId : Id)
      (actor : AuditActor) (reason : Option String)
  | markEnrollmentAsDefaulted (enrollmentId schoolId : Id) (actor : AuditActor)
  | markEnrollmentDefaultedBySweep (enrollment : Plan)
  | runDetection

/-- What a job answers, as far as the caller's next step depends on it. -/
inductive Reply where
  | initiated (reply : Enrollment.InitiationReply)
  | reconciled (outcome : Ledger.ReconcileOutcome)
  | received (reply : Enrollment.WebhookReply)
  | done

namespace Job

def action : Job → Action Reply
  | initiateFirstPayment env dto userId =>
    Reply.initiated <$> Enrollment.initiateFirstPayment env dto userId
  | enrollChild dto userId => (fun _ => .done) <$> Enrollment.enrollChild dto userId
  | submitInstallmentPayment enrollmentId amountPaid user receiptUrl idempotencyKey =>
    (fun _ => .done) <$> Enrollment.submitInstallmentPayment enrollmentId amountPaid user receiptUrl
      idempotencyKey
  | confirmPayment paymentId schoolId actor =>
    (fun _ => .done) <$> Ledger.confirmPayment paymentId schoolId actor
  | rejectPayment paymentId schoolId actor =>
    (fun _ => .done) <$> Ledger.rejectPayment paymentId schoolId actor
  | reversePayment paymentId schoolId actor reason =>
    (fun _ => .done) <$> Ledger.reversePayment paymentId schoolId actor reason
  | settleFirstPayment paymentId actor =>
    (fun _ => .done) <$> Ledger.settleFirstPayment paymentId actor
  | rejectFirstPayment paymentId actor =>
    (fun _ => .done) <$> Ledger.rejectFirstPayment paymentId actor
  | confirmFirstPayment enrollmentId schoolId actor =>
    (fun _ => .done) <$> Ledger.confirmFirstPayment enrollmentId schoolId actor
  | reconcilePaystackPayment reference fee actor =>
    Reply.reconciled <$> Ledger.reconcilePaystackPayment reference fee actor
  | failPaystackPayment reference => (fun _ => .done) <$> Ledger.failPaystackPayment reference
  | reversePaystackPaymentByDispute reference eventType =>
    (fun _ => .done) <$> Ledger.reversePaystackPaymentByDispute reference eventType
  | processPaystackWebhookEvent event =>
    Reply.received <$> Enrollment.processPaystackWebhookEvent event
  | runSweep => (fun _ => .done) <$> PaystackReconciliation.runSweep
  | recordMigratedEnrollment inviteId invite childId parentUserId actor =>
    (fun _ => .done) <$> transaction (Ledger.recordMigratedEnrollment inviteId
      invite.toEnrollmentInvite childId parentUserId actor)
  | amendMigratedPayment enrollmentId newAmountKobo schoolId actor reason =>
    (fun _ => .done) <$> Ledger.amendMigratedPayment enrollmentId newAmountKobo schoolId actor reason
  | markEnrollmentAsDefaulted enrollmentId schoolId actor =>
    (fun _ => .done) <$> Ledger.markEnrollmentAsDefaulted enrollmentId schoolId actor
  | markEnrollmentDefaultedBySweep enrollment =>
    (fun _ => .done) <$> Ledger.markEnrollmentDefaultedBySweep enrollment
  | runDetection => (fun _ => .done) <$> DefaulterDetection.runDetection

def program (j : Job) : Prog Db Write Answer (Except Err Reply) := j.action.run

/-- What a job may post. -/
def May : Job → Kind → Prop
  | initiateFirstPayment .., kind => kind.Charges
  | enrollChild .., kind => kind = .aside ∨ kind = .openPlan none ∨ kind = .reopenPlan none
  | submitInstallmentPayment .., kind => kind = .releaseKey ∨ kind = .submit
  | confirmPayment paymentId .., kind => kind = .confirm paymentId
  | rejectPayment paymentId schoolId _, kind => kind = .reject paymentId schoolId
  | reversePayment paymentId .., kind => kind = .reverse paymentId
  | settleFirstPayment .., kind => kind = .credit .FIRST_PAYMENT_SETTLED
  | rejectFirstPayment paymentId _, kind => kind = .rejectFirst paymentId
  | confirmFirstPayment .., kind => kind = .credit .FIRST_PAYMENT_CONFIRMED
  | reconcilePaystackPayment .., kind => kind = .credit .FIRST_PAYMENT_PAID ∨ kind = .aside
  | failPaystackPayment reference, kind => kind = .fail reference
  | reversePaystackPaymentByDispute reference _, kind => kind = .dispute reference
  | processPaystackWebhookEvent event, kind => kind = .credit .FIRST_PAYMENT_PAID ∨
      kind = .aside ∨ (∃ reference, kind = .fail reference) ∨
      (Enrollment.Disputes event ∧ ∃ reference, kind = .dispute reference)
  | runSweep, kind => kind = .credit .FIRST_PAYMENT_PAID ∨ kind = .aside ∨
      ∃ reference, kind = .fail reference
  | recordMigratedEnrollment .., kind => kind = .migrate
  | amendMigratedPayment .., kind => kind = .amend
  | markEnrollmentAsDefaulted enrollmentId .., kind => kind = .markDefaulted enrollmentId
  | markEnrollmentDefaultedBySweep _, kind => kind = .sweepDefaulted
  | runDetection, kind => kind = .sweepDefaulted

/-- The jobs that can take a captured card payment back. -/
def Disputes : Job → Prop
  | reversePaystackPaymentByDispute .. => True
  | processPaystackWebhookEvent event => Enrollment.Disputes event
  | _ => False

instance (j : Job) : Decidable j.Disputes :=
  match j with
  | reversePaystackPaymentByDispute .. => isTrue trivial
  | processPaystackWebhookEvent _ => inferInstanceAs (Decidable (_ ∨ _))
  | initiateFirstPayment .. | enrollChild .. | submitInstallmentPayment .. | confirmPayment ..
  | rejectPayment .. | reversePayment .. | settleFirstPayment .. | rejectFirstPayment ..
  | confirmFirstPayment .. | reconcilePaystackPayment .. | failPaystackPayment .. | runSweep
  | recordMigratedEnrollment .. | amendMigratedPayment .. | markEnrollmentAsDefaulted ..
  | markEnrollmentDefaultedBySweep _ | runDetection => isFalse fun h => h

theorem may_dispute {j : Job} {reference : String} (h : j.May (.dispute reference)) :
    j.Disputes := by
  cases j with
  | reversePaystackPaymentByDispute => trivial
  | processPaystackWebhookEvent event =>
    rcases h with h | h | ⟨_, h⟩ | ⟨h, -⟩
    · cases h
    · cases h
    · cases h
    · exact h
  | initiateFirstPayment => exact h.elim
  | enrollChild | submitInstallmentPayment | reconcilePaystackPayment | runSweep =>
    simp [May] at h
  | _ => cases h

/-- The payment whose confirmation a school withdraws. -/
def withdraws? : Job → Option Id
  | reversePayment paymentId .. => some paymentId
  | _ => none

theorem withdraws_of_may {j : Job} {k : Id} (h : j.May (.reverse k)) : j.withdraws? = some k := by
  cases j <;> simp [May, Kind.Charges, withdraws?] at h ⊢
  exact h.symm

end Job

section Posts

variable {K : Contract Db Write Answer} {E : Db → Db → Prop} {I : Exchanges → Db → Prop}
  {x : Context} {α β : Type}

theorem wp_map {m : Action α} {f : α → β} {ok : α → Context → Prop} {ok' : β → Context → Prop}
    {err : Err → Context → Prop} (hok : ∀ a y, ok a y → ok' (f a) y)
    (h : m.wp store K ok err x) : (f <$> m).wp store K ok' err x := by
  rw [map_eq_pure_bind]
  exact Routine.wp_bind (Routine.wp_mono (fun a y hy => Routine.wp_pure (hok a y hy))
    (fun _ _ h => h) h)

/-- Where it does not matter how the method ends. -/
theorem wp_map_run {m : Action α} {f : α → β} {ok : α → Context → Prop}
    {err : Err → Context → Prop} (h : m.wp store K ok err x) :
    Prog.wp store K (fun _ _ => True) (f <$> m).run x := by
  have hmapped : (f <$> m).wp store K (fun _ _ => True) err x := wp_map (fun _ _ _ => trivial) h
  exact Prog.wp_mono (fun _ _ _ => trivial) hmapped

/-- Every job commits nothing but the postings it may make. -/
theorem Job.posts (hS : Session K E I)
    (hanswers : ∀ y c a, K.answers y c a → I y.log y.now → I (⟨c, a⟩ :: y.log) y.now)
    (hasks : ∀ y c, K.asks y c) (j : Job) (howes : ∀ kind, j.May kind → Owes K E I kind)
    (hx : Rests I false x) :
    j.action.wp store K (fun _ => Rests I false) (fun _ => Rests I false) x := by
  cases j with
  | initiateFirstPayment env dto userId =>
    have hT : ChargeTerms K E dto.idempotencyKey I I (fun _ => I) (fun _ => I) :=
      ChargeTerms.plain hS hanswers hasks fun kind hkind => howes kind hkind
    exact wp_map (fun _ _ h => h.1) (initiateFirstPayment_posts hT rfl hx)
  | enrollChild dto userId =>
    refine wp_map (fun _ _ h => h) (enrollChild_posts hS (howes _ (Or.inl rfl)) ?_ hx)
    intro reuse
    cases reuse with
    | none => exact howes _ (Or.inr (Or.inl rfl))
    | some _ => exact howes _ (Or.inr (Or.inr rfl))
  | submitInstallmentPayment enrollmentId amountPaid user receiptUrl idempotencyKey =>
    exact wp_map (fun _ _ h => h) (submitInstallmentPayment_posts hS (howes _ (Or.inl rfl))
      (howes _ (Or.inr rfl)) hx)
  | confirmPayment paymentId schoolId actor =>
    exact wp_map (fun _ _ h => h) (confirmPayment_posts hS (howes _ rfl) hx)
  | rejectPayment paymentId schoolId actor =>
    exact wp_map (fun _ _ h => h) (rejectPayment_posts hS (howes _ rfl) hx)
  | reversePayment paymentId schoolId actor reason =>
    exact wp_map (fun _ _ h => h) (reversePayment_posts hS (howes _ rfl) hx)
  | settleFirstPayment paymentId actor =>
    exact wp_map (fun _ _ h => h) (settleFirstPayment_posts hS (howes _ rfl) hx)
  | rejectFirstPayment paymentId actor =>
    exact wp_map (fun _ _ h => h) (rejectFirstPayment_posts hS (howes _ rfl) hx)
  | confirmFirstPayment enrollmentId schoolId actor =>
    exact wp_map (fun _ _ h => h) (confirmFirstPayment_posts hS (howes _ rfl) hx)
  | reconcilePaystackPayment reference fee actor =>
    exact wp_map (fun _ _ h => h.1) (reconcilePaystackPayment_posts hS (howes _ (Or.inl rfl))
      (howes _ (Or.inr rfl)) hx (Or.inr trivial))
  | failPaystackPayment reference =>
    exact wp_map (fun _ _ h => h) (failPaystackPayment_posts hS (howes _ rfl) hx)
  | reversePaystackPaymentByDispute reference eventType =>
    exact wp_map (fun _ _ h => h) (reversePaystackPaymentByDispute_posts hS (howes _ rfl) hx)
  | processPaystackWebhookEvent event =>
    refine wp_map (fun _ _ h => h) (processPaystackWebhookEvent_posts hS (howes _ (Or.inl rfl))
      (howes _ (Or.inr (Or.inl rfl))) (fun r => howes _ (Or.inr (Or.inr (Or.inl ⟨r, rfl⟩)))) ?_ hx)
    exact fun hdisputes r => howes _ (Or.inr (Or.inr (Or.inr ⟨hdisputes, r, rfl⟩)))
  | runSweep =>
    exact wp_map (fun _ _ h => h) (runSweep_posts hS (howes _ (Or.inl rfl))
      (howes _ (Or.inr (Or.inl rfl))) (fun r => howes _ (Or.inr (Or.inr ⟨r, rfl⟩))) hx)
  | recordMigratedEnrollment inviteId invite childId parentUserId actor =>
    exact wp_map (fun _ _ h => h) (recordMigratedEnrollment_posts hS (howes _ rfl) hx
      invite.fee_pos invite.paid_nonneg invite.paid_le)
  | amendMigratedPayment enrollmentId newAmountKobo schoolId actor reason =>
    exact wp_map (fun _ _ h => h) (amendMigratedPayment_posts hS (howes _ rfl) hx)
  | markEnrollmentAsDefaulted enrollmentId schoolId actor =>
    exact wp_map (fun _ _ h => h) (markEnrollmentAsDefaulted_posts hS (howes _ rfl) hx)
  | markEnrollmentDefaultedBySweep enrollment =>
    exact wp_map (fun _ _ h => h) (markEnrollmentDefaultedBySweep_posts hS (howes _ rfl) hx)
  | runDetection =>
    exact wp_map (fun _ _ h => h) (runDetection_posts hS (howes _ rfl) hx)

end Posts

/-! ### What runs of jobs do to the books -/

/-- The committed database moves along `E` while postings of the allowed kinds come in. -/
structure Moves (E : Db → Db → Prop) (allowed : Kind → Prop) : Prop where
  refl : ∀ s, E s s
  trans : ∀ s t u, E s t → E t u → E s u
  stable : ∀ s t, E s t → Stable s t
  step : ∀ kind s ws, allowed kind → Coherent s → Posts E kind s ws →
    E s (store.applyAll ws s)

/-- Nothing moves while nothing is allowed. -/
theorem Moves.still : Moves (· = ·) (fun _ => False) where
  refl := fun _ => rfl
  trans := fun _ _ _ h h' => h.trans h'
  stable := by
    rintro s _ rfl
    exact .refl s
  step := fun _ _ _ h => h.elim

/-- Whatever is posted, rows continue. -/
theorem Moves.any : Moves Stable (fun _ => True) where
  refl := .refl
  trans := fun _ _ _ => .trans
  stable := fun _ _ h => h
  step := fun _ _ _ _ _ ⟨_, hposting, hmade⟩ => hposting.stable hmade

/-- A database in which no plan has been opened yet. -/
structure Opening (db : Db) : Prop where
  enrollments : db.enrollments = ∅
  payments : db.payments = ∅
  parented : db.Parented

theorem Opening.coherent {db : Db} (h : Opening db) : Coherent db := by
  have hpayments : ∀ k p, db.payments.lookup k ≠ some p := by
    intro k p hp
    rw [h.payments, AList.lookup_empty] at hp
    cases hp
  have henrollments : ∀ k e, db.enrollments.lookup k ≠ some e := by
    intro k e he
    rw [h.enrollments, AList.lookup_empty] at he
    cases he
  exact
    { payments := fun k p hp => absurd hp (hpayments k p)
      enrollments := fun k e he => absurd he (henrollments k e)
      parented := h.parented
      one_migrated := fun k _ p _ hp => absurd hp (hpayments k p)
      one_reference := fun k _ p _ _ hp => absurd hp (hpayments k p)
      one_key := fun k _ p _ _ hp => absurd hp (hpayments k p) }

/-- The contract of a method that posts what is `mine` beside others that post what is
    allowed. -/
def beside (E : Db → Db → Prop) (allowed mine : Kind → Prop) : Contract Db Write Answer :=
  .plain (fun y ws => ∃ kind, allowed kind ∧ Posts E kind y.now ws)
    (fun y ws => ∃ kind, mine kind ∧ Posts E kind y.now ws)

section Runs

variable {E : Db → Db → Prop} {allowed mine : Kind → Prop} {kind : Kind} {s : Db} {ws : List Write}

theorem Posts.coherent (hE : ∀ c, E c s → Stable c s) (hs : Coherent s)
    (h : Posts E kind s ws) : Coherent (store.applyAll ws s) := by
  obtain ⟨entry, hposting, hmade⟩ := h
  exact hposting.coherent hE hs hmade

theorem Moves.session (hE : Moves E allowed) :
    Session (beside E allowed mine) E (fun _ => Coherent) where
  refl := hE.refl
  trans := hE.trans
  stable := hE.stable
  coherent := fun _ _ h => h
  rely := by
    rintro y ws ⟨kind, hallowed, hposts⟩ hcoh
    exact ⟨hE.step kind y.now ws hallowed hcoh hposts, ⟨kind, hposts.mono hE.stable⟩,
      hposts.coherent (fun c hc => hE.stable c _ hc) hcoh⟩
  answers := fun _ _ _ _ _ h => h
  asks := fun _ _ _ _ => trivial

theorem Moves.owes (hE : Moves E allowed) (hmine : mine kind) :
    Owes (beside E allowed mine) E (fun _ => Coherent) kind := by
  intro y ws hcoh hposts _
  exact ⟨⟨kind, hmine, hposts⟩, hposts.coherent (fun c hc => hE.stable c _ hc) hcoh⟩

/-- A job that starts on a coherent database posts what it may. -/
theorem Job.wp (hE : Moves E allowed) (j : Job) (hj : ∀ kind, j.May kind → mine kind)
    (hs : Coherent s) :
    j.program.wp store (beside E allowed mine) (fun _ _ => True) (.init s) := by
  refine Prog.wp_mono (fun _ _ _ => trivial) (Job.posts hE.session (fun _ _ _ _ h => h)
    (fun _ _ => trivial) j (fun kind hkind => hE.owes (hj kind hkind)) ⟨rfl, hs⟩)

/-- An invariant of the postings of each job is an invariant of runs of jobs one after
    the other. -/
theorem serial_invariant {guard : Job → Db → List Write → Prop} {start I : Db → Prop}
    (hI : ∀ s, I s → Coherent s) (hstart : ∀ s, start s → I s)
    (hstep : ∀ j kind s ws, guard j s ws → j.May kind → I s → Posts (· = ·) kind s ws →
      I (store.applyAll ws s))
    (hs : Serial store Job.program guard start s) : I s := by
  refine Serial.invariant (K := fun j => beside (· = ·) (fun _ => False) j.May)
    (Q := fun _ _ _ => True) (fun j => Contract.plain_total _ _) hstart ?_ ?_ hs
  · exact fun j s hs _ => Job.wp .still j (fun _ h => h) (hI s hs)
  · rintro j y ws hguard _ ⟨kind, hmay, hposts⟩ hinv
    exact hstep j kind y.now ws hguard hmay hinv hposts

/-- The committed database and the jobs that have been started. -/
abbrev Service := Sys Job Db Write Answer (Except Err Reply)

variable {guard : Service → Event Job Answer → Service → Prop} {start : Db → Prop}
  {t t' : Service}

/-- Interleaved jobs keep to their contracts. -/
theorem Moves.discipline (hE : Moves E allowed)
    (hjobs : ∀ t j t', guard t (.spawn j) t' → ∀ kind, j.May kind → allowed kind) :
    Discipline store Job.program guard
      (fun j => beside E allowed fun kind => j.May kind ∧ allowed kind)
      (fun _ _ _ => True) Coherent := by
  constructor
  · intro t t' j hguard hs
    exact Job.wp hE j (fun kind hkind => ⟨hkind, hjobs t j t' hguard kind hkind⟩) hs
  · exact fun _ _ _ _ _ _ _ _ _ => trivial
  · exact fun _ _ _ _ _ _ _ _ => trivial
  · exact fun _ _ _ _ _ _ _ _ _ _ _ => trivial
  · rintro t t' pid ch p ws - - - hnow hstore ⟨kind, -, hposts⟩ hcoh
    rw [hstore]
    rw [hnow] at hposts
    exact hposts.coherent (fun c hc => hE.stable c _ hc) hcoh
  · rintro t t' pid ch p i q ws - - - - - - hp hq - ⟨kind, ⟨-, hallowed⟩, hposts⟩ -
    rw [hp] at hposts
    exact ⟨kind, hallowed, by rw [hq]; exact hposts⟩

/-- In any interleaving the database is coherent. -/
theorem reach_coherent (hstart : ∀ s, start s → Coherent s)
    (ht : Sys.Reach store Job.program guard start t) : Coherent t.store :=
  (ht.good (Moves.any.discipline fun _ _ _ _ _ _ => trivial) hstart).inv

/-- In any interleaving a step changes the committed database only by a posting of the
    job that moved. -/
theorem reach_committed (hE : Moves E allowed)
    (hjobs : ∀ t j t', guard t (.spawn j) t' → ∀ kind, j.May kind → allowed kind)
    (hstart : ∀ s, start s → Coherent s) (ht : Sys.Reach store Job.program guard start t)
    {e : Event Job Answer} (hstep : t.step store Job.program e = some t') (hguard : guard t e t') :
    t'.store = t.store ∨ ∃ pid ch p kind ws, e = .move pid ch ∧ t.procs[pid]? = some p ∧
      p.job.May kind ∧ allowed kind ∧ Posts E kind t.store ws ∧
      t'.store = store.applyAll ws t.store := by
  have hD := hE.discipline hjobs
  rcases (ht.good hD hstart).committed hD hstep hguard with hsame | hmoved
  · exact Or.inl hsame
  · obtain ⟨pid, ch, p, ws, rfl, hp, -, hnow, ⟨kind, ⟨hmay, hallowed⟩, hposts⟩, hstore⟩ := hmoved
    rw [hnow] at hposts
    exact Or.inr ⟨pid, ch, p, kind, ws, rfl, hp, hmay, hallowed, hposts, hstore⟩

/-- An invariant of the postings of the jobs that move is an invariant of every
    interleaving. -/
theorem reach_invariant {I : Db → Prop} (hE : Moves E allowed)
    (hjobs : ∀ t j t', guard t (.spawn j) t' → ∀ kind, j.May kind → allowed kind)
    (hstart : ∀ s, start s → Coherent s) (hbegin : ∀ s, start s → I s)
    (hstep : ∀ t t' pid ch p kind ws, guard t (.move pid ch) t' → t.procs[pid]? = some p →
      p.job.May kind → allowed kind → Coherent t.store → I t.store → Posts E kind t.store ws →
      t'.store = store.applyAll ws t.store → I (store.applyAll ws t.store))
    (ht : Sys.Reach store Job.program guard start t) : I t.store := by
  induction ht with
  | init hs => exact hbegin _ hs
  | @step t t' e ht hmove hguard ih =>
    rcases reach_committed hE hjobs hstart ht hmove hguard with hsame | hmoved
    · rw [hsame]
      exact ih
    · obtain ⟨pid, ch, p, kind, ws, rfl, hp, hmay, hallowed, hposts, hstore⟩ := hmoved
      rw [hstore]
      exact hstep t t' pid ch p kind ws hguard hp hmay hallowed (reach_coherent hstart ht) ih
        hposts hstore

/-! ### Jobs that count on each other -/

/-- What each job, while it runs, counts on the commits of the others to keep. -/
structure Heeded (W : Job → Db → Db → Prop) : Prop where
  refl : ∀ j s, W j s s
  trans : ∀ j s t u, Stable s t → Stable t u → W j s t → W j t u → W j s u

/-- The contract of a job that counts on `W`. -/
def heeding (W : Job → Db → Db → Prop) (j : Job) : Contract Db Write Answer :=
  .plain
    (fun y ws => (∃ kind, Posts Stable kind y.now ws) ∧ W j y.now (store.applyAll ws y.now))
    (fun y ws => ∃ kind, j.May kind ∧ Posts (fun c s => Stable c s ∧ W j c s) kind y.now ws)

variable {W : Job → Db → Db → Prop}

theorem Heeded.session (hW : Heeded W) (j : Job) :
    Session (heeding W j) (fun c s => Stable c s ∧ W j c s) (fun _ => Coherent) where
  refl := fun s => ⟨.refl s, hW.refl j s⟩
  trans := fun s t u hst htu =>
    ⟨hst.1.trans htu.1, hW.trans j s t u hst.1 htu.1 hst.2 htu.2⟩
  stable := fun _ _ h => h.1
  coherent := fun _ _ h => h
  rely := by
    rintro y ws ⟨⟨kind, hposts⟩, hw⟩ hcoh
    have hafter := hposts.coherent (fun _ h => h) hcoh
    obtain ⟨entry, hposting, hmade⟩ := id hposts
    exact ⟨⟨hposting.stable hmade, hw⟩, ⟨kind, hposts⟩, hafter⟩
  answers := fun _ _ _ _ _ h => h
  asks := fun _ _ _ _ => trivial

theorem Heeded.discipline (hW : Heeded W)
    (hheed : ∀ t pid ch t', guard t (.move pid ch) t' → ∀ q ∈ t.others (.move pid ch),
      q.prog.finished = false → W q.job t.store t'.store) :
    Discipline store Job.program guard (heeding W) (fun _ _ _ => True) Coherent := by
  constructor
  · intro t t' j hguard hs
    refine Prog.wp_mono (fun _ _ _ => trivial) (Job.posts (hW.session j) (fun _ _ _ _ h => h)
      (fun _ _ => trivial) j ?_ ⟨rfl, hs⟩)
    intro kind hmay y ws hcoh hposts _
    exact ⟨⟨kind, hmay, hposts⟩, hposts.coherent (fun c hc => hc.1) hcoh⟩
  · exact fun _ _ _ _ _ _ _ _ _ => trivial
  · exact fun _ _ _ _ _ _ _ _ => trivial
  · exact fun _ _ _ _ _ _ _ _ _ _ _ => trivial
  · rintro t t' pid ch p ws - - - hnow hstore ⟨kind, -, hposts⟩ hcoh
    rw [hstore]
    rw [hnow] at hposts
    exact hposts.coherent (fun c hc => hc.1) hcoh
  · rintro t t' pid ch p i q ws hguard - hq hne hrun - hnow hqnow hstore ⟨kind, -, hposts⟩ -
    have hmem : q ∈ t.others (.move pid ch) := List.mem_eraseIdx_iff_getElem?.mpr ⟨i, hne, hq⟩
    have hw := hheed t pid ch t' hguard q hmem hrun
    rw [hnow] at hposts
    rw [hstore] at hw
    refine ⟨⟨kind, ?_⟩, ?_⟩
    · rw [hqnow]
      exact hposts.mono fun c s h => h.1
    · rw [hqnow]
      exact hw

/-- As `reach_committed`, with what each job counts on. -/
theorem reach_heeded (hW : Heeded W)
    (hheed : ∀ t pid ch t', guard t (.move pid ch) t' → ∀ q ∈ t.others (.move pid ch),
      q.prog.finished = false → W q.job t.store t'.store)
    (hstart : ∀ s, start s → Coherent s) (ht : Sys.Reach store Job.program guard start t)
    {e : Event Job Answer} (hstep : t.step store Job.program e = some t') (hguard : guard t e t') :
    t'.store = t.store ∨ ∃ pid ch p kind ws, e = .move pid ch ∧ t.procs[pid]? = some p ∧
      p.job.May kind ∧ Posts (fun c s => Stable c s ∧ W p.job c s) kind t.store ws ∧
      t'.store = store.applyAll ws t.store := by
  have hD := hW.discipline hheed
  rcases (ht.good hD hstart).committed hD hstep hguard with hsame | hmoved
  · exact Or.inl hsame
  · obtain ⟨pid, ch, p, ws, rfl, hp, -, hnow, ⟨kind, hmay, hposts⟩, hstore⟩ := hmoved
    rw [hnow] at hposts
    exact Or.inr ⟨pid, ch, p, kind, ws, rfl, hp, hmay, hposts, hstore⟩

end Runs

/-! ### A school with one family -/

/-- Everything outside answers and nothing is refused; `seed` makes the identifiers of the
    `n`-th step. -/
def smoothly (seed : String) (n : Nat) : Choice Answer where
  fault := false
  answer := fun
    | .now => 0
    | .randomUUID => seed ++ Nat.repr n
    | .randomToken => String.ofList ((seed ++ Nat.repr n).toList ++ List.replicate 43 'A' |>.take 43)
    | .rowOrder _ => []
    | .initializeTransaction params => .ok
        { authorizationUrl := "https://checkout.paystack.com"
          accessCode := "code"
          reference := params.reference }
    | .verifyTransaction _ => .ok { status := "ongoing", fees := none }
    | .createNotification _ => true
    | .pushNotification _ _ => ()
    | .emitEnrollmentsChanged _ => ()
    | .emitPaymentsChanged _ => ()

def oneFamily : Db where
  users := [⟨"parent",
    { email := "parent@mail"
      role := .PARENT
      fullName := some "Ngozi"
      name := none
      phoneNumber := none
      phoneHash := none }⟩].toAList
  schools := [⟨"school",
    { name := "Unity School"
      phone := "080"
      ownerId := "owner"
      paystackSubaccountCode := some "ACCT"
      paystackSubaccountActive := true
      deletedAt := none
      migrationDeadline := 100 }⟩].toAList
  classFees := [⟨"fee",
    { schoolId := "school", className := "JSS1", feeAmount := 10000000, isActive := true }⟩].toAList
  parents := [⟨"guardian", { userId := "parent", phoneNumber := "081" }⟩].toAList
  children := [⟨"child",
    { parentId := "guardian", fullName := "Ada", className := "JSS1" }⟩].toAList
  enrollments := ∅
  payments := ∅
  invites := ∅
  webhookEvents := ∅
  auditLogs := []
  notifications := []

/-- The request to enroll the child on the smallest deposit. -/
def enrollment (idempotencyKey : Option String) : CreateEnrollmentDto where
  childId := some "child"
  childName := none
  schoolId := "school"
  className := "JSS1"
  installmentFrequency := .MONTHLY
  firstPaymentPaid := 27500
  termStartDate := 0
  termEndDate := 100
  receiptUrl := none
  idempotencyKey := idempotencyKey

def environment : Environment := ⟨75 / 1000, none⟩

def admin : AuditActor := ⟨"admin", some .SUPER_ADMIN⟩

def owner : AuditActor := ⟨"owner", some .SCHOOL_OWNER⟩

def parentUser : AuthUser := ⟨"parent", .PARENT, none⟩

/-- Process `pid` runs `j` for `n` steps with nobody in between. -/
def uninterrupted (pid : Nat) (j : Job) (seed : String) (n : Nat) : List (Event Job Answer) :=
  .spawn j :: (List.range n).map fun i => .move pid (smoothly seed i)

/-- Process `pid` makes `n` steps from its `i`-th on, with nobody in between. -/
def goingOn (pid : Nat) (seed : String) (i n : Nat) : List (Event Job Answer) :=
  (List.range' i n).map fun i => .move pid (smoothly seed i)

/-- The parent has a card charge `a11` open on the plan `a9`. -/
def cardChargeOpen : List (Event Job Answer) :=
  uninterrupted 0 (.initiateFirstPayment environment (enrollment none) "parent") "a" 17

theorem oneFamily_opening : Opening oneFamily where
  enrollments := rfl
  payments := rfl
  parented := by
    intro k c hc
    obtain ⟨-, rfl⟩ := Prod.mk.inj (List.mem_singleton.mp (Table.mem_rows.mpr hc))
    exact ⟨⟨"parent", "081"⟩, rfl⟩

end Lopay
