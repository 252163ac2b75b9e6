import Lopay.Agreement
import Lopay.Invites.Tokens
import Lopay.Migrated.Steps
import Lopay.Transactions.Holding

/-!
# Work that leaves the figures alone

Submitting and confirming an installment and declaring a plan in default write payments and
plans, but none of the figures that a claimed invite shares with its plan. Statement by
statement their rows keep their figures; so do their commits, and what they have seen of a plan
is still true later.
-/

namespace Lopay

open Transactions

/-! ### The contract -/

/-- A commit keeps the figures together. -/
def keepingTogether (y : Context) (ws : List Write) : Prop :=
  Together y.now (store.applyAll ws y.now)

/-- The plans of a commit come under keys that the program has never seen. -/
def planKeysNew (y : Context) (ws : List Write) : Prop :=
  ∀ k, y.now.enrollments.lookup k = none → (store.applyAll ws y.now).enrollments.lookup k ≠ none →
    ∀ c ∈ y.seen, c.enrollments.lookup k = none

/-- What the others commit. -/
def besideFigures (y : Context) (ws : List Write) : Prop :=
  keepingTogether y ws ∧ planKeysNew y ws

/-- The contract of whatever touches the figures. -/
abbrev figuresContract : Contract Db Write Answer :=
  counting besideFigures planKeysNew keepingTogether

/-- What the program has seen was in step, and is still true of what is committed now. -/
abbrev Informed : Context → Prop := Ctx.Seeing InStep Onward

theorem Informed.init {db : Db} (h : InStep db) : Informed (.init db) := by
  constructor
  intro s hs
  obtain rfl := List.mem_singleton.mp hs
  exact ⟨h, .refl s⟩

theorem Informed.see {y : Context} {ws : List Write} (h : Informed y)
    (htogether : keepingTogether y ws) (hnew : planKeysNew y ws) : Informed (y.see store ws) := by
  cases ws with
  | nil => exact h
  | cons w ws =>
    constructor
    intro s hs
    rcases List.mem_cons.mp hs with rfl | hs
    · exact ⟨htogether.inStep, .refl _⟩
    · obtain ⟨hstep, honward⟩ := h.seen s hs
      exact ⟨hstep, honward.trans hstep htogether.onward fun k hk hk' => hnew k hk hk' s hs⟩

theorem informed_steady : Steady store besideFigures Informed where
  moved := Ctx.Seeing.moved
  see := fun hR h => h.see hR.1 hR.2

/-! ### Rows -/

/-- A statement whose rows keep their figures. -/
def RowsKeepFigures (v : Db) (ws : List Write) : Prop := KeepsFigures v (store.applyAll ws v)

theorem KeepsFigures.refl (s : Db) : KeepsFigures s s where
  plans := fun _ => .refl _
  payments := fun _ => .refl _
  invites := fun _ => .refl _

instance : AdmitsStill RowsKeepFigures where
  still := by
    intro v ws h
    constructor
    · intro k
      rw [h.enrollments]
      exact .refl _
    · intro m
      rw [h.payments]
      exact .refl _
    · intro id
      rw [h.invites]
      exact .refl _

variable {v : Db} {id : Id}

theorem rowsKeepFigures_putEnrollment {e' : ChildEnrollment}
    (h : KeepsPlan (v.enrollments.lookup id) (some e')) :
    RowsKeepFigures v [.putEnrollment id e'] := by
  refine ⟨fun k => ?_, fun _ => .refl _, fun _ => .refl _⟩
  simp only [Store.applyAll_cons, Store.applyAll_nil, store_apply, Write.apply,
    Table.lookup_insert_ite]
  split
  · next hk =>
    subst hk
    exact h
  · exact .refl _

theorem rowsKeepFigures_putPayment {p' : Payment}
    (h : KeepsPayment (v.payments.lookup id) (some p')) :
    RowsKeepFigures v [.putPayment id p'] := by
  refine ⟨fun _ => .refl _, fun m => ?_, fun _ => .refl _⟩
  simp only [Store.applyAll_cons, Store.applyAll_nil, store_apply, Write.apply,
    Table.lookup_insert_ite]
  split
  · next hm =>
    subst hm
    exact h
  · exact .refl _

theorem rowsKeepFigures_putInvite {i' : EnrollmentInvite}
    (h : KeepsInvite (v.invites.lookup id) (some i')) : RowsKeepFigures v [.putInvite id i'] := by
  refine ⟨fun _ => .refl _, fun _ => .refl _, fun j => ?_⟩
  simp only [Store.applyAll_cons, Store.applyAll_nil, store_apply, Write.apply,
    Table.lookup_insert_ite]
  split
  · next hj =>
    subst hj
    exact h
  · exact .refl _

theorem updateEnrollment_keepsFigures {data : ChildEnrollment → ChildEnrollment}
    (hopening : ∀ e, (data e).opening = e.opening) (hopened : ∀ e, e.Opened → (data e).Opened) :
    Routine.Keeps RowsKeepFigures (updateEnrollment id data) := by
  apply Routine.Keeps.exec admits_nil
  intro v e ws hf
  cases he : v.enrollments.lookup id with
  | none => simp [he] at hf
  | some e₀ =>
    simp only [he, Except.ok.injEq, Prod.mk.injEq] at hf
    obtain ⟨rfl, rfl⟩ := hf
    apply rowsKeepFigures_putEnrollment
    rw [he]
    refine ⟨congrArg some (hopening e₀), ?_⟩
    rintro _ _ ⟨⟩ ⟨⟩ - h
    exact hopened e₀ h

theorem updateEnrollments_keepsFigures {filter : ChildEnrollment → Bool}
    {data : ChildEnrollment → ChildEnrollment} (hopening : ∀ e, (data e).opening = e.opening)
    (hopened : ∀ e, e.Opened → (data e).Opened) :
    Routine.Keeps RowsKeepFigures (updateEnrollments id filter data) := by
  apply Routine.Keeps.exec admits_nil
  intro v n ws hf
  cases he : v.enrollments.lookup id with
  | none =>
    simp only [he, Except.ok.injEq, Prod.mk.injEq] at hf
    rw [← hf.2]
    exact admits_nil v
  | some e =>
    simp only [he] at hf
    split at hf
    · simp only [Except.ok.injEq, Prod.mk.injEq] at hf
      rw [← hf.2]
      apply rowsKeepFigures_putEnrollment
      rw [he]
      refine ⟨congrArg some (hopening e), ?_⟩
      rintro _ _ ⟨⟩ ⟨⟩ - h
      exact hopened e h
    · simp only [Except.ok.injEq, Prod.mk.injEq] at hf
      rw [← hf.2]
      exact admits_nil v

theorem updatePayments_keepsFigures {filter : Payment → Bool} {data : Payment → Payment}
    (h : ∀ p, filter p = true → (data p).opening? = p.opening?) :
    Routine.Keeps RowsKeepFigures (updatePayments id filter data) := by
  apply Routine.Keeps.exec admits_nil
  intro v n ws hf
  cases hp : v.payments.lookup id with
  | none =>
    simp only [hp, Except.ok.injEq, Prod.mk.injEq] at hf
    rw [← hf.2]
    exact admits_nil v
  | some p =>
    simp only [hp] at hf
    split at hf
    · next hfilter =>
      simp only [Except.ok.injEq, Prod.mk.injEq] at hf
      rw [← hf.2]
      apply rowsKeepFigures_putPayment
      rw [hp]
      exact h p hfilter
    · simp only [Except.ok.injEq, Prod.mk.injEq] at hf
      rw [← hf.2]
      exact admits_nil v

theorem createPayment_keepsFigures {row : Payment} (h : row.opening? = none) :
    Routine.Keeps RowsKeepFigures (createPayment id row) := by
  apply Routine.Keeps.exec admits_nil
  intro v _ ws hf
  obtain ⟨hnew, rfl⟩ : v.payments.lookup id = none ∧ ws = [.putPayment id row] := by
    grind [Option.isSome_iff_ne_none]
  apply rowsKeepFigures_putPayment
  rw [hnew]
  exact h

/-! ### Methods -/

set_option synthInstance.maxSize 4000

instance (idempotencyKey : Option String) :
    Routine.Keeps RowsKeepFigures (Enrollment.replayIntent idempotencyKey) := by
  unfold Enrollment.replayIntent
  have hrelease (id : Id) (status : PaymentTransactionStatus) : Routine.Keeps RowsKeepFigures
      (updatePayments id (fun p => p.status = status)
        (fun p => { p with idempotencyKey := none })) := by
    apply updatePayments_keepsFigures
    intro p _
    rfl
  cases given idempotencyKey with
  | none => infer_instance
  | some key =>
    refine .andThen fun found => ?_
    cases found with
    | none => infer_instance
    | some existing => infer_instance

instance (enrollmentId : Id) (amountPaid : ℚ) (user : AuthUser)
    (receiptUrl idempotencyKey : Option String) : Routine.Keeps RowsKeepFigures
      (Enrollment.submitInstallmentPayment enrollmentId amountPaid user receiptUrl
        idempotencyKey) := by
  unfold Enrollment.submitInstallmentPayment Enrollment.assertOwnedReceiptPath
  have hcreate (id schoolId : Id) (amountPaidKobo now : Int) :
      Routine.Keeps RowsKeepFigures (createPayment id (Enrollment.installmentPayment enrollmentId
        schoolId amountPaidKobo receiptUrl idempotencyKey now)) := by
    apply createPayment_keepsFigures
    simp [Payment.opening?, Enrollment.installmentPayment]
  refine .andThen fun _ => .andThen fun replayed => ?_
  cases replayed with
  | some existing => infer_instance
  | none =>
    refine .andThen fun found => .andThen fun enrollment => .andThen fun _ => .andThen fun _ =>
      .andThen fun result => ?_
    cases result with
    | inr existing => infer_instance
    | inl payment => infer_instance

namespace Ledger

instance (paymentId schoolId : Id) (actor : AuditActor) :
    Routine.Keeps RowsKeepFigures (confirmPayment paymentId schoolId actor) := by
  unfold confirmPayment
  have hflip (now : Int) : Routine.Keeps RowsKeepFigures (updatePayments paymentId
      (fun p => p.schoolId = schoolId ∧ p.isConfirmed = false ∧ p.paymentType = .INSTALLMENT)
      (fun p => { p with isConfirmed := true, status := .SUCCESS, paymentDate := now })) := by
    apply updatePayments_keepsFigures
    simp +contextual [Payment.opening?]
  have hdecrement (k : Id) (amountPaid : Int) : Routine.Keeps RowsKeepFigures
      (updateEnrollment k fun e => { e with remainingBalance := e.remainingBalance - amountPaid }) :=
    updateEnrollment_keepsFigures (fun _ => rfl) (fun _ h => h)
  have hcomplete (k : Id) : Routine.Keeps RowsKeepFigures (updateEnrollment k fun e =>
      { e with remainingBalance := 0, paymentStatus := .COMPLETED }) :=
    updateEnrollment_keepsFigures (fun _ => rfl) (fun _ _ => Or.inr (Or.inl rfl))
  infer_instance

instance (enrollmentId schoolId : Id) (actor : AuditActor) :
    Routine.Keeps RowsKeepFigures (markEnrollmentAsDefaulted enrollmentId schoolId actor) := by
  unfold markEnrollmentAsDefaulted
  have hdefault : Routine.Keeps RowsKeepFigures (updateEnrollment enrollmentId fun e =>
      { e with paymentStatus := .DEFAULTED }) :=
    updateEnrollment_keepsFigures (fun _ => rfl) (fun _ _ => Or.inr (Or.inr rfl))
  infer_instance

instance (enrollment : Plan) :
    Routine.Keeps RowsKeepFigures (markEnrollmentDefaultedBySweep enrollment) := by
  unfold markEnrollmentDefaultedBySweep
  have hdefault : Routine.Keeps RowsKeepFigures (updateEnrollments enrollment.id
      (fun e => e.paymentStatus = .ACTIVE ∧ 0 < e.remainingBalance)
      (fun e => { e with paymentStatus := .DEFAULTED })) :=
    updateEnrollments_keepsFigures (fun _ => rfl) (fun _ _ => Or.inr (Or.inr rfl))
  refine .andThen fun flipped => ?_
  cases flipped with
  | none => infer_instance
  | some toParent => infer_instance

end Ledger

instance : Routine.Keeps RowsKeepFigures DefaulterDetection.runDetection := by
  unfold DefaulterDetection.runDetection
  infer_instance

/-! ### Commits -/

/-- A part that opens and closes its own transactions keeps the figures together. -/
theorem Routine.Keeps.wp_figures {α : Type} {m : Action α} (h : Routine.Keeps RowsKeepFigures m)
    {x : Context} (hx : Informed x) (htx : x.tx = none) :
    m.wp store figuresContract (fun _ => Informed) (fun _ => Informed) x := by
  have htracks : Tracks store agree (fun _ => RowsKeepFigures) ⟨x.log, [], false, []⟩ x :=
    .outside rfl (fun _ h => nomatch h) rfl rfl htx
  have hcommit (τ : Journal) (y : Context) (done : List (Db × List Write))
      (hreplays : Replays store agree (fun _ => RowsKeepFigures) τ y.now done)
      (_ : ∀ c ∈ τ.read, c ∈ y.seen) (hy : Informed y) (hnew : planKeysNew y (writesOf done)) :
      keepingTogether y (writesOf done) ∧ Informed (y.see store (writesOf done)) := by
    have hkeeps : KeepsFigures y.now (store.applyAll (writesOf done) y.now) := by
      constructor
      · intro k
        exact hreplays.law enrollmentRows .refl (fun _ _ _ h h' => h.trans h')
          fun _ v ws _ hlaw => hlaw.plans k
      · intro m
        exact hreplays.law paymentRows .refl (fun _ _ _ h h' => h.trans h')
          fun _ v ws _ hlaw => hlaw.payments m
      · intro id
        exact hreplays.law inviteRows .refl (fun _ _ _ h h' => h.trans h')
          fun _ v ws _ hlaw => hlaw.invites id
    have htogether : keepingTogether y (writesOf done) := hkeeps.together hy.now
    exact ⟨htogether, hy.see htogether hnew⟩
  refine Prog.wp_mono ?_ (Prog.obeys_counting store_frame (fun _ ws _ _ h => agree_applyAll ws h)
    informed_steady hcommit (h.obeys _) htracks hx)
  rintro (e | a) y hy <;> exact hy

end Lopay
