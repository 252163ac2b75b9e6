import Lopay.Books.Jobs
import Lopay.Transactions.Possible

/-!
# One operation by itself

What a run of a single operation with nobody beside it can do: rules for a run in which
every statement goes through, the runs of the three operations that close a first
payment, and what an operation does when the row it looks for is not there.
-/

namespace Lopay

open Transactions

/-! ### Runs in which everything goes through -/

/-- The run has come to the committed database `s` with the open transaction `tx`. -/
structure At (s : Db) (tx : Option (List Write)) (x : Context) : Prop where
  now : x.now = s
  tx : x.tx = tx

section Rules

variable {s : Db} {tx : Option (List Write)} {ws : List Write} {x : Context} {α β : Type}

theorem At.init (s : Db) : At s none (.init s) := ⟨rfl, rfl⟩

theorem At.view (h : At s tx x) : x.view store = store.applyAll (tx.getD []) s := by
  rw [Ctx.view, Ctx.pending, h.now, h.tx]

theorem At.wrote_nil (h : At s tx x) : At s tx (x.wrote store []) := by
  constructor
  · rw [Ctx.wrote_now, Ctx.released_nil, Store.applyAll_nil, h.now]
  · rw [Ctx.wrote_tx, h.tx]
    cases tx with
    | none => rfl
    | some ws => rw [Option.map_some, List.append_nil]

theorem can_map {m : Action α} {f : α → β} {ok : β → Context → Prop}
    (h : m.can store (fun a y => ok (f a) y) x) : (f <$> m).can store ok x := by
  rw [map_eq_pure_bind]
  refine Routine.can_bind (Prog.can_mono ?_ h)
  rintro _ y ⟨a, rfl, ha⟩
  exact ⟨a, rfl, Routine.can_pure ha⟩

namespace At

variable {ok : α → Context → Prop}

theorem can_read (h : At s tx x) {q : Db → α}
    (hok : ∀ y, At s tx y → ok (q (store.applyAll (tx.getD []) s)) y) :
    (Lopay.read q).can store ok x := by
  apply Routine.can_query
  rw [h.view]
  exact hok _ h.wrote_nil

theorem can_ask (h : At s tx x) {c : Call} {ok : Answer c → Context → Prop} (a : Answer c)
    (hok : ∀ y, At s tx y → ok a y) : (Lopay.ask c).can store ok x :=
  Routine.can_ask a (hok _ ⟨h.now, h.tx⟩)

theorem can_statement (h : At s (some ws) x) {f : Db → Except Err (α × List Write)} {a : α}
    {ws' : List Write} (hf : f (store.applyAll ws s) = .ok (a, ws'))
    (hok : ∀ y, At s (some (ws ++ ws')) y → ok a y) : (statement f).can store ok x := by
  refine Routine.can_exec (by rw [h.view]; exact hf) (hok _ ?_)
  constructor
  · rw [Ctx.wrote_now, Ctx.released, h.tx]
    exact h.now
  · rw [Ctx.wrote_tx, h.tx]
    rfl

theorem can_findOrThrow (h : At s tx x) {q : Db → Option α} {a : α}
    (hq : q (store.applyAll (tx.getD []) s) = some a) (hok : ∀ y, At s tx y → ok a y) :
    (findOrThrow q).can store ok x := by
  refine Routine.can_bind (h.can_read fun y hy => ?_)
  exact Routine.can_orThrow hq (hok y hy)

theorem can_updatePayments (h : At s (some ws) x) {id : Id} {filter : Payment → Bool}
    {data : Payment → Payment} {p : Payment} {ok : Nat → Context → Prop}
    (hp : (store.applyAll ws s).payments.lookup id = some p) (hfilter : filter p = true)
    (hok : ∀ y, At s (some (ws ++ [.putPayment id (data p)])) y → ok 1 y) :
    (updatePayments id filter data).can store ok x := by
  refine h.can_statement ?_ hok
  simp only [hp, hfilter, if_true]

theorem can_updateEnrollment (h : At s (some ws) x) {id : Id}
    {data : ChildEnrollment → ChildEnrollment} {e : ChildEnrollment}
    {ok : ChildEnrollment → Context → Prop}
    (he : (store.applyAll ws s).enrollments.lookup id = some e)
    (hok : ∀ y, At s (some (ws ++ [.putEnrollment id (data e)])) y → ok (data e) y) :
    (updateEnrollment id data).can store ok x := by
  refine h.can_statement ?_ hok
  simp only [he]

theorem can_record (h : At s (some ws) x) {entry : AuditEntry} {ok : Unit → Context → Prop}
    (hok : ∀ y, At s (some (ws ++ [.audit entry])) y → ok () y) :
    (record entry).can store ok x := h.can_statement rfl hok

theorem can_insertNotification (h : At s (some ws) x) {n : Notification}
    {ok : Unit → Context → Prop}
    (hok : ∀ y, At s (some (ws ++ [.notification n])) y → ok () y) :
    (insertNotification n).can store ok x := h.can_statement rfl hok

theorem can_createNotification (h : At s tx x) {n : Notification} {ok : Unit → Context → Prop}
    (hok : ∀ y, At s tx y → ok () y) : (createNotification n).can store ok x := by
  refine Routine.can_bind (h.can_ask true fun y hy => ?_)
  exact Routine.can_throwIf (by simp) (hok y hy)

theorem can_emitChanges (h : At s tx x) {targets : ChangeTargets} {ok : Unit → Context → Prop}
    (hok : ∀ y, At s tx y → ok () y) : (emitChanges targets).can store ok x := by
  refine Routine.can_bind (h.can_ask () fun y hy => ?_)
  refine Routine.can_bind (hy.can_ask () fun z hz => ?_)
  exact Routine.can_pure (hok z hz)

theorem can_transaction (h : At s none x) {body : Action α}
    (hbody : ∀ y, At s (some []) y → body.can store (fun a z => ∃ ws, At s (some ws) z ∧
      ∀ u, At (store.applyAll ws s) none u → ok a u) y) :
    (transaction body).can store ok x := by
  refine Routine.can_transaction (Prog.can_mono ?_ (hbody x.opened ⟨h.now, rfl⟩))
  rintro _ z ⟨a, rfl, ws, hz, hok⟩
  refine ⟨a, rfl, hok _ ?_⟩
  have hpending : z.pending = ws := by rw [Ctx.pending, hz.tx]; rfl
  constructor
  · rw [Ctx.see_now, hpending]
    exact congrArg _ hz.now
  · rw [Ctx.see_tx]
    rfl

end At

/-- A run that can go somewhere goes there under some choices. -/
theorem Job.alone_of_can {j : Job} {P : Db → Prop}
    (h : j.action.can store (fun _ y => P y.now) (.init s)) :
    ∃ ch, P (j.program.alone store ch (.init s)).2.now := by
  obtain ⟨ch, hch⟩ := Prog.alone_of_can (smoothly "" 0) h
  obtain ⟨_, -, hP⟩ := hch
  exact ⟨ch, hP⟩

end Rules

/-! ### Closing a first payment -/

section Closing

variable {s : Db} {k : Id} {p : Payment} {e : ChildEnrollment}

/-- `t` is `s` with the payment and its plan FAILED. -/
def Closed (k : Id) (p : Payment) (e : ChildEnrollment) (s t : Db) : Prop :=
  t.payments = s.payments.insert k { p with status := .FAILED } ∧
    t.enrollments = s.enrollments.insert p.enrollmentId { e with paymentStatus := .FAILED }

theorem rejectPayment_can (hs : Coherent s) (hp : s.payments.lookup k = some p)
    (htype : p.paymentType = .FIRST_PAYMENT) (hunconfirmed : p.isConfirmed = false)
    (he : s.enrollments.lookup p.enrollmentId = some e) (actor : AuditActor) :
    (Job.rejectPayment k p.schoolId actor).action.can store
      (fun _ y => Closed k p e s y.now) (.init s) := by
  obtain ⟨payment, hpayment⟩ := hs.payment?_isSome hp
  obtain ⟨-, hrow, -⟩ := Db.payment?_eq_some hpayment
  obtain rfl := Option.some.inj (hp.symm.trans hrow)
  refine can_map ?_
  unfold Ledger.rejectPayment
  refine Routine.can_bind ((At.init s).can_read fun y hy => ?_)
  refine Routine.can_bind (Routine.can_orThrow (a := payment) ?_ ?_)
  · simp [hpayment, hunconfirmed]
  refine Routine.can_bind (hy.can_transaction fun y hy => ?_)
  refine Routine.can_bind (hy.can_updatePayments hp (by simp [hunconfirmed]) fun y hy => ?_)
  refine Routine.can_bind (Routine.can_throwIf (by decide) ?_)
  refine Routine.can_bind (hy.can_findOrThrow (AList.lookup_insert _) fun y hy => ?_)
  refine Routine.can_bind (Routine.can_onlyIf (decide_eq_true htype) ?_)
  refine Routine.can_bind (hy.can_updateEnrollment he fun y hy => Routine.can_pure ?_)
  refine Routine.can_bind (hy.can_record fun y hy => ?_)
  refine Routine.can_bind (hy.can_createNotification fun y hy => ?_)
  refine Routine.can_pure ⟨_, hy, fun u hu => ?_⟩
  refine Routine.can_bind (hu.can_ask () fun y hy => Routine.can_pure ?_)
  rw [hy.now]
  exact ⟨rfl, rfl⟩

theorem rejectFirstPayment_can (hs : Coherent s) (hp : s.payments.lookup k = some p)
    (hmanual : Ledger.isManualFirstPayment p = true)
    (he : s.enrollments.lookup p.enrollmentId = some e) (actor : AuditActor) :
    (Job.rejectFirstPayment k actor).action.can store
      (fun _ y => Closed k p e s y.now) (.init s) := by
  obtain ⟨payment, hpayment⟩ := hs.payment?_isSome hp
  obtain ⟨hid, hrow, -⟩ := Db.payment?_eq_some hpayment
  obtain rfl := Option.some.inj (hp.symm.trans hrow)
  subst hid
  have hunconfirmed : payment.row.isConfirmed = false := by
    simp only [Ledger.isManualFirstPayment, decide_eq_true_eq] at hmanual
    exact hmanual.2.2.1
  refine can_map ?_
  unfold Ledger.rejectFirstPayment
  refine Routine.can_bind ((At.init s).can_read fun y hy => ?_)
  refine Routine.can_bind (Routine.can_orThrow (a := payment) ?_ ?_)
  · simp [hpayment, hmanual]
  refine Routine.can_bind (hy.can_transaction fun y hy => ?_)
  refine Routine.can_bind (hy.can_updatePayments hp (by simp [hunconfirmed]) fun y hy => ?_)
  rw [if_neg (by decide)]
  refine Routine.can_bind (hy.can_updateEnrollment he fun y hy => ?_)
  refine Routine.can_bind (hy.can_record fun y hy => ?_)
  refine Routine.can_bind (hy.can_insertNotification fun y hy => ?_)
  refine Routine.can_bind (hy.can_insertNotification fun y hy => ?_)
  refine Routine.can_pure ⟨_, hy, fun u hu => ?_⟩
  refine Routine.can_bind (Routine.can_orThrow rfl ?_)
  refine Routine.can_bind (hu.can_ask () fun y hy => ?_)
  refine Routine.can_bind (hy.can_emitChanges fun y hy => Routine.can_pure ?_)
  rw [hy.now]
  exact ⟨rfl, rfl⟩

theorem failPaystackPayment_can (hs : Coherent s) (hp : s.payments.lookup k = some p)
    {reference : String} (href : p.paystackReference = some reference)
    (hstatus : p.status = .PENDING) (he : s.enrollments.lookup p.enrollmentId = some e) :
    (Job.failPaystackPayment reference).action.can store
      (fun _ y => Closed k p e s y.now) (.init s) := by
  obtain ⟨payment, hpayment, rfl, rfl⟩ := hs.paymentByReference? hp href
  refine can_map ?_
  unfold Ledger.failPaystackPayment
  refine Routine.can_bind ((At.init s).can_read fun y hy => ?_)
  have hfound : (Option.filter (fun p : PaymentOfPlan => decide (p.row.status = .PENDING))
      (s.paymentByReference? reference)) = some payment := by
    simp [hpayment, hstatus]
  simp only [Option.getD_none, Store.applyAll_nil, hfound]
  refine Routine.can_bind (hy.can_transaction fun y hy => ?_)
  refine Routine.can_bind (hy.can_updatePayments hp (by simp [hstatus]) fun y hy => ?_)
  rw [if_neg (by decide)]
  refine Routine.can_bind (hy.can_updateEnrollment he fun y hy => ?_)
  -- Whoever is told, the books are closed by then.
  have hrest : ∀ t, Closed payment.id payment.row e s t → ∀ u, At t none u →
      Routine.can store (do
        emitChanges
          { parentUserId := some payment.plan.parent.userId
            schoolId := some payment.row.schoolId
            notifyAdmins := true }
        pure true : Action Bool) (fun _ y => Closed payment.id payment.row e s y.now) u := by
    intro t ht u hu
    refine Routine.can_bind (hu.can_emitChanges fun y hy => Routine.can_pure ?_)
    rw [hy.now]
    exact ht
  refine Routine.can_pure ⟨_, hy, fun u hu => ?_⟩
  rw [if_neg (by decide)]
  by_cases hparent : payment.plan.parent.userId = ""
  · refine Routine.can_bind (Routine.can_skip (by simp [hparent]) ?_)
    exact hrest _ ⟨rfl, rfl⟩ u hu
  · refine Routine.can_bind (Routine.can_onlyIf hparent ?_)
    refine hu.can_createNotification fun y hy => ?_
    exact hrest _ ⟨rfl, rfl⟩ y hy

end Closing

/-! ### Invariants of one job -/

/-- An invariant of what a job posts when it runs by itself. -/
theorem Job.alone_invariant {j : Job} {s : Db} {I : Db → Prop} (hs : Coherent s) (hI : I s)
    (hstep : ∀ kind s entry locks t, Coherent s → j.May kind → Posting (· = ·) s kind entry →
      entry.Made s t locks → I s → I t) (ch : Nat → Choice Answer) :
    I (j.program.alone store ch (.init s)).2.now := by
  suffices hkeep : (Coherent (j.program.alone store ch (.init s)).2.now ∧
      I (j.program.alone store ch (.init s)).2.now) ∧ True from hkeep.1.2
  refine Prog.alone_invariant (I := fun s => Coherent s ∧ I s) (Contract.plain_total _ _)
    (Job.wp .still j (fun _ h => h) hs) ⟨hs, hI⟩ ?_
  · rintro y ws - - ⟨kind, hmay, hposts⟩ ⟨hcoh, hI⟩
    refine ⟨hposts.coherent ?_ hcoh, ?_⟩
    · rintro _ rfl
      exact .refl _
    · obtain ⟨entry, hposting, hmade⟩ := hposts
      exact hstep kind y.now entry _ _ hcoh hmay hposting hmade hI

/-- A job that runs by itself leaves a coherent database. -/
theorem Job.alone_coherent {j : Job} {s : Db} (hs : Coherent s) (ch : Nat → Choice Answer) :
    Coherent (j.program.alone store ch (.init s)).2.now := by
  refine Job.alone_invariant (I := Coherent) hs hs ?_ ch
  rintro kind s entry locks t hs - hposting hmade -
  refine hposting.coherent ?_ hs hmade
  rintro _ rfl
  exact .refl _

/-! ### An operation that finds nothing -/

/-- An operation whose first read finds nothing changes nothing. -/
theorem alone_refused {α β γ : Type} {q : Db → Option α} {error : Err} {rest : α → Action β}
    {f : β → γ} {s : Db} (hq : q s = none) (ch : Nat → Choice Answer) :
    ((f <$> do
      let found ← read q
      let a ← Routine.orThrow found error
      rest a : Action γ).run.alone store ch (.init s)).2.now = s := by
  have hwp : Routine.wp store (.plain isolated fun _ _ => False) (f <$> do
      let found ← read q
      let a ← Routine.orThrow found error
      rest a : Action γ) (fun _ _ => True) (fun _ _ => True) (.init s) := by
    refine wp_map (fun _ _ h => h) (Routine.wp_bind (Routine.wp_query fun y hd => ?_))
    obtain rfl := hd.eq_of_isolated
    refine ⟨fun _ => trivial, Routine.wp_bind (Routine.wp_orThrow (fun _ => trivial) fun a ha => ?_)⟩
    change q s = some a at ha
    rw [hq] at ha
    cases ha
  exact (Prog.alone_invariant (I := (· = s)) (Contract.plain_total _ _) hwp rfl
    (fun _ _ _ _ hG => hG.elim)).1

end Lopay
