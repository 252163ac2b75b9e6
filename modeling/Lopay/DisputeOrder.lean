import Lopay.Books.Alone
import Lopay.Books.Cards
import Lopay.Deliveries
import Lopay.Disputed
import Mathlib.Data.List.Induction

/-!
# In which order a charge is reported

A charge that comes through and is disputed afterwards is reported by a `charge.success` and by
dispute or refund events, in any order and any number of times. A dispute that is dispatched
before the charge is in the books finds nothing to take back, and its row in the log keeps every
later delivery of it from being dispatched. So the charge ends taken back exactly if some dispute
is delivered for the first time after the success.
-/

namespace Lopay

open Transactions

namespace Enrollment

/-- How far the books have followed a charge. -/
inductive Stage where
  | pending
  | captured
  | takenBack
deriving DecidableEq

namespace Stage

/-- What dispatching an event of the charge makes of it: a success, or else a dispute. -/
def next (succeeds : Bool) : Stage → Stage
  | pending => if succeeds then captured else pending
  | captured => if succeeds then captured else takenBack
  | takenBack => takenBack

theorem next_eq_takenBack {succeeds : Bool} {stage : Stage} :
    stage.next succeeds = takenBack ↔ stage = takenBack ∨ succeeds = false ∧ stage ≠ pending := by
  cases stage <;> cases succeeds <;> simp [next]

theorem next_eq_pending {succeeds : Bool} {stage : Stage} :
    stage.next succeeds = pending ↔ stage = pending ∧ succeeds = false := by
  cases stage <;> cases succeeds <;> simp [next]

def Fits (p : Payment) (e : ChildEnrollment) : Stage → Prop
  | pending => p.status = .PENDING
  | captured => p.status = .SUCCESS ∧ (e.paymentStatus = .ACTIVE ∨ e.paymentStatus = .COMPLETED)
  | takenBack => p.status = .FAILED ∧ p.isConfirmed = false ∧ e.paymentStatus = .FAILED ∧
      e.remainingBalance = e.totalSchoolFee

end Stage

/-- The payment `k` and its plan are at the stage. -/
def Stands (reference : String) (k enrollmentId : Id) (stage : Stage) (db : Db) : Prop :=
  ∃ p e, db.payments.lookup k = some p ∧ p.paystackReference = some reference ∧
    p.enrollmentId = enrollmentId ∧ db.enrollments.lookup enrollmentId = some e ∧ stage.Fits p e

section Stands

variable {reference : String} {k enrollmentId : Id} {stage : Stage} {t t' : Db}

theorem Stands.takenBack (h : Stands reference k enrollmentId stage t) :
    TakenBack t k enrollmentId ↔ stage = .takenBack := by
  rcases h with ⟨p, e, hp, -, -, he, hfits⟩
  constructor
  · rintro ⟨p', e', hp', hfailed, -⟩
    obtain rfl := Option.some.inj (hp.symm.trans hp')
    cases stage with
    | pending => simp [Stage.Fits, hfailed] at hfits
    | captured => simp [Stage.Fits, hfailed] at hfits
    | takenBack => rfl
  · rintro rfl
    rcases hfits with ⟨hfailed, hunconfirmed, hplan, howes⟩
    exact ⟨p, e, hp, hfailed, hunconfirmed, he, hplan, howes⟩

theorem Stands.same (h : Stands reference k enrollmentId stage t)
    (hpayments : t'.payments = t.payments) (henrollments : t'.enrollments = t.enrollments) :
    Stands reference k enrollmentId stage t' := by
  rw [Stands, hpayments, henrollments]
  exact h

/-- The reference leads to the payment, and the payment to its plan. -/
theorem Stands.found (hs : Coherent t) (h : Stands reference k enrollmentId stage t) :
    ∃ payment, t.paymentByReference? reference = some payment ∧ payment.id = k ∧
      payment.plan.id = enrollmentId ∧ stage.Fits payment.row payment.plan.row ∧
      payment.row.paystackReference = some reference := by
  rcases h with ⟨p, e, hp, hreference, rfl, he, hfits⟩
  rcases hs.paymentByReference? hp hreference with ⟨payment, hpayment, rfl, rfl⟩
  rcases Db.paymentByReference?_eq_some hpayment with ⟨-, -, hid, hplan⟩
  obtain rfl := Option.some.inj (he.symm.trans hplan)
  exact ⟨payment, hpayment, rfl, hid, hfits, hreference⟩

end Stands

/-! ### One delivery -/

/-- A delivery of one of the events of a charge, none of whose statements fails. -/
structure ChargeDelivery (reference : String) where
  event : PaystackWebhookEvent
  choices : Nat → Choice Answer
  named : given (webhookReference event) = some reference
  concerns : webhookType event = "charge.success" ∨ Disputes event
  goesThrough : ∀ n, (choices n).fault = false

section Dispatch

variable {reference key : String} {k enrollmentId : Id} {stage : Stage} {t : Db} {x : Context}
  {event : PaystackWebhookEvent}

/-- The run has ended, and what it has left satisfies `R`. -/
def Ended (R : Db → Prop) (y : Context) : Prop := ∃ t, y.On store t none ∧ R t

/-- The charge is at the stage, and the log is that of `t` but for the alert of a conflict. -/
def Follows (reference : String) (k enrollmentId : Id) (stage : Stage) (t t' : Db) : Prop :=
  Stands reference k enrollmentId stage t' ∧ ∀ key, key ≠ Ledger.conflictKey reference →
    t'.webhookEvents.lookup key = t.webhookEvents.lookup key

theorem reconcile_follows (hs : Coherent t) (hx : x.On store t none)
    (h : Stands reference k enrollmentId stage t) {fee : Option Int} {actor : Option AuditActor} :
    (Ledger.reconcilePaystackPayment reference fee actor).smooth store
      (fun _ => Ended (Follows reference k enrollmentId (stage.next true) t))
      (fun _ => Ended (Follows reference k enrollmentId (stage.next true) t)) x := by
  rcases h.found hs with ⟨payment, hfound, rfl, rfl, hfits, hreference⟩
  rcases Db.paymentByReference?_eq_some hfound with ⟨-, -, hid, -⟩
  have hdeclines (hnot : payment.row.status ≠ .PENDING) :
      (Ledger.reconcilePaystackPayment reference fee actor).smooth store
        (fun _ => Ended (Follows reference payment.id payment.plan.id stage t))
        (fun _ => Ended (Follows reference payment.id payment.plan.id stage t)) x :=
    reconcilePaystackPayment_declines hx hfound hnot fun t' y hlogs hy =>
      ⟨t', hy, h.same hlogs.payments hlogs.enrollments, hlogs.log⟩
  cases stage with
  | pending =>
    refine reconcilePaystackPayment_captures hx hfound hfits fun now entry y hy => ⟨_, hy, ?_, ?_⟩
    · refine ⟨_, _, AList.lookup_insert _, hreference, hid.symm, AList.lookup_insert _, rfl, ?_⟩
      unfold ChildEnrollment.openedBy
      simp only
      split <;> simp
    · exact fun _ _ => rfl
  | captured => exact hdeclines (by simp [hfits.1])
  | takenBack => exact hdeclines (by simp [hfits.1])

theorem reverse_follows (hs : Coherent t) (hx : x.On store t none)
    (h : Stands reference k enrollmentId stage t) {eventType : String} :
    (Ledger.reversePaystackPaymentByDispute reference eventType).smooth store
      (fun _ => Ended (Follows reference k enrollmentId (stage.next false) t))
      (fun _ => Ended (Follows reference k enrollmentId (stage.next false) t)) x := by
  rcases h.found hs with ⟨payment, hfound, rfl, rfl, hfits, hreference⟩
  rcases Db.paymentByReference?_eq_some hfound with ⟨-, -, hid, -⟩
  have hmisses (hnot : payment.row.status ≠ .SUCCESS) :
      (Ledger.reversePaystackPaymentByDispute reference eventType).smooth store
        (fun _ => Ended (Follows reference payment.id payment.plan.id stage t))
        (fun _ => Ended (Follows reference payment.id payment.plan.id stage t)) x :=
    reversePaystackPaymentByDispute_misses hx hfound hnot fun y hy =>
      ⟨t, hy, h, fun _ _ => rfl⟩
  cases stage with
  | pending => exact hmisses (by simp [show payment.row.status = .PENDING from hfits])
  | captured =>
    refine reversePaystackPaymentByDispute_takes hx hfound hfits.1 fun t' y htaken hy => ?_
    refine ⟨t', hy, ⟨{ payment.row with status := .FAILED, isConfirmed := false },
      payment.plan.row.disputed payment.plan.row, ?_, hreference, hid.symm, ?_, rfl, rfl, ?_⟩, ?_⟩
    · rw [htaken.payments]
      exact AList.lookup_insert _
    · rw [htaken.enrollments]
      exact AList.lookup_insert _
    · unfold ChildEnrollment.disputed
      simp [hfits.2]
    · intro key _
      rw [htaken.webhookEvents]
  | takenBack => exact hmisses (by simp [hfits.1])

theorem createNotifications_smooth {ns : List Notification} (hx : x.On store t none)
    {ok : Unit → Context → Prop} {err : Err → Context → Prop}
    (hok : ∀ y, y.On store t none → ok () y) (herr : ∀ e y, y.On store t none → err e y) :
    (createNotifications ns).smooth store ok err x := by
  unfold createNotifications
  refine Routine.wp_bind (Routine.wp_mapM (P := fun y => y.On store t none) hx
    (fun _ _ y hy => Routine.smooth_ask hy fun _ y hy => hy) fun _ y hy => ?_)
  exact Routine.wp_throwIf (fun _ => herr _ y hy) fun _ => hok y hy

theorem recordPaystackDispute_follows (hs : Coherent t) (hx : x.On store t none)
    (h : Stands reference k enrollmentId stage t) {eventType : String} {named : Option String}
    (hnamed : given named = some reference) :
    (recordPaystackDispute eventType named).smooth store
      (fun _ => Ended (Follows reference k enrollmentId (stage.next false) t))
      (fun _ => Ended (Follows reference k enrollmentId (stage.next false) t)) x := by
  unfold recordPaystackDispute reverseDisputed disputedPayment
  simp only [hnamed]
  refine Routine.wp_bind (Routine.wp_bind (Routine.wp_mono (fun _ y hy => Routine.wp_pure ?_)
    (fun _ _ h => h) (reverse_follows hs hx h)))
  rcases hy with ⟨t', hy, hfollows⟩
  refine Routine.wp_bind (Routine.smooth_query hy fun y hy => ?_)
  refine Routine.wp_bind (Routine.smooth_query hy fun y hy => ?_)
  exact createNotifications_smooth hy (fun y hy => ⟨t', hy, hfollows⟩)
    fun _ y hy => ⟨t', hy, hfollows⟩

theorem dispatch_follows (hs : Coherent t) (hx : x.On store t none)
    (h : Stands reference k enrollmentId stage t)
    (hnamed : given (webhookReference event) = some reference)
    (hconcerns : webhookType event = "charge.success" ∨ Disputes event) :
    (dispatch event).smooth store
      (fun _ => Ended (Follows reference k enrollmentId
        (stage.next (webhookType event = "charge.success")) t))
      (fun _ => Ended (Follows reference k enrollmentId
        (stage.next (webhookType event = "charge.success")) t)) x := by
  unfold dispatch
  by_cases hsuccess : webhookType event = "charge.success"
  · simp only [hnamed, hsuccess, decide_true]
    refine Routine.wp_bind (Routine.wp_mono (fun _ _ h => ?_) (fun _ _ h => h)
      (reconcile_follows hs hx h))
    exact Routine.wp_pure h
  · have hdisputes : Disputes event := hconcerns.resolve_left hsuccess
    have hnotfailed : webhookType event ≠ "charge.failed" := by
      intro hfailed
      rw [Disputes, hfailed] at hdisputes
      revert hdisputes
      decide
    simp only [hsuccess, decide_false]
    split
    · next htype => exact absurd htype hsuccess
    · next htype => exact absurd htype hnotfailed
    · exact Routine.wp_onlyIf (fun _ => recordPaystackDispute_follows hs hx h hnamed)
        fun hnot => absurd hdisputes hnot

/-- Whatever the dispatch ends in, only the row of the event is written after it. -/
theorem dispatchLogged_ends {R : Db → Prop}
    (hR : ∀ t row, R t → R (store.applyAll [.putWebhookEvent key row] t))
    (h : (dispatch event).smooth store (fun _ => Ended R) (fun _ => Ended R) x) :
    (dispatchLogged event key).smooth store (fun _ => Ended R) (fun _ => Ended R) x := by
  have hupdates (data : WebhookEvent → WebhookEvent) {y : Context} (hy : Ended R y) :
      (updateWebhookEvent key data).smooth store (fun _ => Ended R) (fun _ => Ended R) y := by
    rcases hy with ⟨t, hy, ht⟩
    refine Routine.smooth_outside hy (fun _ ws y hws hy => ?_) fun _ y _ hy => ⟨t, hy, ht⟩
    split at hws <;> cases hws
    exact ⟨_, hy, hR t _ ht⟩
  have hthrows (error : Err) {y : Context} (hy : Ended R y) : Routine.smooth (do
      tryCatch
        (updateWebhookEvent key fun row => { row with error := some (.messageOf error) })
        (fun _ => pure ())
      throw error : Action Unit) store (fun _ => Ended R) (fun _ => Ended R) y := by
    refine Routine.wp_bind (Routine.wp_tryCatch (Routine.wp_mono (fun _ _ h => ?_)
      (fun _ _ h => Routine.wp_pure ?_) (hupdates _ hy)))
    · exact Routine.wp_throw h
    · exact Routine.wp_throw h
  unfold dispatchLogged
  refine Routine.wp_tryCatch (Routine.wp_bind (Routine.wp_mono (fun _ y hy => ?_)
    (fun error _ h => hthrows error h) h))
  rcases hy with ⟨t, hy, ht⟩
  refine Routine.wp_bind (Routine.smooth_ask hy fun now y hy => ?_)
  exact Routine.wp_mono (fun _ _ h => h) (fun error _ h => hthrows error h)
    (hupdates _ ⟨t, hy, ht⟩)

/-- A delivery of an event that the log holds changes nothing; any other is logged and
    dispatched. -/
theorem processPaystackWebhookEvent_ends {identity : String} {R : Db → Prop}
    (hidentity : webhookIdentity event = some identity) (hx : x.On store t none)
    (hkey : key = dedupeKey (webhookType event) identity)
    (hR : ∀ t row, R t → R (store.applyAll [.putWebhookEvent key row] t))
    (hlogged : Logged key t → R t)
    (hnew : ¬ Logged key t → ∀ t' y, t' = store.applyAll [.putWebhookEvent key (loggedWebhook event)] t →
      y.On store t' none → (dispatch event).smooth store (fun _ => Ended R) (fun _ => Ended R) y) :
    (processPaystackWebhookEvent event).smooth store (fun _ => Ended R) (fun _ => Ended R) x := by
  subst hkey
  unfold processPaystackWebhookEvent deliveryIdentity storeWebhookEvent createWebhookEvent
  simp only [hidentity, pure_bind]
  refine Routine.wp_bind (Routine.wp_tryCatch (Routine.wp_bind (Routine.smooth_outside hx ?_ ?_)))
  · intro _ ws y hws hy
    split at hws <;> cases hws
    next hfree =>
    refine Routine.wp_pure ?_
    rw [if_neg (by decide)]
    refine Routine.wp_bind (Routine.wp_mono (fun _ _ h => Routine.wp_pure h) (fun _ _ h => h)
      (dispatchLogged_ends hR (hnew hfree _ y rfl hy)))
  · intro error y herror hy
    split at herror <;> cases herror
    next htaken =>
    rw [if_pos rfl]
    refine Routine.wp_pure ?_
    rw [if_pos rfl]
    exact Routine.wp_pure ⟨t, hy, hlogged htaken⟩

end Dispatch

theorem logged_put {key key' : String} {row : WebhookEvent} {t : Db} :
    Logged key (store.applyAll [.putWebhookEvent key' row] t) ↔ Logged key t ∨ key = key' := by
  change ((t.webhookEvents.insert key' row).lookup key).isSome = true ↔ _
  by_cases hkey : key = key'
  · subst hkey
    rw [AList.lookup_insert]
    simp
  · rw [AList.lookup_insert_ne hkey]
    simp [Logged, hkey]

theorem logged_coherent {key : String} {row : WebhookEvent} {t : Db} (ht : Coherent t) :
    Coherent (store.applyAll [.putWebhookEvent key row] t) := by
  have hposts : Posts (fun c s => c = s) .aside t [.putWebhookEvent key row] :=
    ⟨_, .aside, (Entry.MadeBy.nil t).putWebhookEvent⟩
  refine hposts.coherent ?_ ht
  rintro _ rfl
  exact .refl _

theorem startsWith_append {text more start : String} (h : startsWith text start = true) :
    startsWith (text ++ more) start = true := by
  rw [startsWith, List.isPrefixOf_iff_prefix] at h ⊢
  rw [String.toList_append]
  exact h.trans (List.prefix_append _ _)

/-- One text does not start in two ways of which neither starts the other. -/
theorem startsWith_apart {text start start' : String}
    (hapart : startsWith start start' = false ∧ startsWith start' start = false)
    (h : startsWith text start = true) (h' : startsWith text start' = true) : False := by
  rw [startsWith, List.isPrefixOf_iff_prefix] at h h'
  rcases List.prefix_or_prefix_of_prefix h h' with hle | hle
  · rw [startsWith, startsWith, ← List.isPrefixOf_iff_prefix] at *
    simp [hle] at hapart
  · rw [startsWith, startsWith, ← List.isPrefixOf_iff_prefix] at *
    simp [hle] at hapart

namespace ChargeDelivery

variable {reference : String} {k enrollmentId : Id} {stage : Stage} {s t : Db}
  (d : ChargeDelivery reference)

/-- The key that the delivery is logged under. -/
def key : String :=
  dedupeKey (webhookType d.event) ((webhookIdentity d.event).getD reference)

/-- The event says that the charge came through; any other of the charge disputes it. -/
def succeeds : Bool := webhookType d.event = "charge.success"

/-- What the delivery leaves. -/
def after (t : Db) : Db :=
  ((Job.processPaystackWebhookEvent d.event).program.alone store d.choices (.init t)).2.now

variable {d}

theorem identity : ∃ identity, webhookIdentity d.event = some identity ∧
    d.key = dedupeKey (webhookType d.event) identity := by
  have hnamed := d.named
  rw [given, Option.filter_eq_some_iff] at hnamed
  cases hid : d.event.data.bind (·.id) with
  | some identity =>
    have hidentity : webhookIdentity d.event = some identity := by
      rw [webhookIdentity, hid]
      rfl
    exact ⟨identity, hidentity, by rw [key, hidentity]; rfl⟩
  | none =>
    have hidentity : webhookIdentity d.event = some reference := by
      rw [webhookIdentity, hid, hnamed.1]
      rfl
    exact ⟨reference, hidentity, by rw [key, hidentity]; rfl⟩

theorem key_startsWith : startsWith d.key "charge.success" ∧ d.succeeds = true ∨
    (startsWith d.key "charge.dispute" ∨ startsWith d.key "refund.") ∧ d.succeeds = false := by
  by_cases hsuccess : webhookType d.event = "charge.success"
  · refine .inl ⟨?_, decide_eq_true hsuccess⟩
    rw [key, hsuccess]
    exact startsWith_append (startsWith_append (by decide))
  · refine .inr ⟨(d.concerns.resolve_left hsuccess).imp ?_ ?_, decide_eq_false hsuccess⟩
    · exact fun h => startsWith_append (startsWith_append h)
    · exact fun h => startsWith_append (startsWith_append h)

theorem key_ne_conflictKey : d.key ≠ Ledger.conflictKey reference := by
  intro hkey
  have hconflict : startsWith d.key "reconcile.conflict:" := by
    rw [hkey]
    exact startsWith_append (by decide)
  rcases key_startsWith (d := d) with ⟨h, -⟩ | ⟨h | h, -⟩
  · exact startsWith_apart (by decide) h hconflict
  · exact startsWith_apart (by decide) h hconflict
  · exact startsWith_apart (by decide) h hconflict

/-- A success and a dispute are never logged under one key. -/
theorem succeeds_eq_of_key {d e : ChargeDelivery reference} (h : d.key = e.key) :
    d.succeeds = e.succeeds := by
  have he := key_startsWith (d := e)
  rw [← h] at he
  rcases key_startsWith (d := d) with ⟨hd, hsucceeds⟩ | ⟨hd, hsucceeds⟩ <;>
    rcases he with ⟨he, hsucceeds'⟩ | ⟨he, hsucceeds'⟩ <;> rw [hsucceeds, hsucceeds']
  · rcases he with he | he
    · exact (startsWith_apart (by decide) hd he).elim
    · exact (startsWith_apart (by decide) hd he).elim
  · rcases hd with hd | hd
    · exact (startsWith_apart (by decide) hd he).elim
    · exact (startsWith_apart (by decide) hd he).elim

theorem coherent (ht : Coherent t) : Coherent (d.after t) := Job.alone_coherent ht d.choices

/-- What the delivery leaves of the charge and of the log. -/
theorem after_follows (ht : Coherent t) (h : Stands reference k enrollmentId stage t) :
    Stands reference k enrollmentId (if Logged d.key t then stage else stage.next d.succeeds)
        (d.after t) ∧
      ∀ key, key ≠ Ledger.conflictKey reference →
        (Logged key (d.after t) ↔ Logged key t ∨ key = d.key) := by
  rcases d.identity with ⟨identity, hidentity, hkey⟩
  let R (t' : Db) : Prop :=
    Stands reference k enrollmentId (if Logged d.key t then stage else stage.next d.succeeds) t' ∧
      ∀ key, key ≠ Ledger.conflictKey reference →
        (Logged key t' ↔ Logged key t ∨ key = d.key)
  have hsmooth : (processPaystackWebhookEvent d.event).smooth store (fun _ => Ended R)
      (fun _ => Ended R) (.init t) := by
    refine processPaystackWebhookEvent_ends hidentity (.init t) hkey ?_ ?_ ?_
    · rintro t' row ⟨hstands, hlog⟩
      refine ⟨hstands.same rfl rfl, fun key hne => ?_⟩
      rw [logged_put, hlog key hne]
      tauto
    · intro hlogged
      refine ⟨by rwa [if_pos hlogged], fun key _ => ?_⟩
      constructor
      · exact .inl
      · rintro (h | rfl)
        · exact h
        · exact hlogged
    · rintro hfree _ y rfl hy
      have hcoh : Coherent (store.applyAll [.putWebhookEvent d.key (loggedWebhook d.event)] t) :=
        logged_coherent ht
      have hends : ∀ y, Ended (Follows reference k enrollmentId (stage.next d.succeeds)
          (store.applyAll [.putWebhookEvent d.key (loggedWebhook d.event)] t)) y → Ended R y := by
        rintro y ⟨t', hy, hstands, hlog⟩
        refine ⟨t', hy, by rwa [if_neg hfree], fun key hne => ?_⟩
        rw [Logged, hlog key hne]
        exact logged_put
      exact Routine.wp_mono (fun _ => hends) (fun _ => hends)
        (dispatch_follows hcoh hy (h.same rfl rfl) d.named d.concerns)
  have hended : Ended R ((processPaystackWebhookEvent d.event).run.alone store d.choices
      (.init t)).2 := by
    refine Prog.alone_undisturbed (Q := fun _ => Ended R) d.goesThrough
      (Prog.wp_mono (fun r _ h => ?_) hsmooth)
    cases r with
    | ok _ => exact h
    | error _ => exact h
  rcases hended with ⟨t', hy, hR⟩
  have hafter : d.after t = t' := by
    change ((Reply.received <$> processPaystackWebhookEvent d.event).run.alone store d.choices
      (.init t)).2.now = t'
    rw [Routine.alone_map]
    exact hy.now
  rwa [hafter]

end ChargeDelivery

/-! ### One delivery after the other -/

section Sequence

variable {reference : String} {k : Id} {p : Payment} {s : Db}

/-- What the deliveries leave, each begun when the one before has ended. -/
def ChargeDelivery.all (ds : List (ChargeDelivery reference)) (s : Db) : Db :=
  ds.foldl (fun t d => d.after t) s

/-- What the deliveries alone tell: the keys that they have put into the log of `s`, and the stage
    that the charge has come to. -/
structure Told where
  keys : List String
  stage : Stage

def Told.hear (s : Db) (told : Told) (d : ChargeDelivery reference) : Told :=
  if Logged d.key s ∨ d.key ∈ told.keys then told
  else ⟨d.key :: told.keys, told.stage.next d.succeeds⟩

def told (s : Db) (ds : List (ChargeDelivery reference)) : Told :=
  ds.foldl (Told.hear s) ⟨[], .pending⟩

/-- Some dispute is delivered for the first time after a success that was new to the log. -/
def DisputedAfterSuccess (s : Db) (ds : List (ChargeDelivery reference)) : Prop :=
  ∃ before d later, ds = before ++ d :: later ∧ d.succeeds = false ∧ ¬ Logged d.key s ∧
    (∀ e ∈ before, e.key ≠ d.key) ∧ ∃ e ∈ before, e.succeeds = true ∧ ¬ Logged e.key s

theorem told_append (ds : List (ChargeDelivery reference)) (d : ChargeDelivery reference) :
    told s (ds ++ [d]) = (told s ds).hear s d := List.foldl_append

theorem all_append (ds : List (ChargeDelivery reference)) (d : ChargeDelivery reference) :
    ChargeDelivery.all (ds ++ [d]) s = d.after (ChargeDelivery.all ds s) := List.foldl_append

/-- The books follow what the deliveries tell. -/
theorem all_follows (hs : Coherent s) (h : Stands reference k p.enrollmentId .pending s)
    (ds : List (ChargeDelivery reference)) :
    Coherent (ChargeDelivery.all ds s) ∧
      Stands reference k p.enrollmentId (told s ds).stage (ChargeDelivery.all ds s) ∧
      ∀ key, key ≠ Ledger.conflictKey reference →
        (Logged key (ChargeDelivery.all ds s) ↔ Logged key s ∨ key ∈ (told s ds).keys) := by
  induction ds using List.reverseRecOn with
  | nil => exact ⟨hs, h, fun key _ => by simp [told, ChargeDelivery.all]⟩
  | append_singleton ds d ih =>
    rcases ih with ⟨hcoh, hstands, hlog⟩
    rw [all_append, told_append]
    rcases d.after_follows hcoh hstands with ⟨hstands', hlog'⟩
    have hkey := hlog d.key d.key_ne_conflictKey
    refine ⟨d.coherent hcoh, ?_, fun key hne => ?_⟩
    · unfold Told.hear
      simp only [hkey] at hstands'
      split <;> rename_i hknown
      · rwa [if_pos hknown] at hstands'
      · rwa [if_neg hknown] at hstands'
    · rw [hlog' key hne, hlog key hne]
      unfold Told.hear
      split <;> rename_i hknown
      · grind
      · grind

theorem mem_keys {key : String} {ds : List (ChargeDelivery reference)} :
    key ∈ (told s ds).keys ↔ ¬ Logged key s ∧ ∃ d ∈ ds, d.key = key := by
  induction ds using List.reverseRecOn with
  | nil => simp [told]
  | append_singleton ds d ih =>
    rw [told_append]
    unfold Told.hear
    split <;> rename_i hknown
    · grind
    · grind

/-- A delivery moves the charge on only if its key is new. -/
theorem stage_append (ds : List (ChargeDelivery reference)) (d : ChargeDelivery reference) :
    (told s (ds ++ [d])).stage =
      if Logged d.key s ∨ ∃ e ∈ ds, e.key = d.key then (told s ds).stage
      else (told s ds).stage.next d.succeeds := by
  rw [told_append, Told.hear]
  by_cases hlogged : Logged d.key s
  · simp [hlogged]
  · simp only [hlogged, false_or, mem_keys, not_false_eq_true, true_and]
    split <;> rfl

theorem disputedAfterSuccess_append (ds : List (ChargeDelivery reference))
    (d : ChargeDelivery reference) : DisputedAfterSuccess s (ds ++ [d]) ↔
      DisputedAfterSuccess s ds ∨ d.succeeds = false ∧ ¬ Logged d.key s ∧
        (∀ e ∈ ds, e.key ≠ d.key) ∧ ∃ e ∈ ds, e.succeeds = true ∧ ¬ Logged e.key s := by
  constructor
  · rintro ⟨before, d', later, hsplit, h⟩
    rcases List.eq_nil_or_concat later with rfl | ⟨later, d'', rfl⟩
    · rcases List.append_inj' hsplit rfl with ⟨rfl, hd⟩
      obtain rfl := List.singleton_inj.mp hd
      exact .inr h
    · rw [List.concat_eq_append, ← List.cons_append, ← List.append_assoc] at hsplit
      rcases List.append_inj' hsplit rfl with ⟨rfl, -⟩
      exact .inl ⟨before, d', later, rfl, h⟩
  · rintro (⟨before, d', later, rfl, h⟩ | h)
    · exact ⟨before, d', later ++ [d], by simp, h⟩
    · exact ⟨ds, d, [], rfl, h⟩

theorem stage_told (ds : List (ChargeDelivery reference)) :
    ((told s ds).stage = .takenBack ↔ DisputedAfterSuccess s ds) ∧
      ((told s ds).stage = .pending ↔ ¬ ∃ e ∈ ds, e.succeeds = true ∧ ¬ Logged e.key s) := by
  induction ds using List.reverseRecOn with
  | nil =>
    constructor
    · simp [told, DisputedAfterSuccess]
    · simp [told]
  | append_singleton ds d ih =>
    rcases ih with ⟨htaken, hpending⟩
    have hsuccess : (∃ e ∈ ds ++ [d], e.succeeds = true ∧ ¬ Logged e.key s) ↔
        (∃ e ∈ ds, e.succeeds = true ∧ ¬ Logged e.key s) ∨
          d.succeeds = true ∧ ¬ Logged d.key s := by
      simp [or_and_right, exists_or]
    rw [stage_append, disputedAfterSuccess_append, hsuccess]
    split <;> rename_i hknown
    · rw [htaken, hpending]
      constructor
      · grind
      · -- A success that is known by now has come with the same key before.
        have hbefore : d.succeeds = true ∧ ¬ Logged d.key s →
            ∃ e ∈ ds, e.succeeds = true ∧ ¬ Logged e.key s := by
          rintro ⟨hsucceeds, hnew⟩
          rcases hknown.resolve_left hnew with ⟨e, he, hkey⟩
          exact ⟨e, he, (ChargeDelivery.succeeds_eq_of_key hkey).trans hsucceeds, hkey ▸ hnew⟩
        exact not_congr (or_iff_left_of_imp hbefore).symm
    · push Not at hknown
      rcases hknown with ⟨hnew, hfirst⟩
      rw [Stage.next_eq_takenBack, Stage.next_eq_pending, Ne, htaken, hpending, not_not]
      constructor
      · simp only [hnew, true_and, not_false_eq_true]
        exact or_congr Iff.rfl (and_congr Iff.rfl (and_iff_right hfirst).symm)
      · simp [hnew, not_or, Bool.not_eq_true]

/-- The payment has come through, and its plan is open. -/
def Activated (s : Db) (k enrollmentId : Id) : Prop :=
  ∃ p e, s.payments.lookup k = some p ∧ p.status = .SUCCESS ∧
    s.enrollments.lookup enrollmentId = some e ∧
    (e.paymentStatus = .ACTIVE ∨ e.paymentStatus = .COMPLETED)

/-- Whatever events of a charge with an open payment are delivered, in whatever order and however
    often: in the end the deposit has been taken back if and only if some dispute was delivered for
    the first time after the success. If none was, a success leaves the plan open, whatever
    disputes have come before it. -/
theorem dispute_order (hs : Coherent s) (hp : s.payments.lookup k = some p)
    (hreference : p.paystackReference = some reference) (hpending : p.status = .PENDING)
    (ds : List (ChargeDelivery reference)) :
    (TakenBack (ChargeDelivery.all ds s) k p.enrollmentId ↔ DisputedAfterSuccess s ds) ∧
      (¬ DisputedAfterSuccess s ds → (∃ e ∈ ds, e.succeeds = true ∧ ¬ Logged e.key s) →
        Activated (ChargeDelivery.all ds s) k p.enrollmentId) := by
  rcases hs.planOf hp with ⟨e, he, -⟩
  have hstart : Stands reference k p.enrollmentId .pending s :=
    ⟨p, e, hp, hreference, rfl, he, hpending⟩
  rcases all_follows hs hstart ds with ⟨-, hstands, -⟩
  rcases stage_told (s := s) ds with ⟨htaken, hopen⟩
  refine ⟨by rw [hstands.takenBack, htaken], fun hnot hsuccess => ?_⟩
  rcases hstands with ⟨p', e', hp', -, -, he', hfits⟩
  cases hstage : (told s ds).stage with
  | pending => exact absurd hsuccess (hopen.mp hstage)
  | takenBack => exact absurd (htaken.mp hstage) hnot
  | captured =>
    rw [hstage] at hfits
    exact ⟨p', e', hp', hfits.1, he', hfits.2⟩

end Sequence

def disputed : PaystackWebhookEvent where
  event := some "charge.dispute.create"
  data := some { id := some "302", reference := some "lopay_a7", fees := none }

def comesThrough : ChargeDelivery "lopay_a7" where
  event := captured
  choices := smoothly "b"
  named := by decide
  concerns := .inl (by decide)
  goesThrough := fun _ => rfl

def isDisputed : ChargeDelivery "lopay_a7" where
  event := disputed
  choices := smoothly "c"
  named := by decide
  concerns := .inr (.inl (by decide))
  goesThrough := fun _ => rfl

theorem charged_coherent : Coherent charged :=
  Job.alone_coherent oneFamily_opening.coherent _

/-- The dispute takes the deposit back if it comes after the success, and the plan stays open if it
    comes before. -/
theorem dispute_order_both : ∃ p, charged.payments.lookup "a11" = some p ∧
    TakenBack (ChargeDelivery.all [comesThrough, isDisputed] charged) "a11" p.enrollmentId ∧
    Activated (ChargeDelivery.all [isDisputed, comesThrough] charged) "a11" p.enrollmentId := by
  have hany : ((charged.payments.lookup "a11").any fun p =>
      p.paystackReference = some "lopay_a7" ∧ p.status = .PENDING) = true := by
    decide +kernel
  rcases (Option.any_eq_true _ _).mp hany with ⟨p, hp, hcond⟩
  rcases of_decide_eq_true hcond with ⟨hreference, hpending⟩
  have horder := dispute_order charged_coherent hp hreference hpending
  refine ⟨p, hp, (horder _).1.mpr ?_, (horder _).2 ?_ ?_⟩
  · rw [← (stage_told _).1]
    decide +kernel
  · rw [← (stage_told _).1]
    decide +kernel
  · exact ⟨comesThrough, by simp, by decide, by decide +kernel⟩

end Enrollment

end Lopay
