import Lopay.Books.Jobs
import Lopay.Tame.Statements
import Lopay.Transactions.Smooth

/-!
# Deliveries of a webhook event

Every delivery writes the event into a log under a unique key before it dispatches it. The row
stays when the dispatch fails, and every later delivery is answered as a repeated one because of
it. So what is acknowledged has been processed exactly if the first delivery that gets into the
log dispatches the event to the end, or no later one is heard.
-/

namespace Lopay

open Transactions

/-! ### What stays in the log -/

/-- A statement that does not take the row of the key out of the log. -/
def LeavesLogged (key : String) (_ : Db) (ws : List Write) : Prop :=
  .deleteWebhookEvent key ∉ ws

/-- An event is logged under the key. -/
def Logged (key : String) (db : Db) : Prop := (db.webhookEvents.lookup key).isSome = true

instance (key : String) (db : Db) : Decidable (Logged key db) :=
  inferInstanceAs (Decidable (_ = true))

theorem Logged.kept {key : String} {v : Db} {ws : List Write} (hws : LeavesLogged key v ws)
    (h : Logged key v) : Logged key (store.applyAll ws v) := by
  induction ws generalizing v with
  | nil => exact h
  | cons w ws ih =>
    rw [LeavesLogged, List.mem_cons, not_or] at hws
    apply ih hws.2
    cases w with
    | putWebhookEvent key' row =>
      change ((v.webhookEvents.insert key' row).lookup key).isSome = true
      by_cases hkey : key = key'
      · subst hkey
        rw [AList.lookup_insert]
        rfl
      · rw [AList.lookup_insert_ne hkey]
        exact h
    | deleteWebhookEvent key' =>
      have hkey : key ≠ key' := by
        rintro rfl
        exact hws.1 rfl
      change ((v.webhookEvents.erase key').lookup key).isSome = true
      rw [AList.lookup_erase_ne hkey]
      exact h
    | _ => exact h

section Leaving

variable {key : String} {α : Type}

instance : AdmitsNothing (LeavesLogged key) := ⟨fun _ => List.not_mem_nil⟩

theorem leaves {f : Db → Except Err (α × List Write)}
    (h : ∀ v a ws, f v = .ok (a, ws) → .deleteWebhookEvent key ∉ ws) :
    Routine.Keeps (LeavesLogged key) (statement f) :=
  Routine.Keeps.exec admits_nil h

instance (id : Id) (filter : Payment → Bool) (data : Payment → Payment) :
    Routine.Keeps (LeavesLogged key) (updatePayments id filter data) := by
  apply leaves
  grind

instance (id : Id) (filter : ChildEnrollment → Bool) (data : ChildEnrollment → ChildEnrollment) :
    Routine.Keeps (LeavesLogged key) (updateEnrollments id filter data) := by
  apply leaves
  grind

instance (id : Id) (data : ChildEnrollment → ChildEnrollment) :
    Routine.Keeps (LeavesLogged key) (updateEnrollment id data) := by
  apply leaves
  grind

instance (id : Id) : Routine.Keeps (LeavesLogged key) (lockEnrollment id) := by
  apply leaves
  grind

instance (entry : AuditEntry) : Routine.Keeps (LeavesLogged key) (record entry) := by
  apply leaves
  grind

instance (n : Notification) : Routine.Keeps (LeavesLogged key) (insertNotification n) := by
  apply leaves
  grind

instance (key' : String) (row : WebhookEvent) :
    Routine.Keeps (LeavesLogged key) (createWebhookEvent key' row) := by
  apply leaves
  grind

instance (key' : String) (data : WebhookEvent → WebhookEvent) :
    Routine.Keeps (LeavesLogged key) (updateWebhookEvent key' data) := by
  apply leaves
  grind

/-- The row of another key may be taken out. -/
theorem deleteWebhookEvent_leaves {key' : String} (h : key ≠ key') :
    Routine.Keeps (LeavesLogged key) (deleteWebhookEvent key') := by
  apply leaves
  grind

namespace Ledger

instance (enrollmentId : Id) (schoolAmountKobo : Int) :
    Routine.Keeps (LeavesLogged key) (creditFirstPaymentToBalance enrollmentId schoolAmountKobo) := by
  unfold creditFirstPaymentToBalance
  infer_instance

/-- An escalation takes back nothing but its own claim. -/
theorem escalateReconcileConflict_leaves {reference : String} (payment : PaymentOfPlan)
    (actualFeeKobo : Option Int) (h : key ≠ conflictKey reference) :
    Routine.Keeps (LeavesLogged key)
      (escalateReconcileConflict payment reference actualFeeKobo) := by
  unfold escalateReconcileConflict
  have hrelease := deleteWebhookEvent_leaves h
  infer_instance

instance (payment : PaymentOfPlan) (reference : String) (actualFeeKobo : Option Int)
    (actor : Option AuditActor) :
    Routine.Keeps (LeavesLogged key) (creditCardPayment payment reference actualFeeKobo actor) := by
  unfold creditCardPayment
  infer_instance

instance (payment : PaymentOfPlan) (credited : Credited) :
    Routine.Keeps (LeavesLogged key) (announceCardPayment payment credited) := by
  unfold announceCardPayment
  infer_instance

theorem reconcilePaystackPayment_leaves {reference : String} (actualFeeKobo : Option Int)
    (actor : Option AuditActor) (h : key ≠ conflictKey reference) : Routine.Keeps
      (LeavesLogged key) (reconcilePaystackPayment reference actualFeeKobo actor) := by
  unfold reconcilePaystackPayment
  have hescalate (payment : PaymentOfPlan) :=
    escalateReconcileConflict_leaves payment actualFeeKobo h
  apply Routine.Keeps.andThen
  intro found
  cases found with
  | none => infer_instance
  | some payment =>
    apply Routine.Keeps.otherwise
    apply Routine.Keeps.otherwise
    apply Routine.Keeps.andThen
    intro processed
    cases processed with
    | none => infer_instance
    | some credited => infer_instance

instance (reference : String) :
    Routine.Keeps (LeavesLogged key) (failPaystackPayment reference) := by
  unfold failPaystackPayment
  apply Routine.Keeps.andThen
  intro found
  cases found with
  | none => infer_instance
  | some payment => infer_instance

instance (reference eventType : String) :
    Routine.Keeps (LeavesLogged key) (reversePaystackPaymentByDispute reference eventType) := by
  unfold reversePaystackPaymentByDispute
  apply Routine.Keeps.andThen
  intro found
  cases found with
  | none => infer_instance
  | some payment =>
    apply Routine.Keeps.andThen
    intro flipped
    cases flipped with
    | none => infer_instance
    | some toParent => infer_instance

end Ledger

end Leaving

namespace Enrollment

variable {event : PaystackWebhookEvent} {identity : String}

theorem conflictKey_ne_success (identity reference : String) :
    dedupeKey "charge.success" identity ≠ Ledger.conflictKey reference := by
  intro h
  have hchars := congrArg String.toList h
  unfold dedupeKey Ledger.conflictKey at hchars
  simp only [String.toList_append, List.append_assoc] at hchars
  have hsuccess : "charge.success".toList.head? = some 'c' := rfl
  have hconflict : "reconcile.conflict:".toList.head? = some 'r' := rfl
  have hhead := congrArg List.head? hchars
  simp only [List.head?_append, hsuccess, hconflict] at hhead
  simp at hhead

instance (key eventType : String) (reference : Option String) :
    Routine.Keeps (LeavesLogged key) (recordPaystackDispute eventType reference) := by
  unfold recordPaystackDispute reverseDisputed disputedPayment
  cases given reference with
  | none => infer_instance
  | some reference => infer_instance

/-- What an event is logged as stays while it is dispatched. -/
theorem dispatch_leaves (event : PaystackWebhookEvent) (identity : String) : Routine.Keeps
    (LeavesLogged (dedupeKey (webhookType event) identity)) (dispatch event) := by
  unfold dispatch
  dsimp only
  split
  · next reference hreference htype =>
    rw [htype]
    have hreconcile := Ledger.reconcilePaystackPayment_leaves (event.data.bind (·.fees)) none
      (conflictKey_ne_success identity reference)
    infer_instance
  · infer_instance
  · infer_instance

theorem dispatchLogged_leaves (event : PaystackWebhookEvent) (identity : String) : Routine.Keeps
    (LeavesLogged (dedupeKey (webhookType event) identity))
    (dispatchLogged event (dedupeKey (webhookType event) identity)) := by
  unfold dispatchLogged
  have hdispatch := dispatch_leaves event identity
  infer_instance

/-! ### One delivery -/

/-- Log the delivery, and say under which key and whether that was free. -/
def logDelivery (event : PaystackWebhookEvent) : Action (Bool × String) := do
  let identity ← deliveryIdentity event
  let key := dedupeKey (webhookType event) identity
  let stored ← storeWebhookEvent event key
  pure (stored, key)

theorem processPaystackWebhookEvent_eq : processPaystackWebhookEvent event = (do
    let logged ← logDelivery event
    if logged.1 = false then
      pure { duplicate := true }
    else do
      dispatchLogged event logged.2
      pure { duplicate := false }) := by
  simp only [processPaystackWebhookEvent, logDelivery, bind_assoc, pure_bind]

/-- What a delivery does once it has been logged. -/
def proceed (event : PaystackWebhookEvent) : Except Err (Bool × String) → Action WebhookReply
  | .ok logged =>
    if logged.1 = false then
      pure { duplicate := true }
    else do
      dispatchLogged event logged.2
      pure { duplicate := false }
  | .error error => throw error

theorem storeWebhookEvent_run {key : String} : (storeWebhookEvent event key).run =
    .stmt
      (fun db => if (db.webhookEvents.lookup key).isSome then []
        else [.putWebhookEvent key (loggedWebhook event)])
      (fun v => .ret (match v with
        | none => .error .database
        | some db => .ok (db.webhookEvents.lookup key).isNone)) := by
  refine congrArg₂ Prog.stmt (funext fun db => ?_) (funext fun v => ?_)
  · cases hrow : db.webhookEvents.lookup key with
    | none => simp [hrow]
    | some row => simp [hrow]
  · cases v with
    | none => rfl
    | some db =>
      cases hrow : db.webhookEvents.lookup key with
      | none =>
        simp only [hrow]
        rfl
      | some row =>
        simp only [hrow]
        rfl

/-- A delivery of the event: what others have made of the database since the one before, and how
    its own steps fare. Nobody else touches the row that the event is logged in. -/
structure Delivery (event : PaystackWebhookEvent) where
  since : Db → Db
  choices : Nat → Choice Answer
  untouched : ∀ s identity, webhookIdentity event = some identity →
    (since s).webhookEvents.lookup (dedupeKey (webhookType event) identity) =
      s.webhookEvents.lookup (dedupeKey (webhookType event) identity)

namespace Delivery

variable (d : Delivery event) (s : Db)

def start : Context := .init (d.since s)

/-- What logging the delivery ends in. -/
def logging : Except Err (Bool × String) × Context :=
  (logDelivery event).run.alone store d.choices (d.start s)

/-- What the delivery ends in. -/
def processing : Except Err WebhookReply × Context :=
  (processPaystackWebhookEvent event).run.alone store d.choices (d.start s)

def after : Db := (d.processing s).2.now

/-- The delivery returns normally. -/
def Acknowledged : Prop := ∃ reply, (d.processing s).1 = .ok reply

/-- The delivery dispatches the event, and the dispatch completes without error. -/
def Dispatched : Prop :=
  (∃ key, (d.logging s).1 = .ok (true, key)) ∧
    ((dispatch event).run.alone store
      ((logDelivery event).run.rest store d.choices (d.start s)) (d.logging s).2).1 = .ok ()

/-- The insert into the log fails: it is the first step, or the second if an identity is drawn. -/
def Refused : Prop := (d.choices (if (webhookIdentity event).isSome then 0 else 1)).fault = true

instance : Decidable d.Refused := inferInstanceAs (Decidable (_ = true))

/-- The key that the delivery is logged under. -/
def key : String :=
  dedupeKey (webhookType event)
    ((webhookIdentity event).getD ((d.choices 0).answer .randomUUID))

section Outcome

variable {d : Delivery event} {s : Db}

theorem store_alone {key : String} {t : Db} {x : Context} {ch : Nat → Choice Answer}
    (hx : x.Outside t) :
    ((storeWebhookEvent event key >>= fun stored => pure (stored, key) :
      Action (Bool × String)).run.alone store ch x) =
      if (ch 0).fault then (.error .database, x.failed)
      else if (t.webhookEvents.lookup key).isSome then (.ok (false, key), x.wrote store [])
      else (.ok (true, key), x.wrote store [.putWebhookEvent key (loggedWebhook event)]) := by
  change (Prog.alone store ((storeWebhookEvent event key).run.bind _) _ _) = _
  rw [storeWebhookEvent_run, Prog.alone_stmt_bind, hx.view]
  cases hrow : t.webhookEvents.lookup key with
  | none => simp [hrow]; rfl
  | some row => simp [hrow]; rfl

/-- A delivery is refused, or it finds its key taken, or it takes the key. -/
theorem logging_eq : ∃ y : Context, y.Outside (d.since s) ∧ d.logging s =
    if d.Refused then (.error .database, y.failed)
    else if Logged d.key (d.since s) then (.ok (false, d.key), y.wrote store [])
    else (.ok (true, d.key), y.wrote store [.putWebhookEvent d.key (loggedWebhook event)]) := by
  have hstart : (d.start s).Outside (d.since s) := ⟨rfl, rfl⟩
  cases hidentity : webhookIdentity event with
  | some identity =>
    have hkey : d.key = dedupeKey (webhookType event) identity := by
      rw [key, hidentity]
      rfl
    have hrefused : d.Refused ↔ (d.choices 0).fault = true := by
      rw [Refused, hidentity]
      rfl
    refine ⟨d.start s, hstart, ?_⟩
    rw [hkey]
    simp only [logging, logDelivery, deliveryIdentity, hidentity, hrefused, pure_bind]
    exact store_alone hstart
  | none =>
    have hkey : d.key =
        dedupeKey (webhookType event) ((d.choices 0).answer .randomUUID) := by
      rw [key, hidentity]
      rfl
    have hrefused : d.Refused ↔ (d.choices 1).fault = true := by
      rw [Refused, hidentity]
      rfl
    have hdrawn : ((d.start s).answered .randomUUID
        ((d.choices 0).answer .randomUUID)).Outside (d.since s) := ⟨rfl, rfl⟩
    refine ⟨_, hdrawn, ?_⟩
    rw [hkey]
    simp only [logging, logDelivery, deliveryIdentity, hidentity, hrefused]
    exact Routine.alone_ask_bind.trans (store_alone hdrawn)

/-- A delivery goes on from what logging it has ended in. -/
theorem processing_eq : d.processing s = (proceed event (d.logging s).1).run.alone store
    ((logDelivery event).run.rest store d.choices (d.start s)) (d.logging s).2 := by
  rw [processing, processPaystackWebhookEvent_eq]
  change (Prog.alone store ((logDelivery event).run.bind _) _ _) = _
  rw [Prog.alone_bind, logging]
  cases ((logDelivery event).run.alone store d.choices (d.start s)).1 with
  | ok logged => rfl
  | error e => rfl

/-- A delivery that is refused changes nothing. -/
theorem refused (h : d.Refused) :
    ¬ d.Acknowledged s ∧ ¬ d.Dispatched s ∧ d.after s = d.since s := by
  rcases logging_eq (d := d) (s := s) with ⟨y, hy, hlogging⟩
  rw [if_pos h] at hlogging
  have hprocessing : d.processing s = (.error .database, y.failed) := by
    rw [processing_eq, hlogging]
    rfl
  refine ⟨?_, ?_, ?_⟩
  · rintro ⟨reply, hreply⟩
    rw [hprocessing] at hreply
    cases hreply
  · rintro ⟨⟨key, hkey⟩, -⟩
    rw [hlogging] at hkey
    cases hkey
  · rw [after, hprocessing]
    exact hy.now

/-- A delivery that finds its key taken is answered all the same. -/
theorem repeated (h : ¬ d.Refused) (hlogged : Logged d.key (d.since s)) :
    d.Acknowledged s ∧ ¬ d.Dispatched s ∧ d.after s = d.since s := by
  rcases logging_eq (d := d) (s := s) with ⟨y, hy, hlogging⟩
  rw [if_neg h, if_pos hlogged] at hlogging
  have hprocessing : d.processing s = (.ok ⟨true⟩, y.wrote store []) := by
    rw [processing_eq, hlogging]
    rfl
  refine ⟨⟨⟨true⟩, by rw [hprocessing]⟩, ?_, ?_⟩
  · rintro ⟨⟨key, hkey⟩, -⟩
    rw [hlogging] at hkey
    cases hkey
  · rw [after, hprocessing]
    exact (hy.wrote []).now

/-- What is dispatched with an error is thrown on. -/
theorem proceed_throws (key : String) {ch : Nat → Choice Answer} {x : Context} {e : Err}
    (h : ((dispatch event).run.alone store ch x).1 = .error e) :
    ∃ e', ((proceed event (.ok (true, key))).run.alone store ch x).1 = .error e' := by
  have hdispatch : ((dispatch event >>= fun _ => do
      let now ← ask .now
      updateWebhookEvent key fun row => { row with processedAt := some now }
        : Action Unit).run.alone store ch x).1 = .error e := Routine.alone_bind_error h
  have hthrown : ∃ e', ((dispatchLogged event key).run.alone store ch x).1 = .error e' := by
    rw [dispatchLogged, Routine.alone_tryCatch_error hdispatch]
    exact Routine.alone_bind_throw
  rcases hthrown with ⟨e', he'⟩
  exact ⟨e', Routine.alone_bind_error he'⟩

/-- A delivery that takes its key is acknowledged only if it has dispatched the event. -/
theorem first (h : ¬ d.Refused) (hfree : ¬ Logged d.key (d.since s)) :
    (d.Acknowledged s → d.Dispatched s) ∧ Logged d.key (d.after s) := by
  rcases logging_eq (d := d) (s := s) with ⟨y, hy, hlogging⟩
  rw [if_neg h, if_neg hfree] at hlogging
  have hprocessing := processing_eq (d := d) (s := s)
  rw [hlogging] at hprocessing
  constructor
  · rintro ⟨reply, hreply⟩
    refine ⟨⟨d.key, by rw [hlogging]⟩, ?_⟩
    rw [hlogging]
    by_contra herror
    cases hresult : ((dispatch event).run.alone store
        ((logDelivery event).run.rest store d.choices (d.start s))
        (y.wrote store [.putWebhookEvent d.key (loggedWebhook event)])).1 with
    | ok _ => exact herror hresult
    | error e =>
      rcases proceed_throws d.key hresult with ⟨e', he'⟩
      rw [hprocessing, he'] at hreply
      cases hreply
  · have hwritten := hy.wrote (S := store) [.putWebhookEvent d.key (loggedWebhook event)]
    have hlogged : Logged d.key
        (store.applyAll [.putWebhookEvent d.key (loggedWebhook event)] (d.since s)) := by
      change ((AList.insert _ _ _).lookup _).isSome = true
      rw [AList.lookup_insert]
      rfl
    have hleaves : Routine.Keeps (LeavesLogged d.key) (proceed event (.ok (true, d.key))) := by
      have hdispatch : Routine.Keeps (LeavesLogged d.key) (dispatchLogged event d.key) :=
        dispatchLogged_leaves event _
      change Routine.Keeps (LeavesLogged d.key) (dispatchLogged event d.key >>= fun _ =>
        pure { duplicate := false } : Action WebhookReply)
      infer_instance
    rw [after, hprocessing]
    exact (Prog.alone_post _ (Contract.plain_total _ _) (Prog.alone_of_obeys
      (fun _ _ => Logged.kept) (hleaves.obeys .nil) (hwritten.now ▸ hlogged)
      (hwritten.view ▸ hlogged))).1

end Outcome

end Delivery

/-! ### One delivery after the other -/

section Sequence

variable {d : Delivery event} {ds : List (Delivery event)} {s : Db}

/-- What the deliveries leave, each begun when the one before has ended. -/
def deliverAll (ds : List (Delivery event)) (s : Db) : Db := ds.foldl (fun s d => d.after s) s

/-- Whatever delivery is acknowledged, it or an earlier one has dispatched the event and seen the
    dispatch complete. -/
def Processed (ds : List (Delivery event)) (s : Db) : Prop :=
  ∀ before d later, ds = before ++ d :: later → d.Acknowledged (deliverAll before s) →
    ∃ before' e later', before ++ [d] = before' ++ e :: later' ∧ e.Dispatched (deliverAll before' s)

/-- The first delivery that gets into the log has its dispatch complete, or every later one is
    refused. -/
def FirstCompletes : List (Delivery event) → Db → Prop
  | [], _ => True
  | d :: ds, s =>
    if d.Refused then FirstCompletes ds (d.since s)
    else d.Dispatched s ∨ ∀ e ∈ ds, e.Refused

/-- An identity that is drawn for want of another is unlike any that the log holds. -/
def FreshlyDrawn (ds : List (Delivery event)) (s : Db) : Prop :=
  webhookIdentity event = none → ∀ before d later, ds = before ++ d :: later →
    ¬ Logged d.key (d.since (deliverAll before s))

theorem processed_cons : Processed (d :: ds) s ↔
    (d.Acknowledged s → d.Dispatched s) ∧ (d.Dispatched s ∨ Processed ds (d.after s)) := by
  constructor
  · intro h
    constructor
    · intro hack
      rcases h [] d ds rfl hack with ⟨before', e, later', hsplit, hdone⟩
      cases before' with
      | nil =>
        obtain rfl := (List.cons.inj hsplit).1
        exact hdone
      | cons d' before' => simp at hsplit
    · by_cases hd : d.Dispatched s
      · exact .inl hd
      · refine .inr fun before x later hds hack => ?_
        rcases h (d :: before) x later (congrArg (d :: ·) hds) hack with
          ⟨before', e, later', hsplit, hdone⟩
        cases before' with
        | nil =>
          obtain rfl := (List.cons.inj hsplit).1
          exact absurd hdone hd
        | cons d' before' =>
          obtain ⟨rfl, hsame⟩ := List.cons.inj hsplit
          exact ⟨before', e, later', hsame, hdone⟩
  · rintro ⟨hself, hrest⟩ before x later hds hack
    cases before with
    | nil =>
      obtain ⟨rfl, -⟩ := List.cons.inj hds
      exact ⟨[], d, [], rfl, hself hack⟩
    | cons d' before =>
      obtain ⟨rfl, hsame⟩ := List.cons.inj hds
      rcases hrest with hd | hrest
      · exact ⟨[], d, before ++ [x], rfl, hd⟩
      · rcases hrest before x later hsame hack with ⟨before', e, later', hsplit, hdone⟩
        exact ⟨d :: before', e, later', congrArg (d :: ·) hsplit, hdone⟩

section Known

variable (hidentity : webhookIdentity event = some identity)

include hidentity

theorem Delivery.key_eq : d.key = dedupeKey (webhookType event) identity := by
  rw [Delivery.key, hidentity]
  rfl

theorem Delivery.logged_since : Logged d.key (d.since s) ↔ Logged d.key s := by
  rw [Delivery.key_eq hidentity, Logged, Logged, d.untouched s identity hidentity]

/-- Once the event is logged, nothing is dispatched any more, and every delivery that is not
    refused is acknowledged. -/
theorem processed_of_logged (h : Logged (dedupeKey (webhookType event) identity) s) :
    Processed ds s ↔ ∀ d ∈ ds, d.Refused := by
  induction ds generalizing s with
  | nil => simp [Processed]
  | cons d ds ih =>
    rw [← d.key_eq hidentity] at h
    have hsince := (d.logged_since hidentity).mpr h
    rw [processed_cons, List.forall_mem_cons]
    by_cases hrefused : d.Refused
    · rcases d.refused hrefused with ⟨hack, hdispatched, hafter⟩
      rw [hafter, ih (d.key_eq hidentity ▸ hsince)]
      simp [hack, hdispatched, hrefused]
    · rcases d.repeated hrefused hsince with ⟨hack, hdispatched, -⟩
      simp [hack, hdispatched, hrefused]

/-- As long as the event is not logged, it is up to the first delivery that gets in. -/
theorem processed_of_new (h : ¬ Logged (dedupeKey (webhookType event) identity) s) :
    Processed ds s ↔ FirstCompletes ds s := by
  induction ds generalizing s with
  | nil => simp [Processed, FirstCompletes]
  | cons d ds ih =>
    rw [← d.key_eq hidentity] at h
    have hsince := mt (d.logged_since hidentity).mp h
    rw [processed_cons, FirstCompletes]
    by_cases hrefused : d.Refused
    · rcases d.refused hrefused with ⟨hack, hdispatched, hafter⟩
      rw [hafter, ih (d.key_eq hidentity ▸ hsince), if_pos hrefused]
      simp [hack, hdispatched]
    · rcases d.first hrefused hsince with ⟨hself, hlogged⟩
      rw [if_neg hrefused, processed_of_logged hidentity (d.key_eq hidentity ▸ hlogged)]
      exact and_iff_right hself

end Known

theorem processed_of_drawn (hnone : webhookIdentity event = none) (h : FreshlyDrawn ds s) :
    Processed ds s := by
  induction ds generalizing s with
  | nil => simp [Processed]
  | cons d ds ih =>
    rw [processed_cons]
    constructor
    · by_cases hrefused : d.Refused
      · exact fun hack => absurd hack (d.refused hrefused).1
      · exact (d.first hrefused (h hnone [] d ds rfl)).1
    · exact .inr (ih fun _ before e later hds =>
        h hnone (d :: before) e later (congrArg (d :: ·) hds))

end Sequence

/-- The family has a card charge open. -/
def charged : Db :=
  ((Job.initiateFirstPayment environment (enrollment none) "parent").program.alone store
    (smoothly "a") (.init oneFamily)).2.now

def captured : PaystackWebhookEvent where
  event := some "charge.success"
  data := some { id := some "301", reference := some "lopay_a7", fees := some 41250 }

/-- A delivery of the event whose step `failing` fails, if any does. -/
def delivered (failing : Option Nat) : Delivery captured where
  since := id
  choices := fun n => { smoothly "b" n with fault := failing = some n }
  untouched := fun _ _ _ => rfl

theorem charged_unlogged (identity : String) (h : webhookIdentity captured = some identity) :
    ¬ Logged (dedupeKey (webhookType captured) identity) charged := by
  obtain rfl := Option.some.inj h
  decide +kernel

end Enrollment

end Lopay
