import Lopay.Books.Smooth
import Lopay.Work

/-!
# What is told before it is committed

A message cannot be taken back: `NotificationsService.create` writes past the transaction of
its caller and tells the phone of a parent, and an event on a socket is seen by whoever
listens. Five operations of the ledger tell the parent inside their transaction. As long as
nothing fails between such a message and the commit after it, nothing is told of a change that
has not been made.
-/

namespace Lopay

open Transactions

/-- Whether a request, answered like this, has told somebody of a change. The alert about a
    conflict tells of a charge that has been captured at Paystack. -/
def tells : (c : Call) → Answer c → Bool
  | .createNotification n, delivered =>
    delivered && n.title != "Payment needs manual reconciliation"
  | .pushNotification _ _, _ | .emitEnrollmentsChanged _, _ | .emitPaymentsChanged _, _ => true
  | .now, _ | .randomUUID, _ | .randomToken, _ | .rowOrder _, _ | .initializeTransaction _, _
  | .verifyTransaction _, _ => false

/-- The method has told somebody of a change. -/
def Told (x : Context) : Prop := x.log.any (fun a => tells a.1 a.2) = true

instance (x : Context) : Decidable (Told x) := inferInstanceAs (Decidable (_ = true))

/-- The contract of a method whose transaction does not commit what it has written, and which
    does not fail in a transaction that it has told somebody about. -/
def uncommitted : Contract Db Write Answer where
  rely := fun _ _ => True
  answers := fun _ _ _ => True
  faults := fun x => Told x → x.tx = none
  admits := fun x _ => x.tx = none
  guarantee := fun x ws => (store.applyAll ws x.now).notifications = x.now.notifications
  asks := fun _ _ => True

/-- Nothing has been told yet; `i` says whether a transaction is open. -/
structure Silent (i : Bool) (x : Context) : Prop where
  tx : x.tx.isSome = i
  log : ¬ Told x

/-- The open transaction has something to commit. -/
def Pends (x : Context) : Prop := ∃ ws, x.tx = some ws ∧ ws ≠ []

variable {i : Bool} {x y : Context} {α β : Type}

theorem Silent.drift {R : Context → List Write → Prop} (h : Silent i x) (hd : Drift store R x y) :
    Silent i y := by
  obtain ⟨htx, hlog⟩ := h
  refine ⟨by rw [hd.tx_eq, htx], ?_⟩
  rw [Told, hd.log_eq]
  exact hlog

theorem Pends.drift {R : Context → List Write → Prop} (h : Pends x) (hd : Drift store R x y) :
    Pends y := by
  rw [Pends, hd.tx_eq]
  exact h

theorem Silent.wrote (h : Silent i x) (ws : List Write) : Silent i (x.wrote store ws) := by
  obtain ⟨htx, hlog⟩ := h
  refine ⟨by rw [Ctx.wrote_tx, Option.isSome_map, htx], ?_⟩
  rw [Told, Ctx.wrote_log]
  exact hlog

theorem Pends.wrote (h : Pends x) (ws : List Write) : Pends (x.wrote store ws) := by
  obtain ⟨pending, htx, hne⟩ := h
  refine ⟨pending ++ ws, ?_, List.append_ne_nil_of_left_ne_nil hne ws⟩
  rw [Ctx.wrote_tx, htx]
  rfl

theorem Silent.failed (h : Silent i x) : Silent i x.failed := ⟨h.tx, h.log⟩

/-- The precondition of such a method that has told nothing when it fails. -/
abbrev quiet (m : Action α) (ok : α → Context → Prop) (i : Bool) (x : Context) : Prop :=
  m.wp store uncommitted ok (fun _ => Silent i) x

section Rules

variable {ok : α → Context → Prop}

theorem quiet_map {m : Action α} {f : α → β} (h : quiet m (fun _ => Silent false) false x) :
    quiet (f <$> m) (fun _ => Silent false) false x := wp_map (fun _ _ h => h) h

theorem quiet_ask {c : Call} {ok : Answer c → Context → Prop} (h : Silent i x)
    (hc : ∀ a, tells c a = false) (hok : ∀ a y, Silent i y → (Pends x → Pends y) → ok a y) :
    quiet (ask c) ok i x := by
  refine Routine.wp_ask fun y hd => ⟨trivial, fun a _ => hok a _ ?_ fun hn => ?_⟩
  · obtain ⟨htx, hlog⟩ := h.drift hd
    refine ⟨htx, fun htold => hlog ?_⟩
    rw [Told, Ctx.answered, List.any_cons, hc, Bool.false_or] at htold
    exact htold
  · have hy : Pends y := hn.drift hd
    exact hy

theorem quiet_read {q : Db → α} (h : Silent i x) (hok : ∀ a y, Silent i y → ok a y) :
    quiet (read q) ok i x := by
  refine Routine.wp_query fun y hd => ⟨fun _ => (h.drift hd).failed, hok _ _ ?_⟩
  exact (h.drift hd).wrote []

/-- A statement of a transaction. -/
theorem quiet_statement {f : Db → Except Err (α × List Write)} (h : Silent true x)
    (hok : ∀ a y, Silent true y → (Pends x → Pends y) → ok a y) :
    quiet (statement f) ok true x := by
  refine Routine.wp_exec fun y hd => ⟨fun _ => (h.drift hd).failed, fun _ _ => ?_,
    fun a ws _ => ⟨fun hne _ => ?_, fun _ => hok a _ ?_ fun hn => ?_⟩⟩
  · exact (h.drift hd).wrote []
  · obtain ⟨pending, htx⟩ := Option.isSome_iff_exists.mp (h.drift hd).tx
    rw [Ctx.released, htx] at hne
    exact absurd rfl hne
  · exact (h.drift hd).wrote ws
  · exact (hn.drift hd).wrote ws

theorem Silent.outside (h : Silent false x) : x.tx = none := by
  rw [← Option.isNone_iff_eq_none, ← Option.not_isSome, h.tx]
  rfl

/-- A statement outside a transaction, which inserts no notification. -/
theorem quiet_outside {f : Db → Except Err (α × List Write)} (h : Silent false x)
    (hf : ∀ s a ws, f s = .ok (a, ws) → (store.applyAll ws s).notifications = s.notifications)
    (hok : ∀ a y, Silent false y → ok a y) : quiet (statement f) ok false x := by
  refine Routine.wp_exec fun y hd => ⟨fun _ => (h.drift hd).failed, fun _ _ => ?_,
    fun a ws hws => ⟨fun _ _ => ?_, fun _ => hok a _ ?_⟩⟩
  · exact (h.drift hd).wrote []
  · have htx := (h.drift hd).outside
    have hview : y.view store = y.now := by
      rw [Ctx.view, Ctx.pending, htx]
      rfl
    rw [hview] at hws
    rw [Ctx.released_outside htx]
    exact hf _ a ws hws
  · exact (h.drift hd).wrote ws

theorem quiet_record {entry : AuditEntry} {ok : Unit → Context → Prop} (h : Silent true x)
    (hok : ∀ y, Silent true y → Pends y → ok () y) : quiet (record entry) ok true x := by
  change quiet (statement fun _ => .ok ((), [.audit entry])) ok true x
  refine Routine.wp_exec fun y hd => ⟨fun _ => (h.drift hd).failed, fun e he => ?_,
    fun a ws hf => ⟨fun hne _ => ?_, fun _ => ?_⟩⟩
  · cases he
  · obtain ⟨pending, htx⟩ := Option.isSome_iff_exists.mp (h.drift hd).tx
    rw [Ctx.released, htx] at hne
    exact absurd rfl hne
  · obtain ⟨-, rfl⟩ := Prod.mk.inj (Except.ok.inj hf)
    refine hok _ ((h.drift hd).wrote _) ?_
    obtain ⟨pending, htx⟩ := Option.isSome_iff_exists.mp (h.drift hd).tx
    refine ⟨pending ++ [.audit entry], ?_, List.append_ne_nil_of_right_ne_nil _ (List.cons_ne_nil _ _)⟩
    rw [Ctx.wrote_tx, htx]
    rfl

/-- A notification in a transaction with an audit row: if it is refused, nothing is told. -/
theorem quiet_createNotification {n : Notification} {ok : Unit → Context → Prop}
    (h : Silent true x) (hn : Pends x) (hok : ∀ y, Pends y → ok () y) :
    quiet (createNotification n) ok true x := by
  refine Routine.wp_bind (Routine.wp_ask fun y hd => ⟨trivial, fun delivered _ => ?_⟩)
  refine Routine.wp_throwIf (fun hrefused => ?_) fun _ => ?_
  · obtain ⟨htx, hlog⟩ := h.drift hd
    subst hrefused
    exact ⟨htx, hlog⟩
  · have hy : Pends y := hn.drift hd
    exact hok _ hy

theorem quiet_findOrThrow {q : Db → Option α} (h : Silent i x)
    (hok : ∀ a y, Silent i y → ok a y) : quiet (findOrThrow q) ok i x := by
  refine Routine.wp_bind (quiet_read h fun found y hy => ?_)
  exact Routine.wp_orThrow (fun _ => hy) fun a _ => hok a y hy

theorem quiet_orThrow {o : Option α} {e : Err} (h : Silent i x) (hok : ∀ a, ok a x) :
    quiet (Routine.orThrow o e) ok i x :=
  Routine.wp_orThrow (fun _ => h) fun a _ => hok a

theorem quiet_throwIf {c : Prop} [Decidable c] {e : Err} {ok : Unit → Context → Prop}
    (h : Silent i x) (hok : ok () x) : quiet (Routine.throwIf c e) ok i x :=
  Routine.wp_throwIf (fun _ => h) fun _ => hok

theorem quiet_transaction {body : Action α} (h : Silent false x)
    (hbody : ∀ y, Silent true y → quiet body
      (fun a z => Pends z ∨ Silent true z ∧ ∀ u, Silent false u → ok a u) true y) :
    quiet (transaction body) ok false x := by
  refine Routine.wp_transaction fun y hd => ?_
  have hopened : Silent true y.opened := ⟨rfl, (h.drift hd).log⟩
  refine Routine.wp_mono (fun a z hz u hd => ?_) (fun e z hz u hd => ⟨rfl, (hz.drift hd).log⟩)
    (hbody _ hopened)
  have hinside : u.tx ≠ none := by
    intro hclosed
    rw [hd.tx_eq] at hclosed
    rcases hz with ⟨ws, htx, -⟩ | ⟨hz, -⟩
    · rw [htx] at hclosed
      cases hclosed
    · have hsome := hz.tx
      rw [hclosed] at hsome
      cases hsome
  refine ⟨fun hfault => ⟨rfl, fun htold => hinside (hfault htold)⟩,
    fun _ hadmits => absurd hadmits hinside, fun hadmits => ?_⟩
  rcases hz with ⟨ws, htx, hne⟩ | ⟨hz, hok⟩
  · refine absurd (hadmits ?_) hinside
    rw [Ctx.pending, hd.tx_eq, htx]
    exact hne
  · refine hok _ ⟨?_, ?_⟩
    · rw [Ctx.see_tx]
      rfl
    · rw [Told, Ctx.see_log]
      exact (hz.drift hd).log

/-- Whatever is caught, the method goes on. -/
theorem quiet_tryCatch {m : Action α} {handler : Err → Action α} (hm : quiet m (fun _ => Silent i) i x)
    (hhandler : ∀ e y, Silent i y → quiet (handler e) (fun _ => Silent i) i y)
    (hok : ∀ a y, Silent i y → ok a y) : quiet (tryCatch m handler) ok i x :=
  Routine.wp_mono (fun a y hy => hok a y hy) (fun _ _ h => h)
    (Routine.wp_tryCatch (Routine.wp_mono (fun _ _ h => h) hhandler hm))

theorem quiet_onlyIf {c : Prop} [Decidable c] {m : Action Unit} {ok : Unit → Context → Prop}
    (h : Silent i x) (hm : quiet m (fun _ => Silent i) i x) (hok : ∀ y, Silent i y → ok () y) :
    quiet (Routine.onlyIf c m) ok i x :=
  Routine.wp_onlyIf (fun _ => Routine.wp_mono (fun _ y hy => hok y hy) (fun _ _ h => h) hm)
    fun _ => hok x h

/-- An update of which only the effect matters. -/
theorem quiet_update {f : Db → Except Err (α × List Write)} (h : Silent true x) :
    quiet (do let _ ← statement f) (fun _ => Silent true) true x :=
  Routine.wp_bind (quiet_statement h fun _ _ hy _ => hy)

end Rules

/-! ### The operations -/

theorem confirmPayment_quiet {paymentId schoolId : Id} {actor : AuditActor}
    (hx : Silent false x) :
    quiet (Ledger.confirmPayment paymentId schoolId actor) (fun _ => Silent false) false x := by
  unfold Ledger.confirmPayment
  refine Routine.wp_bind (quiet_read hx fun found y hy => ?_)
  refine Routine.wp_bind (quiet_orThrow hy fun payment => ?_)
  refine Routine.wp_bind (quiet_transaction hy fun y hy => ?_)
  refine Routine.wp_bind (quiet_ask hy (fun _ => rfl) fun now y hy _ => ?_)
  refine Routine.wp_bind (quiet_statement hy fun confirmed y hy _ => ?_)
  refine Routine.wp_bind (quiet_throwIf hy ?_)
  refine Routine.wp_bind (quiet_findOrThrow hy fun before y hy => ?_)
  refine Routine.wp_bind (quiet_statement hy fun decremented y hy _ => ?_)
  refine Routine.wp_bind (quiet_onlyIf hy (quiet_update hy) fun y hy => ?_)
  refine Routine.wp_bind (quiet_findOrThrow hy fun updated y hy => ?_)
  refine Routine.wp_bind (quiet_record hy fun y hy hn => ?_)
  refine Routine.wp_bind (quiet_createNotification hy hn fun y hn => ?_)
  exact Or.inl hn

theorem rejectPayment_quiet {paymentId schoolId : Id} {actor : AuditActor}
    (hx : Silent false x) :
    quiet (Ledger.rejectPayment paymentId schoolId actor) (fun _ => Silent false) false x := by
  unfold Ledger.rejectPayment
  refine Routine.wp_bind (quiet_read hx fun found y hy => ?_)
  refine Routine.wp_bind (quiet_orThrow hy fun payment => ?_)
  refine Routine.wp_bind (quiet_transaction hy fun y hy => ?_)
  refine Routine.wp_bind (quiet_statement hy fun rejected y hy _ => ?_)
  refine Routine.wp_bind (quiet_throwIf hy ?_)
  refine Routine.wp_bind (quiet_findOrThrow hy fun updated y hy => ?_)
  refine Routine.wp_bind (quiet_onlyIf hy (quiet_update hy) fun y hy => ?_)
  refine Routine.wp_bind (quiet_record hy fun y hy hn => ?_)
  refine Routine.wp_bind (quiet_createNotification hy hn fun y hn => ?_)
  exact Or.inl hn

theorem reversePayment_quiet {paymentId schoolId : Id} {actor : AuditActor}
    {reason : Option String} (hx : Silent false x) :
    quiet (Ledger.reversePayment paymentId schoolId actor reason) (fun _ => Silent false) false x := by
  unfold Ledger.reversePayment
  refine Routine.wp_bind (quiet_read hx fun found y hy => ?_)
  refine Routine.wp_bind (quiet_orThrow hy fun payment => ?_)
  refine Routine.wp_bind (quiet_transaction hy fun y hy => ?_)
  refine Routine.wp_bind (quiet_statement hy fun reversed y hy _ => ?_)
  refine Routine.wp_bind (quiet_throwIf hy ?_)
  refine Routine.wp_bind (quiet_findOrThrow hy fun before y hy => ?_)
  refine Routine.wp_bind (quiet_statement hy fun incremented y hy _ => ?_)
  refine Routine.wp_bind (quiet_onlyIf hy (quiet_update hy) fun y hy => ?_)
  refine Routine.wp_bind (quiet_findOrThrow hy fun updated y hy => ?_)
  refine Routine.wp_bind (quiet_record hy fun y hy hn => ?_)
  refine Routine.wp_bind (quiet_createNotification hy hn fun y hn => ?_)
  exact Or.inl hn

theorem creditFirstPaymentToBalance_quiet {enrollmentId : Id} {schoolAmount : Int}
    {ok : Ledger.Credited → Context → Prop} (hx : Silent true x)
    (hok : ∀ credited y, Silent true y → ok credited y) :
    quiet (Ledger.creditFirstPaymentToBalance enrollmentId schoolAmount) ok true x := by
  unfold Ledger.creditFirstPaymentToBalance
  refine Routine.wp_bind (quiet_statement hx fun decremented y hy _ => ?_)
  refine Routine.wp_bind (quiet_statement hy fun _ y hy _ => ?_)
  exact hok _ y hy

theorem settleFirstPayment_quiet {paymentId : Id} {actor : AuditActor} (hx : Silent false x) :
    quiet (Ledger.settleFirstPayment paymentId actor) (fun _ => Silent false) false x := by
  unfold Ledger.settleFirstPayment
  refine Routine.wp_bind (quiet_read hx fun found y hy => ?_)
  refine Routine.wp_bind (quiet_orThrow hy fun payment => ?_)
  refine Routine.wp_bind (quiet_transaction hy fun y hy => ?_)
  refine Routine.wp_bind (quiet_statement hy fun res y hy _ => ?_)
  refine Routine.wp_ite (fun _ => ?_) fun _ => ?_
  · exact Or.inr ⟨hy, fun u hu => Routine.wp_bind (Routine.wp_orThrow (fun _ => hu) nofun)⟩
  · refine Routine.wp_bind (creditFirstPaymentToBalance_quiet hy fun credited y hy => ?_)
    refine Routine.wp_bind (quiet_record hy fun y hy hn => ?_)
    refine Routine.wp_bind (quiet_statement hy fun _ y hy hkeep => ?_)
    refine Routine.wp_bind (quiet_statement hy fun _ y hy hkeep' => ?_)
    exact Or.inl (hkeep' (hkeep hn))

theorem rejectFirstPayment_quiet {paymentId : Id} {actor : AuditActor} (hx : Silent false x) :
    quiet (Ledger.rejectFirstPayment paymentId actor) (fun _ => Silent false) false x := by
  unfold Ledger.rejectFirstPayment
  refine Routine.wp_bind (quiet_read hx fun found y hy => ?_)
  refine Routine.wp_bind (quiet_orThrow hy fun payment => ?_)
  refine Routine.wp_bind (quiet_transaction hy fun y hy => ?_)
  refine Routine.wp_bind (quiet_statement hy fun res y hy _ => ?_)
  refine Routine.wp_ite (fun _ => ?_) fun _ => ?_
  · exact Or.inr ⟨hy, fun u hu => Routine.wp_bind (Routine.wp_orThrow (fun _ => hu) nofun)⟩
  · refine Routine.wp_bind (quiet_statement hy fun _ y hy _ => ?_)
    refine Routine.wp_bind (quiet_record hy fun y hy hn => ?_)
    refine Routine.wp_bind (quiet_statement hy fun _ y hy hkeep => ?_)
    refine Routine.wp_bind (quiet_statement hy fun _ y hy hkeep' => ?_)
    exact Or.inl (hkeep' (hkeep hn))

theorem findFirst_quiet {q : Db → List α} {ok : Option α → Context → Prop} (hx : Silent i x)
    (hok : ∀ a y, Silent i y → ok a y) : quiet (findFirst q) ok i x := by
  refine Routine.wp_bind (quiet_read hx fun found y hy => ?_)
  refine Routine.wp_bind (quiet_ask hy (fun _ => rfl) fun order y hy _ => ?_)
  exact hok _ y hy

theorem confirmFirstPayment_quiet {enrollmentId schoolId : Id} {actor : AuditActor}
    (hx : Silent false x) :
    quiet (Ledger.confirmFirstPayment enrollmentId schoolId actor) (fun _ => Silent false) false
      x := by
  unfold Ledger.confirmFirstPayment
  refine Routine.wp_bind (quiet_transaction hx fun y hy => ?_)
  refine Routine.wp_bind (quiet_read hy fun found y hy => ?_)
  refine Routine.wp_bind (quiet_orThrow hy fun enrollment => ?_)
  refine Routine.wp_bind (quiet_throwIf hy ?_)
  refine Routine.wp_bind (quiet_throwIf hy ?_)
  refine Routine.wp_bind (findFirst_quiet hy fun first y hy => ?_)
  cases first with
  | none =>
    refine Routine.wp_bind (findFirst_quiet hy fun cardPayment y hy => ?_)
    exact Routine.wp_bind (quiet_throwIf hy (Routine.wp_throw hy))
  | some r =>
    refine Routine.wp_bind (quiet_ask hy (fun _ => rfl) fun now y hy _ => ?_)
    refine Routine.wp_bind (quiet_statement hy fun confirmed y hy _ => ?_)
    refine Routine.wp_bind (quiet_throwIf hy ?_)
    refine Routine.wp_bind (creditFirstPaymentToBalance_quiet hy fun credited y hy => ?_)
    refine Routine.wp_bind (quiet_record hy fun y hy hn => ?_)
    refine Routine.wp_bind (quiet_createNotification hy hn fun y hn => ?_)
    exact Or.inl hn

theorem reversePaystackPaymentByDispute_quiet {reference eventType : String}
    (hx : Silent false x) :
    quiet (Ledger.reversePaystackPaymentByDispute reference eventType) (fun _ => Silent false)
      false x := by
  unfold Ledger.reversePaystackPaymentByDispute
  refine Routine.wp_bind (quiet_read hx fun found y hy => ?_)
  cases found with
  | none => exact hy
  | some payment =>
    refine Routine.wp_bind (quiet_transaction hy fun y hy => ?_)
    refine Routine.wp_bind (quiet_statement hy fun res y hy _ => ?_)
    refine Routine.wp_ite (fun _ => ?_) fun _ => ?_
    · exact Or.inr ⟨hy, fun u hu => hu⟩
    · refine Routine.wp_bind (quiet_statement hy fun _ y hy _ => ?_)
      refine Routine.wp_bind (quiet_record hy fun y hy hn => ?_)
      refine Routine.wp_bind (quiet_statement hy fun _ y hy hkeep => ?_)
      refine Routine.wp_bind (Routine.wp_onlyIf (fun _ => ?_) fun _ => ?_)
      · exact quiet_statement hy fun _ y _ hkeep' => Or.inl (hkeep' (hkeep hn))
      · exact Or.inl (hkeep hn)

theorem markEnrollmentAsDefaulted_quiet {enrollmentId schoolId : Id} {actor : AuditActor}
    (hx : Silent false x) :
    quiet (Ledger.markEnrollmentAsDefaulted enrollmentId schoolId actor) (fun _ => Silent false)
      false x := by
  unfold Ledger.markEnrollmentAsDefaulted
  refine Routine.wp_bind (quiet_read hx fun found y hy => ?_)
  refine Routine.wp_bind (quiet_orThrow hy fun enrollment => ?_)
  refine Routine.wp_bind (quiet_transaction hy fun y hy => ?_)
  refine Routine.wp_bind (quiet_statement hy fun updated y hy _ => ?_)
  refine Routine.wp_bind (quiet_record hy fun y hy hn => ?_)
  refine Routine.wp_bind (quiet_createNotification hy hn fun y hn => ?_)
  exact Or.inl hn

theorem markEnrollmentDefaultedBySweep_quiet {enrollment : Plan} (hx : Silent false x) :
    quiet (Ledger.markEnrollmentDefaultedBySweep enrollment) (fun _ => Silent false) false x := by
  unfold Ledger.markEnrollmentDefaultedBySweep
  refine Routine.wp_bind (quiet_transaction hx fun y hy => ?_)
  refine Routine.wp_bind (quiet_statement hy fun res y hy _ => ?_)
  refine Routine.wp_ite (fun _ => ?_) fun _ => ?_
  · exact Or.inr ⟨hy, fun u hu => hu⟩
  · refine Routine.wp_bind (quiet_record hy fun y hy hn => ?_)
    refine Routine.wp_bind (quiet_statement hy fun _ y hy hkeep => ?_)
    exact Or.inl (hkeep hn)

theorem restateInvite_quiet {inviteId : Option Id} {amount : Int} {ok : Unit → Context → Prop}
    (hx : Silent true x) (hok : ∀ y, Silent true y → ok () y) :
    quiet (Ledger.restateInvite inviteId amount) ok true x := by
  cases inviteId with
  | none => exact hok x hx
  | some inviteId => exact quiet_statement hx fun _ y hy _ => hok y hy

theorem amendMigratedPayment_quiet {enrollmentId : Id} {newAmount : Int} {schoolId : Id}
    {actor : AuditActor} {reason : Option String} (hx : Silent false x) :
    quiet (Ledger.amendMigratedPayment enrollmentId newAmount schoolId actor reason)
      (fun _ => Silent false) false x := by
  unfold Ledger.amendMigratedPayment
  refine Routine.wp_bind (quiet_throwIf hx ?_)
  refine Routine.wp_bind (quiet_read hx fun found y hy => ?_)
  refine Routine.wp_bind (quiet_orThrow hy fun plan => ?_)
  refine Routine.wp_bind (quiet_ask hy (fun _ => rfl) fun order y hy _ => ?_)
  refine Routine.wp_bind (quiet_orThrow hy fun picked => ?_)
  refine Routine.wp_bind (quiet_throwIf hy ?_)
  refine Routine.wp_bind (quiet_throwIf hy ?_)
  refine Routine.wp_bind (quiet_transaction hy fun y hy => ?_)
  refine Routine.wp_bind (quiet_statement hy fun row y hy _ => ?_)
  refine Routine.wp_bind (quiet_orThrow hy fun locked => ?_)
  refine Routine.wp_bind (quiet_read hy fun installmentsPaid y hy => ?_)
  refine Routine.wp_bind (quiet_throwIf hy ?_)
  refine Routine.wp_bind (quiet_statement hy fun restated y hy _ => ?_)
  refine Routine.wp_bind (quiet_throwIf hy ?_)
  refine Routine.wp_bind (quiet_statement hy fun updated y hy _ => ?_)
  refine Routine.wp_bind (restateInvite_quiet hy fun y hy => ?_)
  refine Routine.wp_bind (quiet_record hy fun y hy hn => ?_)
  exact Or.inl hn

/-- Whoever the conflict is escalated to, it is not a change that is told of. -/
theorem escalateReconcileConflict_quiet {payment : PaymentOfPlan} {reference : String}
    {fee : Option Int} (hx : Silent false x) :
    quiet (Ledger.escalateReconcileConflict payment reference fee) (fun _ => Silent false) false
      x := by
  unfold Ledger.escalateReconcileConflict
  refine Routine.wp_bind (Routine.wp_tryCatch (Routine.wp_bind ?_))
  refine Routine.wp_mono (fun _ _ h => h) (fun e y hy => ?_) (quiet_outside hx ?_ fun _ y hy => ?_)
  · refine Routine.wp_ite (fun _ => ?_) fun _ => hy
    exact hy
  · intro s a ws hws
    split at hws
    · cases hws
    · obtain ⟨-, rfl⟩ := Prod.mk.inj (Except.ok.inj hws)
      rfl
  refine Routine.wp_ite (fun _ => hy) fun _ => ?_
  refine Routine.wp_bind (quiet_tryCatch (Routine.wp_bind (quiet_read hy fun _ y hy => hy))
    (fun _ y hy => hy) fun admins y hy => ?_)
  refine Routine.wp_bind (Routine.wp_mapM (P := Silent false) hy (fun admin _ y hy => ?_)
    fun deliveries y hy => ?_)
  · exact quiet_ask hy (fun _ => Bool.and_false _) fun _ y hy _ => hy
  refine Routine.wp_bind (quiet_onlyIf hy (quiet_tryCatch (quiet_outside hy ?_ fun _ y hy => hy)
    (fun _ y hy => hy) fun _ y hy => hy) fun y hy => hy)
  intro s a ws hws
  split at hws
  · obtain ⟨-, rfl⟩ := Prod.mk.inj (Except.ok.inj hws)
    rfl
  · cases hws

theorem reconcilePaystackPayment_quiet {reference : String} {fee : Option Int}
    {actor : Option AuditActor} (hx : Silent false x) :
    quiet (Ledger.reconcilePaystackPayment reference fee actor) (fun _ => Silent false) false x := by
  unfold Ledger.reconcilePaystackPayment
  refine Routine.wp_bind (quiet_read hx fun found y hy => ?_)
  cases found with
  | none => exact hy
  | some payment =>
    refine Routine.wp_ite (fun _ => hy) fun _ => ?_
    refine Routine.wp_ite (fun _ => escalateReconcileConflict_quiet hy) fun _ => ?_
    refine Routine.wp_bind (quiet_transaction hy fun y hy => ?_)
    refine Routine.wp_bind (quiet_ask hy (fun _ => rfl) fun now y hy _ => ?_)
    refine Routine.wp_bind (quiet_statement hy fun flipped y hy _ => ?_)
    refine Routine.wp_ite (fun _ => ?_) fun _ => ?_
    · exact Or.inr ⟨hy, fun u hu => hu⟩
    · refine Routine.wp_bind (Routine.wp_bind (creditFirstPaymentToBalance_quiet hy
        fun credited y hy => ?_))
      exact Routine.wp_bind (quiet_record hy fun y _ hn => Or.inl hn)

theorem assertOwnsSchool_quiet {actor : AuthUser} {ok : Invites.OwnedSchool → Context → Prop}
    (hx : Silent false x) (hok : ∀ school y, Silent false y → ok school y) :
    quiet (Invites.assertOwnsSchool actor) ok false x := by
  unfold Invites.assertOwnsSchool
  refine Routine.wp_bind (quiet_orThrow hx fun schoolId => ?_)
  refine Routine.wp_bind (quiet_throwIf hx ?_)
  refine Routine.wp_bind (quiet_read hx fun found y hy => ?_)
  exact Routine.wp_bind (quiet_orThrow hy fun school => hok _ y hy)

theorem amend_quiet {inviteId : Id} {amount : ℚ} {reason : Option String} {actor : AuthUser}
    (hx : Silent false x) :
    quiet (Invites.amend inviteId amount reason actor) (fun _ => Silent false) false x := by
  unfold Invites.amend
  refine Routine.wp_bind (assertOwnsSchool_quiet hx fun school y hy => ?_)
  refine Routine.wp_bind (quiet_read hy fun found y hy => ?_)
  refine Routine.wp_bind (quiet_orThrow hy fun found => ?_)
  refine Routine.wp_bind (quiet_orThrow hy fun enrollment => ?_)
  exact amendMigratedPayment_quiet hy

theorem release_quiet {inviteId : Id} {actor : AuthUser} {reason : Option String}
    (hx : Silent false x) :
    quiet (Invites.release inviteId actor reason) (fun _ => Silent false) false x := by
  unfold Invites.release
  refine Routine.wp_bind (assertOwnsSchool_quiet hx fun school y hy => ?_)
  refine Routine.wp_bind (quiet_read hy fun found y hy => ?_)
  refine Routine.wp_bind (quiet_orThrow hy fun found => ?_)
  refine Routine.wp_bind (quiet_orThrow hy fun enrollment => ?_)
  refine Routine.wp_bind (quiet_transaction hy fun y hy => ?_)
  refine Routine.wp_bind (quiet_ask hy (fun _ => rfl) fun now y hy _ => ?_)
  refine Routine.wp_bind (quiet_statement hy fun released y hy _ => ?_)
  refine Routine.wp_bind (quiet_throwIf hy ?_)
  unfold Ledger.releaseMigratedEnrollment
  refine Routine.wp_bind (Routine.wp_bind (quiet_read hy fun found y hy => ?_))
  refine Routine.wp_bind (quiet_orThrow hy fun plan => ?_)
  refine Routine.wp_bind (quiet_throwIf hy ?_)
  refine Routine.wp_bind (quiet_statement hy fun removed y hy _ => ?_)
  refine Routine.wp_bind (quiet_statement hy fun _ y hy _ => ?_)
  refine Routine.wp_bind (quiet_statement hy fun _ y hy _ => ?_)
  exact Routine.wp_bind (quiet_record hy fun y _ hn => Or.inl hn)

theorem findByToken_quiet {env : InviteEnvironment} {rawToken : Option String}
    {ok : Invites.FoundInvite → Context → Prop} (hx : Silent false x)
    (hok : ∀ found y, Silent false y → ok found y) :
    quiet (Invites.findByToken env rawToken) ok false x := by
  unfold Invites.findByToken
  refine Routine.wp_bind (quiet_orThrow hx fun tokenHash => ?_)
  refine Routine.wp_bind (quiet_read hx fun found y hy => ?_)
  refine Routine.wp_bind (quiet_orThrow hy fun found => ?_)
  refine Routine.wp_bind (quiet_ask hy (fun _ => rfl) fun now y hy _ => ?_)
  refine Routine.wp_ite (fun _ => ?_) fun _ => hok _ y hy
  refine Routine.wp_bind (quiet_tryCatch (Routine.wp_bind (quiet_outside hy ?_ fun _ y hy => hy))
    (fun _ y hy => hy) fun _ y hy => hok _ y hy)
  intro s a ws hws
  split at hws
  · split at hws
    · split at hws
      · cases hws
      · obtain ⟨-, rfl⟩ := Prod.mk.inj (Except.ok.inj hws)
        rfl
    · obtain ⟨-, rfl⟩ := Prod.mk.inj (Except.ok.inj hws)
      rfl
  · obtain ⟨-, rfl⟩ := Prod.mk.inj (Except.ok.inj hws)
    rfl

theorem recordMigratedEnrollment_quiet {inviteId : Id} {invite : EnrollmentInvite}
    {childId parentUserId : Id} {actor : AuditActor} (hx : Silent true x) :
    quiet (Ledger.recordMigratedEnrollment inviteId invite childId parentUserId actor)
      (fun _ => Pends) true x := by
  unfold Ledger.recordMigratedEnrollment
  refine Routine.wp_bind (quiet_ask hx (fun _ => rfl) fun enrollmentId y hy _ => ?_)
  refine Routine.wp_bind (Routine.wp_tryCatch ?_)
  refine Routine.wp_mono (fun _ _ h => h) (fun _ y hy => hy) (quiet_statement hy
    fun _ y hy _ => ?_)
  refine Routine.wp_bind (quiet_ask hy (fun _ => rfl) fun paymentId y hy _ => ?_)
  refine Routine.wp_bind (quiet_ask hy (fun _ => rfl) fun now y hy _ => ?_)
  refine Routine.wp_bind (quiet_statement hy fun _ y hy _ => ?_)
  exact Routine.wp_bind (quiet_record hy fun y _ hn => hn)

theorem claim_quiet {env : InviteEnvironment} {rawToken : Option String} {user : AuthUser}
    (hx : Silent false x) :
    quiet (Invites.claim env rawToken user) (fun _ => Silent false) false x := by
  unfold Invites.claim
  refine Routine.wp_bind (findByToken_quiet hx fun found y hy => ?_)
  refine Routine.wp_bind (Routine.wp_bind (quiet_read hy fun account y hy => ?_))
  refine Routine.wp_bind (Routine.wp_bind (findFirst_quiet hy fun migrated y hy => ?_))
  cases migrated with
  | some _ => exact hy
  | none =>
    refine Routine.wp_bind (quiet_read hy fun found y hy => ?_)
    refine Routine.wp_bind (quiet_orThrow hy fun school => ?_)
    unfold Invites.claimTransaction
    refine Routine.wp_bind (Routine.wp_tryCatch (Routine.wp_mono (fun _ _ h => h)
      (fun _ y hy => hy) (quiet_transaction hy fun y hy => ?_)))
    refine Routine.wp_bind (quiet_ask hy (fun _ => rfl) fun now y hy _ => ?_)
    refine Routine.wp_bind (quiet_ask hy (fun _ => rfl) fun claimedAt y hy _ => ?_)
    refine Routine.wp_bind (quiet_statement hy fun claimed y hy _ => ?_)
    refine Routine.wp_bind (quiet_throwIf hy ?_)
    unfold Invites.resolveParent Invites.resolveChild
    refine Routine.wp_bind (Routine.wp_bind (quiet_findOrThrow hy fun account y hy => ?_))
    refine Routine.wp_bind (quiet_ask hy (fun _ => rfl) fun id y hy _ => ?_)
    refine Routine.wp_bind (quiet_statement hy fun _ y hy _ => ?_)
    refine Routine.wp_bind (quiet_findOrThrow hy fun parent y hy => ?_)
    refine Routine.wp_bind (Routine.wp_bind (quiet_ask hy (fun _ => rfl) fun id y hy _ => ?_))
    refine Routine.wp_bind (quiet_statement hy fun _ y hy _ => ?_)
    refine Routine.wp_bind (quiet_findOrThrow hy fun child y hy => ?_)
    exact Routine.wp_pure (Routine.wp_mono (fun _ _ hn => Or.inl hn) (fun _ _ h => h)
      (recordMigratedEnrollment_quiet hy))

/-! ### Runs -/

/-- The operations that tell somebody what they have done. -/
def Announces : Work → Prop
  | .payments (.confirmPayment ..) | .payments (.rejectPayment ..) | .payments (.reversePayment ..)
  | .payments (.settleFirstPayment ..) | .payments (.rejectFirstPayment ..)
  | .payments (.confirmFirstPayment ..) | .payments (.reconcilePaystackPayment ..)
  | .payments (.reversePaystackPaymentByDispute ..) | .payments (.amendMigratedPayment ..)
  | .payments (.markEnrollmentAsDefaulted ..) | .payments (.markEnrollmentDefaultedBySweep _) => True
  | .invites (.claim ..) | .invites (.amend ..) | .invites (.release ..) => True
  | _ => False

variable {env : InviteEnvironment}

theorem Announces.quiet {w : Work} (hw : Announces w) (hx : Silent false x) :
    quiet (w.action env) (fun _ => Silent false) false x := by
  unfold Announces at hw
  split at hw
  · exact quiet_map (confirmPayment_quiet hx)
  · exact quiet_map (rejectPayment_quiet hx)
  · exact quiet_map (reversePayment_quiet hx)
  · exact quiet_map (settleFirstPayment_quiet hx)
  · exact quiet_map (rejectFirstPayment_quiet hx)
  · exact quiet_map (confirmFirstPayment_quiet hx)
  · exact wp_map (fun _ _ h => h) (reconcilePaystackPayment_quiet hx)
  · exact quiet_map (reversePaystackPaymentByDispute_quiet hx)
  · exact quiet_map (amendMigratedPayment_quiet hx)
  · exact quiet_map (markEnrollmentAsDefaulted_quiet hx)
  · exact quiet_map (markEnrollmentDefaultedBySweep_quiet hx)
  · exact quiet_map (claim_quiet hx)
  · exact quiet_map (amend_quiet hx)
  · exact quiet_map (release_quiet hx)
  · exact hw.elim

/-- No transaction fails once it has told somebody of a change. -/
def FailsUntold (s : Office) (e : Event Work Answer) (_ : Office) : Prop :=
  ∀ pid ch p, e = .move pid ch → s.procs[pid]? = some p → ch.fault = true → Told p.ctx →
    p.ctx.tx = none

variable {start : Db → Prop} {s s' t : Office} {w : Work} {pid : Nat}
  {p q : Proc Work Db Write Answer (Except Err Reply)}

theorem discipline_plain : Discipline store (Work.program env) FailsUntold
    (fun _ => .plain (fun _ _ => True) fun _ _ => True) (fun _ _ _ => True) fun _ => True :=
  .plain

theorem Announces.follow (hw : Announces w)
    (hs : Sys.Reach store (Work.program env) FailsUntold start s)
    (hspawn : s.step store (Work.program env) (.spawn w) = some s')
    (hlead : Sys.Leads store (Work.program env) FailsUntold s' t) :
    (∃ q, t.procs[s.procs.length]? = some q ∧
      q.prog.wp store uncommitted (fun _ => Silent false) q.ctx) ∨
      Sys.CommitsTransaction store (Work.program env) FailsUntold s.procs.length s' t := by
  have hspawned := (hs.good discipline_plain fun _ _ => trivial).step discipline_plain hspawn
    fun _ _ _ h => nomatch h
  obtain rfl := Option.some.inj hspawn
  have hp : (s.procs ++ [⟨w, w.program env, .init s.store⟩])[s.procs.length]? =
      some ⟨w, w.program env, .init s.store⟩ := List.getElem?_concat_length ..
  have hwp : (w.program env).wp store uncommitted (fun _ => Silent false) (.init s.store) := by
    refine Prog.wp_mono ?_ (hw.quiet ⟨rfl, nofun⟩)
    rintro (e | a) y hy
    · exact hy
    · exact hy
  have hfollow := hlead.follow_until discipline_plain hspawned hp (L := uncommitted)
    (fun u u' q ch hguard hq _ => ⟨fun _ _ => trivial, fun hfault => hguard _ ch q rfl hq hfault⟩)
    (fun _ _ _ => trivial) hwp
  rcases hfollow with ⟨q, hq, -, hq'⟩ | ⟨u, u', ch, q, ws, hu, hu', hstep, hguard, hq, -, -, -, -,
    hopen, hreleases⟩
  · exact Or.inl ⟨q, hq, hq'⟩
  · obtain ⟨⟨k, hcommit⟩, hfault, hpending⟩ := hreleases.commit hopen
    exact Or.inr ⟨u, u', ch, q, k, hu, hq, hcommit, hfault, hpending, hstep, hguard, hu'⟩

/-- What an operation does that does not commit its transaction: no row of a notification stays,
    and nobody is told of a change that was not made. -/
theorem untold_uncommitted (hw : Announces w)
    (hs : Sys.Reach store (Work.program env) FailsUntold start s)
    (hspawn : s.step store (Work.program env) (.spawn w) = some s')
    (hlead : Sys.Leads store (Work.program env) FailsUntold s' t)
    (hq : t.procs[s.procs.length]? = some q) (hfin : q.prog.finished = true)
    (hnot : ¬ Sys.CommitsTransaction store (Work.program env) FailsUntold s.procs.length s' t) :
    ¬ Told q.ctx ∧ ∀ u u' ch, Sys.Leads store (Work.program env) FailsUntold s' u →
      u.step store (Work.program env) (.move s.procs.length ch) = some u' →
      FailsUntold u (.move s.procs.length ch) u' →
      Sys.Leads store (Work.program env) FailsUntold u' t →
      u'.store.notifications = u.store.notifications := by
  constructor
  · obtain ⟨q', hq', hwp⟩ := (hw.follow hs hspawn hlead).resolve_right hnot
    obtain rfl := Option.some.inj (hq.symm.trans hq')
    obtain ⟨r, hr⟩ := Prog.eq_ret_of_finished hfin
    rw [hr] at hwp
    have hsilent : Silent false q.ctx := by
      cases r with
      | ok a => exact hwp
      | error e => exact hwp
    exact hsilent.log
  · intro u u' ch hu hstep hguard hu'
    have hgood := hu.good discipline_plain ((hs.good discipline_plain fun _ _ => trivial).step
      discipline_plain hspawn fun _ _ _ h => nomatch h)
    have hnot' : ¬ Sys.CommitsTransaction store (Work.program env) FailsUntold s.procs.length
        s' u := by
      rintro ⟨v, v', c, p, k, hv, hp, hk, hfault, hpending, hcommit, hg, hv'⟩
      exact hnot ⟨v, v', c, p, k, hv, hp, hk, hfault, hpending, hcommit, hg,
        hv'.trans ((Sys.Leads.step _ .refl hstep hguard).trans hu')⟩
    obtain ⟨p, hp, hwp⟩ := (hw.follow hs hspawn hu).resolve_right hnot'
    by_cases hchanged : u'.store = u.store
    · rw [hchanged]
    · obtain ⟨ws, hnow, hstore, hreleases, hguarantee⟩ := hgood.releases discipline_plain hp hwp
        ⟨fun _ _ => trivial, fun hfault => hguard _ ch p rfl hp hfault⟩ hstep hguard hchanged
      rw [hstore, ← hnow]
      refine hguarantee (Classical.byContradiction fun hopen => hnot ?_)
      obtain ⟨⟨k, hcommit⟩, hfault, hpending⟩ := hreleases.commit hopen
      exact ⟨u, u', ch, p, k, hu, hp, hcommit, hfault, hpending, hstep, hguard, hu'⟩

/-! ### A transaction that fails -/

def failsUntold (s : Office) (e : Event Work Answer) (_ : Office) : Bool :=
  match e with
  | .spawn _ => true
  | .move pid ch => (s.procs[pid]?).all fun p => ch.fault = true → Told p.ctx → p.ctx.tx.isNone

theorem failsUntold_iff {s t : Office} {e : Event Work Answer} (h : failsUntold s e t = true) :
    FailsUntold s e t := by
  rintro pid ch p rfl hp hfault htold
  simp only [failsUntold, hp, Option.all_some, decide_eq_true_eq] at h
  exact Option.isNone_iff_eq_none.mp (h hfault htold)

theorem markEnrollmentAsDefaulted_ends {enrollmentId schoolId : Id} {actor : AuditActor} :
    (Ledger.markEnrollmentAsDefaulted enrollmentId schoolId actor).Ends (fun _ _ _ => True)
      (fun committed _ _ => committed = false) false false := by
  unfold Ledger.markEnrollmentAsDefaulted
  refine Routine.ends_bind (Routine.ends_query rfl fun found => ?_)
  refine Routine.ends_bind (Routine.ends_orThrow rfl fun enrollment => ?_)
  refine Routine.ends_bind (Routine.ends_transaction ?_)
  refine Routine.ends_bind (statement_ends (fun _ => rfl) fun updated => ?_)
  refine Routine.ends_bind (statement_ends (fun _ => rfl) fun _ => ?_)
  refine Routine.ends_bind (createNotification_ends ?_ fun _ => rfl)
  exact ⟨Routine.ends_bind fun _ => trivial, rfl⟩

def marking : Work := .payments (.markEnrollmentAsDefaulted "a9" "school" owner)

/-- A marking that has failed has not committed. -/
theorem marking_failed {G : Office → Event Work Answer → Office → Prop} {s s' t : Office}
    {q : Proc Work Db Write Answer (Except Err Reply)} {e : Err}
    (hspawn : s.step store (Work.program env) (.spawn marking) = some s')
    (hq : t.procs[s.procs.length]? = some q) (hr : q.prog.result? = some (.error e)) :
    ¬ Sys.CommitsTransaction store (Work.program env) G s.procs.length s' t := by
  intro hcommits
  obtain rfl := Option.some.inj hspawn
  have hends : (marking.action env).Ends (fun _ _ _ => True) (fun committed _ _ => committed = false)
      false false := Routine.ends_map markEnrollmentAsDefaulted_ends
  obtain ⟨q', c, hq', hfinal, hc⟩ := hcommits.ending
    ⟨⟨marking, marking.program env, .init s.store⟩, false, List.getElem?_concat_length .., hends,
      nofun⟩
  obtain rfl := Option.some.inj (hq.symm.trans hq')
  rw [Prog.eq_ret_of_result hr, hc rfl] at hfinal
  cases hfinal

/-- A plan `a9` is open. -/
def planOpen : List (Event Work Answer) :=
  working 0 (.payments (.initiateFirstPayment environment (enrollment none) "parent")) "a" 17

def failing (seed : String) (n : Nat) : Choice Answer := { smoothly seed n with fault := true }

/-- The audit row of the marking cannot be written. -/
def markingRefused : List (Event Work Answer) :=
  [.move 1 (smoothly "b" 0), .move 1 (smoothly "b" 1), .move 1 (smoothly "b" 2),
    .move 1 (failing "b" 3), .move 1 (smoothly "b" 4)]

/-- The commit of the marking fails, and the parent has been told. -/
def markingLost : List (Event Work Answer) :=
  [.move 1 (smoothly "b" 0), .move 1 (smoothly "b" 1), .move 1 (smoothly "b" 2),
    .move 1 (smoothly "b" 3), .move 1 (smoothly "b" 4), .move 1 (failing "b" 5)]

/-- The process has ended in an error, and has told somebody of a change or not. -/
def failedTelling (told : Bool) (pid : Nat) (t : Office) : Bool :=
  (t.procs[pid]?).any fun q => decide (Told q.ctx) = told ∧
    (q.prog.result?).any fun r => !r.isOk

theorem failedTelling_iff {told : Bool} {pid : Nat} {t : Office}
    (h : failedTelling told pid t = true) :
    ∃ q e, t.procs[pid]? = some q ∧ q.prog.result? = some (.error e) ∧
      decide (Told q.ctx) = told := by
  obtain ⟨q, hq, h⟩ := (Option.any_eq_true _ _).mp h
  obtain ⟨htold, hfailed⟩ := of_decide_eq_true h
  obtain ⟨r, hr, hr'⟩ := (Option.any_eq_true _ _).mp hfailed
  cases r with
  | ok a => cases hr'
  | error e => exact ⟨q, e, hq, hr, htold⟩

theorem untold_markingRefused : ∃ (s s' t : Office)
    (q : Proc Work Db Write Answer (Except Err Reply)),
    Sys.exec store (Work.program inviteEnvironment) failsUntold planOpen (.init oneFamily) = some s ∧
    s.step store (Work.program inviteEnvironment) (.spawn marking) = some s' ∧
    Sys.exec store (Work.program inviteEnvironment) failsUntold markingRefused s' = some t ∧
    t.procs[s.procs.length]? = some q ∧ ¬ Told q.ctx := by
  have hruns : ((Sys.exec store (Work.program inviteEnvironment) failsUntold planOpen
      (.init oneFamily)).any fun s => (s.step store (Work.program inviteEnvironment)
        (.spawn marking)).any fun s' => (Sys.exec store (Work.program inviteEnvironment) failsUntold
          markingRefused s').any fun t => failedTelling false s.procs.length t) = true := by
    decide +kernel
  obtain ⟨s, hs, hany⟩ := (Option.any_eq_true _ _).mp hruns
  obtain ⟨s', hspawn, hany⟩ := (Option.any_eq_true _ _).mp hany
  obtain ⟨t, ht, hfailed⟩ := (Option.any_eq_true _ _).mp hany
  obtain ⟨q, e, hq, hr, -⟩ := failedTelling_iff hfailed
  refine ⟨s, s', t, q, hs, hspawn, ht, hq, ?_⟩
  have hreach : Sys.Reach store (Work.program inviteEnvironment) FailsUntold
      (fun s => s = oneFamily) s := Sys.reach_of_exec (fun _ _ _ => failsUntold_iff) (.init rfl) hs
  have hannounces : Announces marking := trivial
  have huntold := untold_uncommitted hannounces hreach hspawn
    (Sys.Leads.of_exec (fun _ _ _ => failsUntold_iff) .refl ht) hq
    (by rw [Prog.eq_ret_of_result hr]; rfl) (marking_failed hspawn hq hr)
  exact huntold.1

/-- Where a commit may fail after the message, the law does not hold. -/
theorem untold_uncommitted_needs_condition :
    ¬ ∀ (env : InviteEnvironment) (w : Work) (s s' t : Office)
        (q : Proc Work Db Write Answer (Except Err Reply)), Announces w →
      Sys.Reach store (Work.program env) (fun _ _ _ => True) (fun s => s = oneFamily) s →
      s.step store (Work.program env) (.spawn w) = some s' →
      Sys.Leads store (Work.program env) (fun _ _ _ => True) s' t →
      t.procs[s.procs.length]? = some q → q.prog.finished = true →
      ¬ Sys.CommitsTransaction store (Work.program env) (fun _ _ _ => True) s.procs.length s' t →
      ¬ Told q.ctx := by
  intro hlaw
  have hruns : ((Sys.exec store (Work.program inviteEnvironment) (fun _ _ _ => true) planOpen
      (.init oneFamily)).any fun s => (s.step store (Work.program inviteEnvironment)
        (.spawn marking)).any fun s' => (Sys.exec store (Work.program inviteEnvironment)
          (fun _ _ _ => true) markingLost s').any fun t =>
            failedTelling true s.procs.length t) = true := by
    decide +kernel
  obtain ⟨s, hs, hany⟩ := (Option.any_eq_true _ _).mp hruns
  obtain ⟨s', hspawn, hany⟩ := (Option.any_eq_true _ _).mp hany
  obtain ⟨t, ht, hfailed⟩ := (Option.any_eq_true _ _).mp hany
  obtain ⟨q, e, hq, hr, htold⟩ := failedTelling_iff hfailed
  refine hlaw inviteEnvironment marking s s' t q trivial
    (Sys.reach_of_exec (fun _ _ _ _ => trivial) (.init rfl) hs) hspawn
    (Sys.Leads.of_exec (fun _ _ _ _ => trivial) .refl ht) hq
    (by rw [Prog.eq_ret_of_result hr]; rfl) (marking_failed hspawn hq hr) (of_decide_eq_true htold)

end Lopay
