import Lopay.Work

/-!
# Statements that are tame

Most statements do nothing to a payment that would set its two flags at odds and touch no
invite; many touch no plan either. Instances find this out for a whole method by following
its program.
-/

namespace Lopay

open Transactions

/-- The two flags of a payment say the same. -/
def Payment.Agrees (p : Payment) : Prop := p.isConfirmed = true ↔ p.status = .SUCCESS

/-- What the rules of an invite depend on. -/
structure Link where
  status : EnrollmentInviteStatus
  tokenHash : String
  expiresAt : Int
deriving DecidableEq

def EnrollmentInvite.link (invite : EnrollmentInvite) : Link where
  status := invite.status
  tokenHash := invite.tokenHash
  expiresAt := invite.expiresAt

def Db.link (db : Db) (id : Id) : Option Link := (db.invites.lookup id).map (·.link)

/-- If the flags of a payment agreed before, they do after. -/
def Payment.KeepsAgreeing (before after : Option Payment) : Prop :=
  (∀ p, before = some p → p.Agrees) → ∀ p, after = some p → p.Agrees

/-- A statement that leaves the flags of payments in step. -/
def Agreeing (v : Db) (ws : List Write) : Prop :=
  ∀ k, Payment.KeepsAgreeing (v.payments.lookup k) ((store.applyAll ws v).payments.lookup k)

/-- A statement that besides changes no more of an invite than its amount. -/
structure Restating (v : Db) (ws : List Write) : Prop where
  agreeing : Agreeing v ws
  links : ∀ k, (store.applyAll ws v).link k = v.link k

/-- A statement that besides changes no invite. -/
structure Tame (v : Db) (ws : List Write) : Prop where
  agreeing : Agreeing v ws
  invites : (store.applyAll ws v).invites = v.invites

/-- A statement that touches no invite and no payment. -/
structure Unpaid (v : Db) (ws : List Write) : Prop where
  payments : (store.applyAll ws v).payments = v.payments
  invites : (store.applyAll ws v).invites = v.invites

/-- A statement that touches no invite, no plan and no payment. -/
structure Still (v : Db) (ws : List Write) : Prop where
  payments : (store.applyAll ws v).payments = v.payments
  invites : (store.applyAll ws v).invites = v.invites
  enrollments : (store.applyAll ws v).enrollments = v.enrollments

theorem Tame.restating {v : Db} {ws : List Write} (h : Tame v ws) : Restating v ws where
  agreeing := h.agreeing
  links := fun k => by rw [Db.link, Db.link, h.invites]

theorem Unpaid.tame {v : Db} {ws : List Write} (h : Unpaid v ws) : Tame v ws where
  agreeing := fun k hbefore => by rw [h.payments]; exact hbefore
  invites := h.invites

theorem Still.unpaid {v : Db} {ws : List Write} (h : Still v ws) : Unpaid v ws :=
  ⟨h.payments, h.invites⟩

theorem Still.tame {v : Db} {ws : List Write} (h : Still v ws) : Tame v ws := h.unpaid.tame

/-- A condition that a statement meets which writes nothing. -/
class AdmitsNothing (P : Db → List Write → Prop) : Prop where
  nothing : ∀ v, P v []

/-- A condition on statements that still ones meet. -/
class AdmitsStill (P : Db → List Write → Prop) : Prop where
  still : ∀ v ws, Still v ws → P v ws

/-- A condition on statements that those meet which touch no invite and no payment. -/
class AdmitsUnpaid (P : Db → List Write → Prop) : Prop where
  unpaid : ∀ v ws, Unpaid v ws → P v ws

/-- A condition on statements that tame ones meet. -/
class AdmitsTame (P : Db → List Write → Prop) : Prop where
  tame : ∀ v ws, Tame v ws → P v ws

/-- A condition on statements that restating ones meet. -/
class AdmitsRestating (P : Db → List Write → Prop) : Prop where
  restating : ∀ v ws, Restating v ws → P v ws

instance {P : Db → List Write → Prop} [AdmitsRestating P] : AdmitsTame P :=
  ⟨fun v ws h => AdmitsRestating.restating v ws h.restating⟩

instance {P : Db → List Write → Prop} [AdmitsTame P] : AdmitsUnpaid P :=
  ⟨fun v ws h => AdmitsTame.tame v ws h.tame⟩

instance {P : Db → List Write → Prop} [AdmitsUnpaid P] : AdmitsStill P :=
  ⟨fun v ws h => AdmitsUnpaid.unpaid v ws h.unpaid⟩

instance {P : Db → List Write → Prop} [AdmitsStill P] : AdmitsNothing P :=
  ⟨fun v => AdmitsStill.still v [] ⟨rfl, rfl, rfl⟩⟩

instance : AdmitsRestating Agreeing := ⟨fun _ _ h => h.agreeing⟩

instance : AdmitsRestating Restating := ⟨fun _ _ h => h⟩

instance : AdmitsTame Tame := ⟨fun _ _ h => h⟩

instance : AdmitsStill Still := ⟨fun _ _ h => h⟩

theorem still_nil (v : Db) : Still v [] := ⟨rfl, rfl, rfl⟩

theorem Still.append {v : Db} {ws ws' : List Write} (h : Still v ws)
    (h' : Still (store.applyAll ws v) ws') : Still v (ws ++ ws') := by
  constructor
  · rw [Store.applyAll_append, h'.payments, h.payments]
  · rw [Store.applyAll_append, h'.invites, h.invites]
  · rw [Store.applyAll_append, h'.enrollments, h.enrollments]

theorem Tame.append {v : Db} {ws ws' : List Write} (h : Tame v ws)
    (h' : Tame (store.applyAll ws v) ws') : Tame v (ws ++ ws') := by
  constructor
  · intro k hbefore
    rw [Store.applyAll_append]
    exact h'.agreeing k (h.agreeing k hbefore)
  · rw [Store.applyAll_append, h'.invites, h.invites]

/-- Neither an invite nor a plan nor a payment is written. -/
def Write.Aside : Write → Prop
  | .putEnrollment _ _ | .deleteEnrollment _ _ | .putPayment _ _ | .deletePayment _ _
  | .putInvite _ _ => False
  | _ => True

/-- Neither an invite nor a payment that stays is written. -/
def Write.Sparing : Write → Prop
  | .putPayment _ _ | .putInvite _ _ => False
  | _ => True

theorem Write.Aside.still {w : Write} (hw : w.Aside) (v : Db) : Still v [w] := by
  cases w <;> first | exact hw.elim | exact ⟨rfl, rfl, rfl⟩

theorem Write.Sparing.tame {w : Write} (hw : w.Sparing) (v : Db) : Tame v [w] := by
  cases w with
  | putPayment => exact hw.elim
  | putInvite => exact hw.elim
  | deletePayment k row => exact ⟨fun _ hbefore p hp => hbefore p (Table.lookup_of_erase hp), rfl⟩
  | _ => exact ⟨fun _ hbefore => hbefore, rfl⟩

theorem still_asides {v : Db} {ws : List Write} (h : ∀ w ∈ ws, w.Aside) : Still v ws := by
  induction ws generalizing v with
  | nil => exact still_nil v
  | cons w ws ih =>
    have hhead : Still v [w] := (h w List.mem_cons_self).still v
    exact hhead.append (ih fun w' hw' => h w' (List.mem_cons_of_mem w hw'))

theorem tame_sparing {v : Db} {ws : List Write} (h : ∀ w ∈ ws, w.Sparing) : Tame v ws := by
  induction ws generalizing v with
  | nil => exact (still_nil v).tame
  | cons w ws ih =>
    have hhead : Tame v [w] := (h w List.mem_cons_self).tame v
    exact hhead.append (ih fun w' hw' => h w' (List.mem_cons_of_mem w hw'))

theorem tame_putPayment {v : Db} {id : Id} {p : Payment}
    (h : (∀ q, v.payments.lookup id = some q → q.Agrees) → p.Agrees) :
    Tame v [.putPayment id p] := by
  refine ⟨fun k hbefore q hq => ?_, rfl⟩
  rcases Table.lookup_insert_some hq with ⟨rfl, rfl⟩ | ⟨-, hold⟩
  · exact h hbefore
  · exact hbefore q hold

/-- A write of an invite that changes nothing its rules depend on. -/
theorem restating_putInvite {v : Db} {id : Id} {i j : EnrollmentInvite}
    (hi : v.invites.lookup id = some i) (hlink : j.link = i.link) :
    Restating v [.putInvite id j] := by
  refine ⟨fun _ h => h, fun k => ?_⟩
  simp only [Store.applyAll_cons, Store.applyAll_nil, store_apply, Db.link, Write.apply,
    Table.lookup_insert_ite]
  by_cases hk : k = id
  · subst hk
    rw [if_pos rfl, hi]
    exact congrArg some hlink
  · rw [if_neg hk]

/-! ### Prisma calls -/

section Statements

variable {P : Db → List Write → Prop} {α : Type}

theorem admits_nil [AdmitsNothing P] (v : Db) : P v [] := AdmitsNothing.nothing v

theorem keeps_transaction {m : Action α} (h : Routine.Keeps P m) : Routine.Keeps P (transaction m) :=
  .transaction

instance {m : Action α} [h : Routine.Keeps P m] : Routine.Keeps P (transaction m) :=
  keeps_transaction h

section Nothing

variable [AdmitsNothing P]

instance : Routine.Keeps P (ask .now) := .ask _
instance : Routine.Keeps P (ask .randomUUID) := .ask _
instance : Routine.Keeps P (ask .randomToken) := .ask _
instance (count : Nat) : Routine.Keeps P (ask (.rowOrder count)) := .ask _
instance (params : InitializeTransactionParams) :
    Routine.Keeps P (ask (.initializeTransaction params)) := .ask _
instance (reference : String) : Routine.Keeps P (ask (.verifyTransaction reference)) := .ask _
instance (n : Notification) : Routine.Keeps P (ask (.createNotification n)) := .ask _
instance (userId : Id) (n : Notification) :
    Routine.Keeps P (ask (.pushNotification userId n)) := .ask _
instance (targets : ChangeTargets) :
    Routine.Keeps P (ask (.emitEnrollmentsChanged targets)) := .ask _
instance (targets : ChangeTargets) : Routine.Keeps P (ask (.emitPaymentsChanged targets)) := .ask _

instance (q : Db → α) : Routine.Keeps P (read q) := .query admits_nil

instance (q : Db → List α) : Routine.Keeps P (findFirst q) := by
  unfold findFirst
  infer_instance

instance (q : Db → Option α) : Routine.Keeps P (findOrThrow q) := by
  unfold findOrThrow
  infer_instance

instance (n : Notification) : Routine.Keeps P (createNotification n) := by
  unfold createNotification
  infer_instance

instance (ns : List Notification) : Routine.Keeps P (createNotifications ns) := by
  unfold createNotifications
  infer_instance

instance (targets : ChangeTargets) : Routine.Keeps P (emitChanges targets) := by
  unfold emitChanges
  infer_instance

end Nothing

section Still

variable [AdmitsStill P]

theorem keeps_aside {f : Db → Except Err (α × List Write)}
    (h : ∀ v a ws, f v = .ok (a, ws) → ∀ w ∈ ws, w.Aside) : Routine.Keeps P (statement f) :=
  Routine.Keeps.exec admits_nil fun v a ws hf => AdmitsStill.still v ws (still_asides (h v a ws hf))

instance (id : Id) : Routine.Keeps P (lockEnrollment id) := by
  apply keeps_aside
  grind [Write.Aside]

instance (id : Id) (row : Parent) : Routine.Keeps P (createParent id row) := by
  apply keeps_aside
  grind [Write.Aside]

instance (id : Id) (row : Parent) : Routine.Keeps P (createParentIfNew id row) := by
  apply keeps_aside
  grind [Write.Aside]

instance (id : Id) (row : Child) : Routine.Keeps P (createChild id row) := by
  apply keeps_aside
  grind [Write.Aside]

instance (id : Id) (row : Child) : Routine.Keeps P (createChildIfNew id row) := by
  apply keeps_aside
  grind [Write.Aside]

instance (id : Id) : Routine.Keeps P (deleteChild id) := by
  apply keeps_aside
  grind [Write.Aside]

instance (key : String) (row : WebhookEvent) : Routine.Keeps P (createWebhookEvent key row) := by
  apply keeps_aside
  grind [Write.Aside]

instance (key : String) (data : WebhookEvent → WebhookEvent) :
    Routine.Keeps P (updateWebhookEvent key data) := by
  apply keeps_aside
  grind [Write.Aside]

instance (key : String) : Routine.Keeps P (deleteWebhookEvent key) := by
  apply keeps_aside
  grind [Write.Aside]

instance (entry : AuditEntry) : Routine.Keeps P (record entry) := by
  apply keeps_aside
  grind [Write.Aside]

instance (n : Notification) : Routine.Keeps P (insertNotification n) := by
  apply keeps_aside
  grind [Write.Aside]

end Still

section Plans

variable [AdmitsUnpaid P]

/-- A statement that writes at most one plan. -/
theorem keeps_putEnrollment {f : Db → Except Err (α × List Write)}
    (h : ∀ v a ws, f v = .ok (a, ws) → ws = [] ∨ ∃ id row, ws = [.putEnrollment id row]) :
    Routine.Keeps P (statement f) := by
  apply Routine.Keeps.exec admits_nil
  intro v a ws hf
  rcases h v a ws hf with rfl | ⟨id, row, rfl⟩
  · exact admits_nil v
  · exact AdmitsUnpaid.unpaid v _ ⟨rfl, rfl⟩

instance (id : Id) (filter : ChildEnrollment → Bool) (data : ChildEnrollment → ChildEnrollment) :
    Routine.Keeps P (updateEnrollments id filter data) := by
  apply keeps_putEnrollment
  grind

instance (id : Id) (data : ChildEnrollment → ChildEnrollment) :
    Routine.Keeps P (updateEnrollment id data) := by
  apply keeps_putEnrollment
  grind

instance (id : Id) (row : ChildEnrollment) : Routine.Keeps P (createEnrollment id row) := by
  apply keeps_putEnrollment
  grind

end Plans

section Tame

variable [AdmitsTame P]

theorem keeps_statement {f : Db → Except Err (α × List Write)}
    (h : ∀ v a ws, f v = .ok (a, ws) → Tame v ws) : Routine.Keeps P (statement f) :=
  Routine.Keeps.exec admits_nil fun v a ws hf => AdmitsTame.tame v ws (h v a ws hf)

theorem keeps_sparing {f : Db → Except Err (α × List Write)}
    (h : ∀ v a ws, f v = .ok (a, ws) → ∀ w ∈ ws, w.Sparing) : Routine.Keeps P (statement f) :=
  keeps_statement fun v a ws hf => tame_sparing (h v a ws hf)

instance (id : Id) : Routine.Keeps P (deleteEnrollment id) := by
  apply keeps_sparing
  grind [Write.Sparing]

instance (enrollmentId : Id) : Routine.Keeps P (deletePayments enrollmentId) := by
  apply keeps_sparing
  grind [Write.Sparing]

/-- A guarded update that keeps the flags in step on the rows that pass the guard. -/
theorem keeps_updatePayments {id : Id} {filter : Payment → Bool} {data : Payment → Payment}
    (h : ∀ p, filter p = true → p.Agrees → (data p).Agrees) :
    Routine.Keeps P (updatePayments id filter data) := by
  apply keeps_statement
  intro v a ws hf
  cases hp : v.payments.lookup id with
  | none =>
    simp only [hp, Except.ok.injEq, Prod.mk.injEq] at hf
    rw [← hf.2]
    exact (still_nil v).tame
  | some p =>
    simp only [hp] at hf
    by_cases hfilter : filter p = true
    · simp only [hfilter, if_true, Except.ok.injEq, Prod.mk.injEq] at hf
      rw [← hf.2]
      exact tame_putPayment fun hbefore => h p hfilter (hbefore p hp)
    · simp only [hfilter, Bool.false_eq_true, if_false, Except.ok.injEq, Prod.mk.injEq] at hf
      rw [← hf.2]
      exact (still_nil v).tame

theorem keeps_updatePayment {id : Id} {data : Payment → Payment}
    (h : ∀ p, p.Agrees → (data p).Agrees) : Routine.Keeps P (updatePayment id data) := by
  apply keeps_statement
  intro v a ws hf
  cases hp : v.payments.lookup id with
  | none => simp [hp] at hf
  | some p =>
    simp only [hp, Except.ok.injEq, Prod.mk.injEq] at hf
    rw [← hf.2]
    exact tame_putPayment fun hbefore => h p (hbefore p hp)

theorem keeps_createPayment {id : Id} {row : Payment} (h : row.Agrees) :
    Routine.Keeps P (createPayment id row) := by
  apply keeps_statement
  intro v a ws hf
  split at hf
  · cases hf
  · split at hf
    · cases hf
    · split at hf
      · cases hf
      · split at hf
        · cases hf
        · simp only [Except.ok.injEq, Prod.mk.injEq] at hf
          rw [← hf.2]
          exact tame_putPayment fun _ => h

end Tame

/-- `createEnrollment` writes a row under an id that has none. -/
theorem obeys_createEnrollment {L : Trace Db Write Answer → Db → List Write → Prop}
    {τ : Trace Db Write Answer} {err : Err → Trace Db Write Answer → Prop} {id : Id}
    {row : ChildEnrollment} {ok : Unit → Trace Db Write Answer → Prop} (hL : ∀ τ v, L τ v [])
    (herr : ∀ e τ, err e τ) (h : ∀ v, v.enrollments.lookup id = none →
      L τ v [.putEnrollment id row] ∧ ok () (τ.ran v [.putEnrollment id row])) :
    (createEnrollment id row).obeys L ok err τ := by
  apply Routine.obeys_exec hL (herr _ _)
  · exact fun v e _ => herr e _
  · intro v a ws hf
    split at hf
    · cases hf
    · next hnew =>
      split at hf
      · cases hf
      · split at hf
        · cases hf
        · split at hf
          · cases hf
          · simp only [Except.ok.injEq, Prod.mk.injEq] at hf
            rw [← hf.2]
            exact h v (by simpa using hnew)

end Statements

end Lopay
