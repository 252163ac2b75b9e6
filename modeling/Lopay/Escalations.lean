import Lopay.Books.Smooth
import Lopay.Ledger.Paystack
import Lopay.Books.Jobs

/-!
# Escalations of a reconcile conflict

A row of the webhook log under a unique key claims the alert about a reference. The call that
takes the claim alerts every admin and gives the claim back if there was somebody to tell and
nobody could be told, so of several calls one is heard, and none is silenced by one that was not.
-/

namespace Lopay

open Transactions

namespace Ledger

/-! ### The parts of a call -/

section Parts

variable (payment : PaymentOfPlan) (reference : String) (actualFeeKobo : Option Int)

def conflictEvent : WebhookEvent :=
  { provider := "paystack"
    eventType := "reconcile.conflict"
    reference := some reference
    payload := .conflict payment.id payment.row.enrollmentId payment.row.schoolId
      payment.row.status payment.row.amountPaid actualFeeKobo
    processedAt := none
    error := some (.text (conflictDetail payment reference)) }

def conflictAlert (admin : Id) : Notification :=
  { userId := admin
    title := "Payment needs manual reconciliation"
    message := conflictDetail payment reference ++
      " Resolve it on the Paystack dashboard (refund the payer, or settle " ++
      "the school directly) — the app will not activate this enrollment on its own."
    type := .ALERT
    link := some "/admin/approvals" }

/-- Whether this call has taken the claim. -/
def claimAlert : Action Bool :=
  tryCatch
    (do
      createWebhookEvent (conflictKey reference) (conflictEvent payment reference actualFeeKobo)
      pure true)
    (fun err => if err = .unique "dedupeKey" then pure false else throw err)

def lookUpAdmins : Action (Option (List Id)) :=
  tryCatch
    (do
      let found ← read Db.superAdmins
      pure (some found))
    (fun _ => pure none)

def alertAdmins (admins : Option (List Id)) : Action ReconcileOutcome := do
  let deliveries ← (admins.getD []).mapM fun admin =>
    ask (.createNotification (conflictAlert payment reference admin))
  Routine.onlyIf (admins ≠ some [] ∧ true ∉ deliveries) do
    tryCatch (deleteWebhookEvent (conflictKey reference)) (fun _ => pure ())
  pure (.statusConflict payment.row.status)

theorem escalateReconcileConflict_eq :
    escalateReconcileConflict payment reference actualFeeKobo = (do
      let claimed ← claimAlert payment reference actualFeeKobo
      if claimed = false then
        pure (.statusConflict payment.row.status)
      else do
        let admins ← lookUpAdmins
        alertAdmins payment reference admins) :=
  rfl

theorem claimAlert_run : (claimAlert payment reference actualFeeKobo).run =
    .stmt
      (fun db => if (db.webhookEvents.lookup (conflictKey reference)).isSome then []
        else [.putWebhookEvent (conflictKey reference)
          (conflictEvent payment reference actualFeeKobo)])
      (fun v => .ret (match v with
        | none => .error .database
        | some db => .ok (db.webhookEvents.lookup (conflictKey reference)).isNone)) := by
  refine congrArg₂ Prog.stmt (funext fun db => ?_) (funext fun v => ?_)
  · cases hclaim : db.webhookEvents.lookup (conflictKey reference) with
    | none => simp [hclaim]
    | some row => simp [hclaim]
  · cases v with
    | none => rfl
    | some db =>
      cases hclaim : db.webhookEvents.lookup (conflictKey reference) with
      | none =>
        simp only [hclaim]
        rfl
      | some row =>
        simp only [hclaim]
        rfl

theorem lookUpAdmins_run : lookUpAdmins.run =
    .stmt (fun _ => []) (fun v => .ret (.ok (v.map Db.superAdmins))) := by
  refine congrArg₂ Prog.stmt rfl (funext fun v => ?_)
  cases v with
  | none => rfl
  | some db => rfl

end Parts

/-! ### What a call leads to -/

/-- Whom alerts were sent to, in their order, and whether they were delivered. -/
def alertsOf (log : List (Sigma Answer)) : List (Id × Bool) :=
  log.reverse.filterMap fun
    | ⟨.createNotification n, delivered⟩ => some (n.userId, delivered)
    | _ => none

/-- The claim of the alert about a reference is taken. -/
def Claimed (reference : String) (db : Db) : Prop :=
  (db.webhookEvents.lookup (conflictKey reference)).isSome = true

section Call

variable {payment : PaymentOfPlan} {reference : String} {s : Db} {x : Context}

theorem alertsOf_cons {log : List (Sigma Answer)} {n : Notification} {delivered : Bool} :
    alertsOf (⟨.createNotification n, delivered⟩ :: log) = alertsOf log ++ [(n.userId, delivered)] := by
  simp [alertsOf]

/-- Every admin is sent one alert. -/
theorem alerts_smooth {l : List Id} (hx : x.On store s none) :
    (l.mapM fun admin => ask (.createNotification (conflictAlert payment reference admin)) :
      Action (List Bool)).smooth store
      (fun deliveries y => y.On store s none ∧ alertsOf y.log = alertsOf x.log ++ l.zip deliveries ∧
        deliveries.length = l.length)
      (fun _ _ => False) x := by
  induction l generalizing x with
  | nil => exact Routine.wp_pure ⟨hx, by simp, rfl⟩
  | cons admin l ih =>
    rw [List.mapM_cons]
    refine Routine.wp_bind (Routine.wp_ask fun y hd => ⟨trivial, fun delivered _ => ?_⟩)
    obtain rfl := hd.eq_of_isolated
    have hy := hx.answered (.createNotification (conflictAlert payment reference admin)) delivered
    refine Routine.wp_bind (Routine.wp_mono ?_ (fun _ _ h => h) (ih hy))
    rintro deliveries z ⟨hz, halerts, hlength⟩
    refine Routine.wp_pure ⟨hz, ?_, by rw [List.length_cons, List.length_cons, hlength]⟩
    rw [halerts, Ctx.answered, alertsOf_cons, List.zip_cons_cons, List.append_assoc]
    rfl

/-- The claim stays if an alert was delivered or there was nobody to tell. -/
theorem alertAdmins_smooth {admins : Option (List Id)} (hx : x.On store s none)
    (hclaimed : Claimed reference s) :
    (alertAdmins payment reference admins).smooth store
      (fun _ y => ∃ sent : List (Id × Bool), alertsOf y.log = alertsOf x.log ++ sent ∧
        sent.map Prod.fst = admins.getD [] ∧
        (Claimed reference y.now ↔ admins = some [] ∨ ∃ alert ∈ sent, alert.2 = true))
      (fun _ _ => False) x := by
  refine Routine.wp_bind (Routine.wp_mono ?_ (fun _ _ h => h) (alerts_smooth hx))
  rintro deliveries y ⟨hy, halerts, hlength⟩
  have hsent : ((admins.getD []).zip deliveries).map Prod.fst = admins.getD [] :=
    List.map_fst_zip (by omega)
  have hheard : (∃ alert ∈ (admins.getD []).zip deliveries, alert.2 = true) ↔
      true ∈ deliveries := by
    have hdelivered : ((admins.getD []).zip deliveries).map Prod.snd = deliveries :=
      List.map_snd_zip (by omega)
    constructor
    · rintro ⟨alert, hmem, htrue⟩
      rw [← hdelivered, ← htrue]
      exact List.mem_map_of_mem hmem
    · intro hmem
      rw [← hdelivered] at hmem
      exact List.mem_map.mp hmem
  refine Routine.wp_bind (Routine.wp_onlyIf (fun hsilent => ?_) fun hkeep => ?_)
  · obtain ⟨row, hrow⟩ := Option.isSome_iff_exists.mp hclaimed
    refine Routine.wp_tryCatch (Routine.wp_exec fun z hd => ?_)
    obtain rfl := hd.eq_of_isolated
    rw [hy.view, Option.getD_none, hrow]
    refine ⟨fun hf => hf.elim, fun e he => (nomatch he), fun a ws hdelete =>
      ⟨fun _ _ => trivial, fun _ => ?_⟩⟩
    cases hdelete
    refine Routine.wp_pure ⟨_, by rw [Ctx.wrote_log, halerts], hsent, ?_⟩
    have hnow := (Ctx.Outside.wrote (S := store) hy [.deleteWebhookEvent (conflictKey reference)]).now
    rw [hnow, hheard]
    refine iff_of_false ?_ (not_or_intro hsilent.1 hsilent.2)
    have hgone : (store.applyAll [.deleteWebhookEvent (conflictKey reference)] s).webhookEvents.lookup
        (conflictKey reference) = none := AList.lookup_erase _ _
    rw [Claimed, hgone]
    exact nofun
  · refine Routine.wp_pure ⟨_, halerts, hsent, ?_⟩
    rw [hy.now, hheard]
    refine iff_of_true hclaimed ?_
    by_contra hnone
    rw [not_or] at hnone
    exact hkeep hnone

end Call

/-- A call about a conflict: what it is called with, what is answered, and the database it
    finds. -/
structure Escalation where
  payment : PaymentOfPlan
  actualFeeKobo : Option Int
  choices : Nat → Choice Answer
  before : Db

namespace Escalation

variable (reference : String) (call : Escalation)

/-- What the call leaves when it has run to completion. -/
def done : Context :=
  ((escalateReconcileConflict call.payment reference call.actualFeeKobo).run.alone store
    call.choices (.init call.before)).2

def after : Db := (call.done reference).now

/-- The alerts that the call has sent. -/
def alerts : List (Id × Bool) := alertsOf (call.done reference).log

/-- The admins that the call finds, if the lookup does not fail: it is the second statement. -/
def admins : Option (List Id) :=
  if (call.choices 1).fault then none else some call.before.superAdmins

/-- Every statement but the lookup goes through. -/
def GoesThrough : Prop := ∀ n ≠ 1, (call.choices n).fault = false

variable {reference : String} {call : Escalation}

/-- A call that finds the claim taken does nothing. -/
theorem done_claimed (hch : call.GoesThrough) (h : Claimed reference call.before) :
    call.after reference = call.before ∧ call.alerts reference = [] := by
  obtain ⟨row, hrow⟩ := Option.isSome_iff_exists.mp h
  have hview : (Ctx.init call.before : Context).view store = call.before := rfl
  have hdone : call.done reference = (Ctx.init call.before).wrote store [] := by
    rw [done, escalateReconcileConflict_eq]
    change (Prog.alone store ((claimAlert _ _ _).run.bind _) _ _).2 = _
    rw [claimAlert_run, Prog.alone_stmt_bind, if_neg (by simp [hch 0 (by decide)]), hview]
    simp only [hrow]
    rfl
  rw [after, alerts, hdone]
  exact ⟨rfl, rfl⟩

/-- A call that takes the claim alerts the admins it finds, and keeps the claim if one of them
    was told or there was none to tell. -/
theorem done_unclaimed (hch : call.GoesThrough) (h : ¬ Claimed reference call.before) :
    (call.alerts reference).map Prod.fst = call.admins.getD [] ∧
      (Claimed reference (call.after reference) ↔
        call.admins = some [] ∨ ∃ alert ∈ call.alerts reference, alert.2 = true) := by
  have hfree : call.before.webhookEvents.lookup (conflictKey reference) = none := by
    rw [Claimed, Bool.not_eq_true, Option.isSome_eq_false_iff, Option.isNone_iff_eq_none] at h
    exact h
  have hview : (Ctx.init call.before : Context).view store = call.before := rfl
  let claim := Write.putWebhookEvent (conflictKey reference)
    (conflictEvent call.payment reference call.actualFeeKobo)
  have hx : ((Ctx.init call.before : Context).wrote store [claim]).On store
      (store.apply claim call.before) none := Ctx.Outside.wrote ⟨rfl, rfl⟩ [claim]
  have hclaimed : Claimed reference (store.apply claim call.before) := by
    have hlookup : (store.apply claim call.before).webhookEvents.lookup (conflictKey reference) =
        some _ := AList.lookup_insert _
    rw [Claimed, hlookup]
    rfl
  -- The lookup fails or finds the admins; what follows goes through.
  obtain ⟨y, hy, hlog, hdone⟩ : ∃ y : Context, y.On store (store.apply claim call.before) none ∧
      y.log = [] ∧ call.done reference = ((alertAdmins call.payment reference call.admins).run.alone
        store (fun n => call.choices (n + 1 + 1)) y).2 := by
    rw [done, escalateReconcileConflict_eq, admins]
    change ∃ y : Context, _ ∧ _ ∧ (Prog.alone store ((claimAlert _ _ _).run.bind _) _ _).2 = _
    rw [claimAlert_run, Prog.alone_stmt_bind, if_neg (by simp [hch 0 (by decide)]), hview]
    simp only [hfree]
    change ∃ y : Context, _ ∧ _ ∧ (Prog.alone store (lookUpAdmins.run.bind _) _ _).2 = _
    rw [lookUpAdmins_run, Prog.alone_stmt_bind]
    split
    · refine ⟨((Ctx.init call.before : Context).wrote store [claim]).failed, ?_, rfl, rfl⟩
      exact ⟨hx.now, rfl⟩
    · exact ⟨_, hx.wrote_nil, rfl, rfl⟩
  have hsends : (alertAdmins call.payment reference call.admins).smooth store _ _ y :=
    alertAdmins_smooth hy hclaimed
  have hlater : ∀ n, (call.choices (n + 1 + 1)).fault = false := fun n => hch _ (by omega)
  have hrest := Prog.alone_undisturbed hlater hsends
  rw [← hdone] at hrest
  split at hrest
  · obtain ⟨sent, hsent, hasked, hkept⟩ := hrest
    rw [hlog] at hsent
    have halerts : call.alerts reference = sent := hsent
    rw [halerts]
    exact ⟨hasked, hkept⟩
  · exact hrest.elim

/-- The call takes the claim. -/
def Takes (reference : String) (call : Escalation) : Prop := ¬ Claimed reference call.before

/-- The call has taken the claim and given it back. -/
def Releases (reference : String) (call : Escalation) : Prop :=
  call.Takes reference ∧ ¬ Claimed reference (call.after reference)

/-- An admin has been told. -/
def Told (reference : String) (call : Escalation) : Prop :=
  ∃ alert ∈ call.alerts reference, alert.2 = true

end Escalation

/-! ### One call after the other -/

/-- Calls about one reference, each run to completion. Between them the database changes in any
    way that leaves the claim alone. -/
structure Escalations (reference : String) (calls : List Escalation) : Prop where
  goesThrough : ∀ call ∈ calls, call.GoesThrough
  unclaimed : ∀ call, calls[0]? = some call → call.Takes reference
  carried : ∀ i call next, calls[i]? = some call → calls[i + 1]? = some next →
    (Claimed reference next.before ↔ Claimed reference (call.after reference))

namespace Escalations

variable {reference : String} {calls : List Escalation} {call next : Escalation} {i j : Nat}

theorem through (h : Escalations reference calls) (hcall : calls[i]? = some call) :
    call.GoesThrough :=
  h.goesThrough call (List.mem_of_getElem? hcall)

/-- Once a call has kept the claim, all later ones find it taken. -/
theorem claimed_later (h : Escalations reference calls) (hcall : calls[i]? = some call)
    (hkept : Claimed reference (call.after reference)) (hij : i < j)
    (hnext : calls[j]? = some next) : Claimed reference next.before := by
  induction j generalizing next with
  | zero => omega
  | succ j ih =>
    have hj : j < calls.length := by
      have hlt := (List.getElem?_eq_some_iff.mp hnext).1
      omega
    obtain ⟨between, hbetween⟩ : ∃ between, calls[j]? = some between :=
      ⟨_, List.getElem?_eq_getElem hj⟩
    rw [h.carried j between next hbetween hnext]
    rcases Nat.lt_succ_iff_lt_or_eq.mp hij with hlt | rfl
    · have hfound := ih hlt hbetween
      rw [(Escalation.done_claimed (h.through hbetween) hfound).1]
      exact hfound
    · obtain rfl := Option.some.inj (hcall.symm.trans hbetween)
      exact hkept

/-- A call that sends an alert has taken the claim. -/
theorem takes_of_alerts (h : Escalations reference calls) (hcall : calls[i]? = some call)
    (halerts : call.alerts reference ≠ []) : call.Takes reference := fun hclaimed =>
  halerts (Escalation.done_claimed (h.through hcall) hclaimed).2

/-- Behind a claim that is held there is the call that took it. -/
theorem taken_before (h : Escalations reference calls) (hcall : calls[j]? = some call)
    (hheld : Claimed reference (call.after reference)) :
    ∃ i ≤ j, ∃ taker, calls[i]? = some taker ∧ taker.Takes reference ∧
      Claimed reference (taker.after reference) := by
  induction j generalizing call with
  | zero => exact ⟨0, le_refl 0, call, hcall, h.unclaimed call hcall, hheld⟩
  | succ j ih =>
    by_cases hbefore : Claimed reference call.before
    · have hj : j < calls.length := by
        have hlt := (List.getElem?_eq_some_iff.mp hcall).1
        omega
      have hprev : calls[j]? = some calls[j] := List.getElem?_eq_getElem hj
      obtain ⟨i, hi, taker, htaker, htakes, hkept⟩ :=
        ih hprev ((h.carried j _ call hprev hcall).mp hbefore)
      exact ⟨i, by omega, taker, htaker, htakes, hkept⟩
    · exact ⟨j + 1, le_refl _, call, hcall, hbefore, hheld⟩

end Escalations

/-- A first payment that the books have closed as FAILED. -/
def failedPayment : PaymentOfPlan where
  id := "payment"
  row :=
    { enrollmentId := "plan"
      schoolId := "school"
      idempotencyKey := none
      amountPaid := 2750000
      platformAmount := 250000
      schoolAmount := 2500000
      receiver := .PLATFORM
      paymentType := .FIRST_PAYMENT
      status := .FAILED
      isConfirmed := false
      paymentDate := 0
      receiptUrl := none
      paystackReference := some "lopay_ref"
      paystackAccessCode := some "code"
      amountCharged := none
      paystackFee := none
      actualPaystackFee := none
      transactionCharge := none }
  plan :=
    { id := "plan"
      row :=
        { childId := "child"
          schoolId := "school"
          className := "JSS1"
          totalSchoolFee := 10000000
          platformFee := 250000
          schoolMinimumFee := 2500000
          firstPaymentPaid := 2750000
          remainingBalance := 10000000
          paymentStatus := .FAILED
          installmentFrequency := .MONTHLY
          termStartDate := 0
          termEndDate := 100
          enrollmentInviteId := none }
      school :=
        { name := "Unity School"
          phone := "080"
          ownerId := "owner"
          paystackSubaccountCode := some "ACCT"
          paystackSubaccountActive := true
          deletedAt := none
          migrationDeadline := 0 }
      child := ⟨"parent", "Ada", "JSS1"⟩
      parent := ⟨"parent", "081"⟩ }

/-- The family's database, with an admin. -/
def oneAdmin : Db :=
  { oneFamily with
    users := oneFamily.users.insert "admin"
      { email := "admin@mail"
        role := .SUPER_ADMIN
        fullName := none
        name := none
        phoneNumber := none
        phoneHash := none } }

/-- A call whose alerts are all delivered, or none of them. -/
def escalation (delivered : Bool) (before : Db) : Escalation where
  payment := failedPayment
  actualFeeKobo := none
  choices := fun n =>
    { smoothly "a" n with
      answer := fun
        | .createNotification _ => delivered
        | c => (smoothly "a" n).answer c }
  before := before

def unheard : Escalation := escalation false oneAdmin

def retried : Escalation := escalation true (unheard.after "lopay_ref")

instance (reference : String) (db : Db) : Decidable (Claimed reference db) :=
  inferInstanceAs (Decidable (_ = true))

end Ledger

end Lopay
