import Lopay.Balances
import Lopay.Books.Passages

/-!
# A disputed deposit

A dispute takes a captured first payment back. Whether the plan gets its whole fee back as
balance is decided on what the dispute reads before its transaction, and only for a plan that
was ACTIVE or COMPLETED then: one that had been marked as DEFAULTED keeps the credit of the
payment that was taken back.
-/

namespace Lopay

open Transactions

/-! ### What a dispute leaves -/

variable {reference eventType : String} {pid : Nat} {t₀ t t' : Service}

/-- The deposit `k` has been taken back: nothing of it is left on its plan. -/
def TakenBack (s : Db) (k enrollmentId : Id) : Prop :=
  ∃ p e, s.payments.lookup k = some p ∧ p.status = .FAILED ∧ p.isConfirmed = false ∧
    s.enrollments.lookup enrollmentId = some e ∧ e.paymentStatus = .FAILED ∧
    e.remainingBalance = e.totalSchoolFee

/-- A dispute leaves the payment FAILED and unconfirmed and its plan FAILED. The balance of the
    plan is the whole fee exactly if the dispute had read an ACTIVE or COMPLETED plan whose fee
    has not changed since, or another plan that owes the whole fee anyway. -/
theorem disputed_deposit
    (h : Sys.Passage store Job.program (fun _ _ _ => True) Opening pid
      (.reversePaystackPaymentByDispute reference eventType) t₀ t t') :
    ∃ k p e before, t.store.payments.lookup k = some p ∧ p.paystackReference = some reference ∧
      p.paymentType = .FIRST_PAYMENT ∧ p.status = .SUCCESS ∧
      t.store.enrollments.lookup p.enrollmentId = some e ∧
      t₀.store.enrollments.lookup p.enrollmentId = some before ∧
      (TakenBack t'.store k p.enrollmentId ↔
        if before.paymentStatus = .ACTIVE ∨ before.paymentStatus = .COMPLETED then
          before.totalSchoolFee = e.totalSchoolFee
        else e.remainingBalance = e.totalSchoolFee) := by
  obtain ⟨f, hbegins, hbody⟩ := reversePaystackPaymentByDispute_begins
    (amid_session (A := fun _ _ => True) (G := fun y ws =>
      Posts (fun c s => c = t₀.store ∧ Stable c s) (.dispute reference) y.now ws))
    reference eventType
  have hcoh₀ : Coherent t₀.store := reach_coherent (fun _ h => h.coherent) h.reach
  have hbegun : (Job.reversePaystackPaymentByDispute reference eventType).action =
      (fun _ => .done) <$> _ := congrArg (Functor.map fun _ => Reply.done) hbegins
  obtain ⟨hcoh, y, ws, hnow, hstore, hposts⟩ := posts_of_passage h hbegun fun x hx => by
    refine hbody (fun c s => c = t₀.store ∧ Stable c s) _ _ x hx (fun s hs => ?_) ?_
    · exact ⟨t₀.store, ⟨rfl, hs⟩, hs, hcoh₀, rfl⟩
    · exact fun y ws _ hposts _ => ⟨hposts, hposts.coherent (fun _ h => h.2) ‹_›⟩
  rw [hnow] at hposts
  obtain ⟨entry, hposting, hmade⟩ := hposts
  rw [← hstore] at hmade
  cases hposting with
  | @dispute _ k p e before c _ hp hreference htype hsuccess he hbefore _ hread =>
    obtain ⟨rfl, -⟩ := hbefore
    have hpayment : t'.store.payments.lookup k =
        some { p with status := .FAILED, isConfirmed := false } := by
      rw [hmade.payments]
      exact AList.lookup_insert _
    have hplan : t'.store.enrollments.lookup p.enrollmentId = some (e.disputed before) := by
      rw [hmade.enrollments]
      exact if_pos rfl
    refine ⟨k, p, e, before, hp, hreference, htype, hsuccess, he, hread, ?_⟩
    rw [ChildEnrollment.disputed] at hplan
    constructor
    · rintro ⟨p', e', -, -, -, he', -, howes⟩
      obtain rfl := Option.some.inj (hplan.symm.trans he')
      split at howes <;> rename_i hopen
      · rw [if_pos hopen]
        exact howes
      · rw [if_neg hopen]
        exact howes
    · intro hcond
      refine ⟨_, _, hpayment, rfl, rfl, hplan, ?_, ?_⟩
      · split <;> rfl
      · split at hcond <;> rename_i hopen
        · rw [if_pos hopen]
          exact hcond
        · rw [if_neg hopen]
          exact hcond
  | close _ hcloses => exact hcloses.elim

def cardDispute : Job := .reversePaystackPaymentByDispute "lopay_a7" "charge.dispute.create"

/-- The charge `a11` comes through and is disputed. -/
def disputedWhenActive : List (Event Job Answer) :=
  cardChargeOpen ++
  uninterrupted 1 (.reconcilePaystackPayment "lopay_a7" none none) "b" 12 ++ [.spawn cardDispute]

theorem disputed_deposit_whenActive : ∃ (t₀ t t' : Service) (k : Id) (p : Payment)
    (e before : ChildEnrollment),
    Sys.exec store Job.program (fun _ _ _ => true) disputedWhenActive (.init oneFamily) = some t₀ ∧
    Sys.exec store Job.program (fun _ _ _ => true) (goingOn 2 "d" 0 7) t₀ = some t ∧
    Sys.exec store Job.program (fun _ _ _ => true) [.move 2 (smoothly "d" 7)] t = some t' ∧
    t.store.payments.lookup k = some p ∧ t.store.enrollments.lookup p.enrollmentId = some e ∧
    t₀.store.enrollments.lookup p.enrollmentId = some before ∧
    (TakenBack t'.store k p.enrollmentId ↔
      if before.paymentStatus = .ACTIVE ∨ before.paymentStatus = .COMPLETED then
        before.totalSchoolFee = e.totalSchoolFee
      else e.remainingBalance = e.totalSchoolFee) := by
  have hruns : ((Sys.exec store Job.program (fun _ _ _ => true) disputedWhenActive
      (.init oneFamily)).any fun t₀ => (Sys.exec store Job.program (fun _ _ _ => true)
        (goingOn 2 "d" 0 7) t₀).any fun t => (Sys.exec store Job.program (fun _ _ _ => true)
          [.move 2 (smoothly "d" 7)] t).any fun t' => t₀.procs.length = 3 ∧
            t'.store.auditLogs.length ≠ t.store.auditLogs.length) = true := by
    decide +kernel
  obtain ⟨t₀, ht₀, hany⟩ := (Option.any_eq_true _ _).mp hruns
  obtain ⟨t, ht, hany⟩ := (Option.any_eq_true _ _).mp hany
  obtain ⟨t', ht', hcond⟩ := (Option.any_eq_true _ _).mp hany
  obtain ⟨hpid, hlogs⟩ := of_decide_eq_true hcond
  have hpassage : Sys.Passage store Job.program (fun _ _ _ => True) Opening 2 cardDispute t₀ t t' :=
    Sys.Passage.of_exec (fun _ _ _ _ => trivial) oneFamily_opening ht₀ hpid rfl ht ht'
      fun h => hlogs (congrArg (fun s => s.auditLogs.length) h)
  obtain ⟨k, p, e, before, hp, -, -, -, he, hbefore, hiff⟩ := disputed_deposit hpassage
  exact ⟨t₀, t, t', k, p, e, before, ht₀, ht, ht', hp, he, hbefore, hiff⟩

/-- The same with the plan marked as DEFAULTED before the dispute. -/
def disputedWhenDefaulted : List (Event Job Answer) :=
  cardChargeOpen ++
  uninterrupted 1 (.reconcilePaystackPayment "lopay_a7" none none) "b" 12 ++
  uninterrupted 2 (.markEnrollmentAsDefaulted "a9" "school" owner) "c" 7 ++ [.spawn cardDispute]

/-- The plan then keeps what the deposit has paid. -/
theorem disputed_deposit_needs_condition :
    ¬ ∀ (pid : Nat) (reference eventType : String) (t₀ t t' : Service),
      Sys.Passage store Job.program (fun _ _ _ => True) Opening pid
        (.reversePaystackPaymentByDispute reference eventType) t₀ t t' →
      ∀ k p, t.store.payments.lookup k = some p → p.paystackReference = some reference →
        TakenBack t'.store k p.enrollmentId := by
  intro hlaw
  have hruns : ((Sys.exec store Job.program (fun _ _ _ => true) disputedWhenDefaulted
      (.init oneFamily)).any fun t₀ => (Sys.exec store Job.program (fun _ _ _ => true)
        (goingOn 3 "d" 0 7) t₀).any fun t => (Sys.exec store Job.program (fun _ _ _ => true)
          [.move 3 (smoothly "d" 7)] t).any fun t' => (t.store.payments.lookup "a11").any fun p =>
            (t'.store.enrollments.lookup p.enrollmentId).any fun e => t₀.procs.length = 4 ∧
              t'.store.auditLogs.length ≠ t.store.auditLogs.length ∧
              p.paystackReference = some "lopay_a7" ∧
              e.remainingBalance ≠ e.totalSchoolFee) = true := by
    decide +kernel
  obtain ⟨t₀, ht₀, hany⟩ := (Option.any_eq_true _ _).mp hruns
  obtain ⟨t, ht, hany⟩ := (Option.any_eq_true _ _).mp hany
  obtain ⟨t', ht', hany⟩ := (Option.any_eq_true _ _).mp hany
  obtain ⟨p, hp, hany⟩ := (Option.any_eq_true _ _).mp hany
  obtain ⟨e, he, hcond⟩ := (Option.any_eq_true _ _).mp hany
  obtain ⟨hpid, hlogs, hreference, howes⟩ := of_decide_eq_true hcond
  have hpassage : Sys.Passage store Job.program (fun _ _ _ => True) Opening 3 cardDispute t₀ t t' :=
    Sys.Passage.of_exec (fun _ _ _ _ => trivial) oneFamily_opening ht₀ hpid rfl ht ht'
      fun h => hlogs (congrArg (fun s => s.auditLogs.length) h)
  obtain ⟨-, e', -, -, -, he', -, hwhole⟩ := hlaw 3 _ _ t₀ t t' hpassage "a11" p hp hreference
  obtain rfl := Option.some.inj (he.symm.trans he')
  exact howes hwhole

end Lopay
