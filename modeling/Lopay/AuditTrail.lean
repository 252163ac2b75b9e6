import Lopay.Books.Jobs
import Mathlib.Data.List.Chain

/-!
# The audit trail of the books

Whatever runs beside whatever, the log of audits only grows, by at most one row for each commit.
Read for one payment, its rows tell when the payment's amount was credited and when it was taken
back: the two take turns, and the last one says whether the payment is confirmed.
-/

namespace Lopay

open Transactions

/-! ### Credits and take-backs -/

/-- The audit actions of the commits that credit a payment to its plan (`true`), and of those
    that take it back (`false`). -/
def AuditAction.movement? : AuditAction → Option Bool
  | .PAYMENT_CONFIRMED | .FIRST_PAYMENT_CONFIRMED | .FIRST_PAYMENT_SETTLED
  | .FIRST_PAYMENT_PAID => some true
  | .PAYMENT_REVERSED | .PAYMENT_DISPUTED => some false
  | _ => none

/-- The credits and take-backs of the payment `k` among some rows. -/
def movements (k : Id) (log : List AuditEntry) : List Bool :=
  log.filterMap fun a => if a.entityId = k then a.action.movement? else none

theorem movements_append {k : Id} {log log' : List AuditEntry} :
    movements k (log ++ log') = movements k log ++ movements k log' := List.filterMap_append

/-- Whether the payment `k` is confirmed. -/
def confirmedIn (k : Id) (s : Db) : Bool := (s.payments.lookup k).any (·.isConfirmed)

/-- What a commit does to a payment, as its audit row has it. -/
inductive Turn : List Bool → Option Payment → Option Payment → Prop
  | absent : Turn [] none none
  | migrated {p : Payment} : p.paymentType = .MIGRATED_PAYMENT → Turn [] none (some p)
  | created {p : Payment} : p.isConfirmed = false → Turn [] none (some p)
  | kept {p q : Payment} : q.paymentType = p.paymentType → q.isConfirmed = p.isConfirmed →
      Turn [] (some p) (some q)
  | credited {p q : Payment} : p.paymentType ≠ .MIGRATED_PAYMENT → q.paymentType = p.paymentType →
      p.isConfirmed = false → q.isConfirmed = true → Turn [true] (some p) (some q)
  | takenBack {p q : Payment} : p.paymentType ≠ .MIGRATED_PAYMENT →
      q.paymentType = p.paymentType → p.isConfirmed = true → q.isConfirmed = false →
      Turn [false] (some p) (some q)

section Postings

variable {E : Db → Db → Prop} {s t : Db} {kind : Kind} {entry : Entry} {locks : List Lock} {k : Id}

theorem AuditEntry.IsAbout.movements {a : AuditEntry} {action : AuditAction} {id : Id}
    (h : a.IsAbout action id) : movements k [a] =
      if id = k then action.movement?.toList else [] := by
  rcases h with ⟨haction, hid⟩
  rw [Lopay.movements, haction.symm]
  by_cases hk : id = k
  · cases hm : a.action.movement? <;> simp [hid, hk, hm]
  · simp [hid, hk]

theorem Turn.same (p : Option Payment) : Turn [] p p := by
  cases p with
  | none => exact .absent
  | some p => exact .kept rfl rfl

/-- A commit that puts no payment under the key and says nothing about it. -/
theorem Turn.elsewhere (hm : entry.Made s t locks) (hput : ∀ q, entry.payment ≠ some (k, q))
    (hlog : movements k entry.audit.toList = []) :
    Turn (movements k entry.audit.toList) (s.payments.lookup k) (t.payments.lookup k) := by
  rw [hlog, hm.payment_kept hput]
  exact .same _

/-- Every posting takes its turn. -/
theorem Posting.turn (hs : Coherent s) (h : Posting E s kind entry) (hm : entry.Made s t locks) :
    Turn (movements k entry.audit.toList) (s.payments.lookup k) (t.payments.lookup k) := by
  cases h with
  | @confirm k' p e date a hp htype hunconfirmed _ ha =>
    by_cases hk : k' = k
    · subst hk
      rw [hp, hm.payment_put rfl, Option.toList_some, ha.movements, if_pos rfl]
      exact .credited (by simp [htype]) rfl hunconfirmed rfl
    · exact .elsewhere hm (by simp [hk]) (by simp [ha.movements, hk])
  | @reverse k' p e before c a hp htype hconfirmed _ _ _ _ _ ha =>
    by_cases hk : k' = k
    · subst hk
      rw [hp, hm.payment_put rfl, Option.toList_some, ha.movements, if_pos rfl]
      exact .takenBack (by simp [htype]) rfl hconfirmed rfl
    · exact .elsewhere hm (by simp [hk]) (by simp [ha.movements, hk])
  | @credit action k' p e date fee a haction hp htype hunconfirmed _ _ ha =>
    by_cases hk : k' = k
    · subst hk
      have hcredits : action.movement? = some true := by
        rcases haction with rfl | rfl | rfl <;> rfl
      rw [hp, hm.payment_put rfl, Option.toList_some, ha.movements, if_pos rfl, hcredits]
      exact .credited (by simp [htype]) rfl hunconfirmed rfl
    · exact .elsewhere hm (by simp [hk]) (by simp [ha.movements, hk])
  | @dispute reference k' p e before c a hp _ htype hsuccess _ _ _ _ ha =>
    by_cases hk : k' = k
    · subst hk
      rw [hp, hm.payment_put rfl, Option.toList_some, ha.movements, if_pos rfl]
      exact .takenBack (by simp [htype]) rfl ((hs.payments _ _ hp).confirmed.mpr hsuccess) rfl
    · exact .elsewhere hm (by simp [hk]) (by simp [ha.movements, hk])
  | @reject k' schoolId p a hp _ _ _ ha =>
    have hlog : movements k [a] = [] := by
      rw [ha.movements]
      split <;> rfl
    by_cases hk : k' = k
    · subst hk
      rw [hp, hm.payment_put rfl, Option.toList_some, hlog]
      exact .kept rfl rfl
    · exact .elsewhere hm (by simp [hk]) hlog
  | @close _ k' p e audit hp _ _ _ _ haudit =>
    have hlog : movements k audit.toList = [] := by
      cases audit with
      | none => rfl
      | some a =>
        rcases haudit a rfl with ha | ha
        · rw [Option.toList_some, ha.movements]
          split <;> rfl
        · rw [Option.toList_some, ha.movements]
          split <;> rfl
    by_cases hk : k' = k
    · subst hk
      rw [hp, hm.payment_put rfl, hlog]
      exact .kept rfl rfl
    · exact .elsewhere hm (by simp [hk]) hlog
  | @amend k' p e newAmount a hp _ _ _ _ _ ha =>
    have hlog : movements k [a] = [] := by
      rw [ha.movements]
      split <;> rfl
    by_cases hk : k' = k
    · subst hk
      rw [hp, hm.payment_put rfl, Option.toList_some, hlog]
      exact .kept rfl rfl
    · exact .elsewhere hm (by simp [hk]) hlog
  | @migrate k' eid inviteId childId invite now a hfresh _ _ _ _ _ _ ha =>
    have hlog : movements k [a] = [] := by
      rw [ha.movements]
      split <;> rfl
    by_cases hk : k' = k
    · subst hk
      rw [hfresh, hm.payment_put rfl, Option.toList_some, hlog]
      exact .migrated rfl
    · exact .elsewhere hm (by simp [hk]) hlog
  | @openPlan _ k' _ p e _ ho | @reopenPlan _ k' _ p _ e _ _ ho =>
    by_cases hk : k' = k
    · subst hk
      rw [ho.fresh, hm.payment_put rfl]
      exact .created ho.isConfirmed
    · exact .elsewhere hm (by simp [hk]) rfl
  | @submit k' p e hfresh _ _ _ hunconfirmed =>
    by_cases hk : k' = k
    · subst hk
      rw [hfresh, hm.payment_put rfl]
      exact .created hunconfirmed
    · exact .elsewhere hm (by simp [hk]) rfl
  | @releaseKey k' p hp | @storeAccessCode k' p _ hp =>
    by_cases hk : k' = k
    · subst hk
      rw [hp, hm.payment_put rfl]
      exact .kept rfl rfl
    · exact .elsewhere hm (by simp [hk]) rfl
  | @markDefaulted k' e a _ ha | @sweepDefaulted k' e a _ _ _ ha =>
    refine .elsewhere hm (by simp) ?_
    rw [Option.toList_some, ha.movements]
    split <;> rfl
  | aside => exact .elsewhere hm (by simp) rfl

end Postings

/-! ### Taking turns -/

/-- What the credits and take-backs of a payment since the run began say, when it was confirmed or
    not at the beginning as `before` says and is now what `now` has. -/
def Recounts (before : Bool) (log : List Bool) : Option Payment → Prop
  | none => before = false ∧ log = []
  | some p => if p.paymentType = .MIGRATED_PAYMENT then log = [] else
      (before :: log).IsChain (· ≠ ·) ∧ (before :: log).getLast? = some p.isConfirmed

theorem Recounts.turn {before : Bool} {log more : List Bool} {p q : Option Payment}
    (h : Recounts before log p) (ht : Turn more p q) : Recounts before (log ++ more) q := by
  cases ht with
  | absent => simpa using h
  | migrated htype => simp [Recounts, htype, h.2]
  | @created p hunconfirmed =>
    rcases h with ⟨rfl, rfl⟩
    simp only [Recounts, hunconfirmed]
    split <;> simp
  | @kept p q htype hconfirmed =>
    rw [List.append_nil, Recounts, htype, hconfirmed]
    exact h
  | @credited p q hnot htype hbefore hafter | @takenBack p q hnot htype hbefore hafter =>
    rw [Recounts, if_neg hnot, hbefore] at h
    rw [Recounts, if_neg (by rwa [htype]), hafter, ← List.cons_append]
    constructor
    · rw [List.isChain_append]
      refine ⟨h.1, .singleton _, ?_⟩
      simp [h.2]
    · exact List.getLast?_concat

/-- In any interleaving the log only grows; and by the rows that have come since the beginning, a
    payment is credited and taken back in turns, and confirmed exactly if the last of these was a
    credit. -/
theorem credits_alternate {s₀ : Db} (hs₀ : Coherent s₀) {t : Service}
    (ht : Sys.Reach store Job.program (fun _ _ _ => True) (· = s₀) t) :
    ∃ log, t.store.auditLogs = s₀.auditLogs ++ log ∧ ∀ k p, t.store.payments.lookup k = some p →
      p.paymentType ≠ .MIGRATED_PAYMENT →
        (confirmedIn k s₀ :: movements k log).IsChain (· ≠ ·) ∧
          (confirmedIn k s₀ :: movements k log).getLast? = some p.isConfirmed := by
  have hstart : ∀ s, s = s₀ → Coherent s := by
    rintro s rfl
    exact hs₀
  have hrecounts : ∃ log, t.store.auditLogs = s₀.auditLogs ++ log ∧ ∀ k,
      Recounts (confirmedIn k s₀) (movements k log) (t.store.payments.lookup k) := by
    refine reach_invariant (I := fun s => ∃ log, s.auditLogs = s₀.auditLogs ++ log ∧ ∀ k,
      Recounts (confirmedIn k s₀) (movements k log) (s.payments.lookup k)) Moves.any
      (fun _ _ _ _ _ _ => trivial) hstart ?_ ?_ ht
    · rintro s rfl
      refine ⟨[], by simp, fun k => ?_⟩
      cases hp : s.payments.lookup k with
      | none => simp [Recounts, confirmedIn, hp, movements]
      | some p => simp [Recounts, confirmedIn, hp, movements]
    · rintro t t' pid ch p kind ws - - - - hcoh ⟨log, hlog, hall⟩ ⟨entry, hposting, hmade⟩ -
      refine ⟨log ++ entry.audit.toList, ?_, fun k => ?_⟩
      · rw [hmade.auditLogs, hlog, List.append_assoc]
      · rw [movements_append]
        exact (hall k).turn (hposting.turn hcoh hmade)
  rcases hrecounts with ⟨log, hlog, hall⟩
  refine ⟨log, hlog, fun k p hp htype => ?_⟩
  have hk := hall k
  rwa [hp, Recounts, if_neg htype] at hk

/-- A receipt that the school has confirmed, taken back, and confirmed again. -/
def receiptConfirmedAgain : List (Event Job Answer) :=
  uninterrupted 0 (.enrollChild (enrollment none) "parent") "a" 18 ++
  uninterrupted 1 (.settleFirstPayment "a8" admin) "b" 12 ++
  uninterrupted 2 (.submitInstallmentPayment "a6" 75000 parentUser none none) "x" 10 ++
  uninterrupted 3 (.confirmPayment "x4" "school" owner) "c" 11 ++
  uninterrupted 4 (.reversePayment "x4" "school" owner none) "d" 10 ++
  uninterrupted 5 (.confirmPayment "x4" "school" owner) "e" 11

theorem credits_alternate_receiptConfirmedAgain : ∃ t log p,
    Sys.exec store Job.program (fun _ _ _ => true) receiptConfirmedAgain (.init oneFamily) = some t ∧
    t.store.auditLogs = oneFamily.auditLogs ++ log ∧ t.store.payments.lookup "x4" = some p ∧
    (confirmedIn "x4" oneFamily :: movements "x4" log).IsChain (· ≠ ·) ∧
    (confirmedIn "x4" oneFamily :: movements "x4" log).getLast? = some p.isConfirmed := by
  have hruns : ((Sys.exec store Job.program (fun _ _ _ => true) receiptConfirmedAgain
      (.init oneFamily)).any fun t => (t.store.payments.lookup "x4").any fun p =>
        p.paymentType ≠ .MIGRATED_PAYMENT ∧ movements "x4" t.store.auditLogs = [true, false, true]) =
      true := by
    decide +kernel
  rcases (Option.any_eq_true _ _).mp hruns with ⟨t, ht, hany⟩
  rcases (Option.any_eq_true _ _).mp hany with ⟨p, hp, hcond⟩
  rcases of_decide_eq_true hcond with ⟨htype, -⟩
  rcases credits_alternate oneFamily_opening.coherent
    (Sys.reach_of_exec (fun _ _ _ _ => trivial) (.init rfl) ht) with ⟨log, hlog, hall⟩
  exact ⟨t, log, p, ht, hlog, hp, hall "x4" p hp htype⟩

/-! ### Changes of a plan -/

/-- The commit writes one audit row, and that is about this row. -/
def Audits (s t : Db) (id : Id) : Prop := ∃ a, t.auditLogs = s.auditLogs ++ [a] ∧ a.entityId = id

/-- What accounts for a change of the balance or the status of the plan `id`. -/
inductive Accounted (s t : Db) (id : Id) (e e' : ChildEnrollment) : Prop
  /-- The audit row is about a payment on the plan. -/
  | payment {k : Id} {p : Payment} : t.payments.lookup k = some p → p.enrollmentId = id →
      Audits s t k → Accounted s t id e e'
  /-- The audit row is about the plan, which has been marked as DEFAULTED. -/
  | defaulted : Audits s t id → e'.paymentStatus = .DEFAULTED →
      e'.remainingBalance = e.remainingBalance → Accounted s t id e e'
  /-- A first payment that has brought nothing has been closed, and its plan with it. -/
  | closed {k : Id} {p q : Payment} : s.payments.lookup k = some p → p.enrollmentId = id →
      p.paymentType = .FIRST_PAYMENT → p.isConfirmed = false → t.payments.lookup k = some q →
      q.status = .FAILED → e'.paymentStatus = .FAILED →
      e'.remainingBalance = e.remainingBalance → Accounted s t id e e'
  /-- The plan has been opened again, for a new first payment. No audit row is written. -/
  | reopened {k : Id} {p : Payment} : s.payments.lookup k = none → t.payments.lookup k = some p →
      p.enrollmentId = id → p.paymentType = .FIRST_PAYMENT → e'.paymentStatus = .PENDING →
      e'.remainingBalance = e'.totalSchoolFee → t.auditLogs = s.auditLogs → Accounted s t id e e'

section Changes

variable {E : Db → Db → Prop} {s t : Db} {kind : Kind} {entry : Entry} {locks : List Lock} {id : Id}
  {e e' : ChildEnrollment}

theorem AuditEntry.IsAbout.audits {a : AuditEntry} {action : AuditAction} {k : Id}
    (h : a.IsAbout action k) (hm : entry.Made s t locks) (haudit : entry.audit = some a) :
    Audits s t k := ⟨a, by rw [hm.auditLogs, haudit, Option.toList_some], h.2⟩

/-- What a posting makes of a plan is accounted for. -/
theorem Posting.accounted (h : Posting E s kind entry) (hm : entry.Made s t locks)
    (he : s.enrollments.lookup id = some e) (he' : t.enrollments.lookup id = some e') :
    e'.remainingBalance = e.remainingBalance ∧ e'.paymentStatus = e.paymentStatus ∨
      Accounted s t id e e' := by
  rcases hm.enrollment_cases he' with hput | ⟨hold, -⟩
  · cases h with
    | confirm _ _ _ _ ha | reverse _ _ _ _ _ _ _ _ ha | credit _ _ _ _ _ _ ha
    | dispute _ _ _ _ _ _ _ _ ha | amend _ _ _ _ _ _ ha =>
      rcases Prod.mk.inj (Option.some.inj hput) with ⟨rfl, rfl⟩
      exact .inr (.payment (hm.payment_put rfl) rfl (ha.audits hm rfl))
    | markDefaulted hold ha | sweepDefaulted hold _ _ ha =>
      rcases Prod.mk.inj (Option.some.inj hput) with ⟨rfl, rfl⟩
      obtain rfl := Option.some.inj (hold.symm.trans he)
      exact .inr (.defaulted (ha.audits hm rfl) rfl rfl)
    | close hp _ htype hunconfirmed hold =>
      rcases Prod.mk.inj (Option.some.inj hput) with ⟨rfl, rfl⟩
      obtain rfl := Option.some.inj (hold.symm.trans he)
      exact .inr (.closed hp rfl htype hunconfirmed (hm.payment_put rfl) rfl rfl rfl)
    | reopenPlan _ _ ho hon =>
      rcases Prod.mk.inj (Option.some.inj hput) with ⟨rfl, rfl⟩
      refine .inr (.reopened ho.fresh (hm.payment_put rfl) hon ho.paymentType ho.pending
        ho.balance ?_)
      rw [hm.auditLogs]
      simp
    | openPlan hnew | migrate _ hnew =>
      rcases Prod.mk.inj (Option.some.inj hput) with ⟨rfl, rfl⟩
      rw [hnew] at he
      cases he
    | submit _ _ _ _ _ _ _ _ hold =>
      rcases Prod.mk.inj (Option.some.inj hput) with ⟨rfl, rfl⟩
      obtain rfl := Option.some.inj (hold.symm.trans he)
      exact .inl ⟨rfl, rfl⟩
    | reject | releaseKey | storeAccessCode | aside => cases hput
  · obtain rfl := Option.some.inj (hold.symm.trans he)
    exact .inl ⟨rfl, rfl⟩

end Changes

/-- In any interleaving a commit writes at most one audit row, and leaves the balance and the
    status of every plan as they are unless the change is accounted for. -/
theorem changes_accounted {s₀ : Db} (hs₀ : Coherent s₀) {t t' : Service}
    (ht : Sys.Reach store Job.program (fun _ _ _ => True) (· = s₀) t) {e : Event Job Answer}
    (hstep : t.step store Job.program e = some t') :
    (∃ rows, t'.store.auditLogs = t.store.auditLogs ++ rows ∧ rows.length ≤ 1) ∧
      ∀ id before after, t.store.enrollments.lookup id = some before →
        t'.store.enrollments.lookup id = some after →
        after.remainingBalance = before.remainingBalance ∧
            after.paymentStatus = before.paymentStatus ∨
          Accounted t.store t'.store id before after := by
  have hstart : ∀ s, s = s₀ → Coherent s := by
    rintro s rfl
    exact hs₀
  rcases reach_committed Moves.any (fun _ _ _ _ _ _ => trivial) hstart ht hstep trivial with
    hsame | ⟨pid, ch, p, kind, ws, rfl, -, -, -, ⟨entry, hposting, hmade⟩, hstore⟩
  · rw [hsame]
    refine ⟨⟨[], by simp⟩, fun id before after hbefore hafter => .inl ?_⟩
    rw [Option.some.inj (hbefore.symm.trans hafter)]
    exact ⟨rfl, rfl⟩
  · rw [hstore]
    refine ⟨⟨entry.audit.toList, hmade.auditLogs, ?_⟩, fun id before after hbefore hafter => ?_⟩
    · cases entry.audit <;> simp
    · exact hposting.accounted hmade hbefore hafter

/-- The school is about to commit its confirmation of the receipt `x4`. -/
def receiptUnderway : List (Event Job Answer) :=
  uninterrupted 0 (.enrollChild (enrollment none) "parent") "a" 18 ++
  uninterrupted 1 (.settleFirstPayment "a8" admin) "b" 12 ++
  uninterrupted 2 (.submitInstallmentPayment "a6" 75000 parentUser none none) "x" 10 ++
  uninterrupted 3 (.confirmPayment "x4" "school" owner) "c" 10

theorem changes_accounted_receiptUnderway : ∃ t t' before after,
    Sys.exec store Job.program (fun _ _ _ => true) receiptUnderway (.init oneFamily) = some t ∧
    t.step store Job.program (.move 3 (smoothly "c" 10)) = some t' ∧
    t.store.enrollments.lookup "a6" = some before ∧ t'.store.enrollments.lookup "a6" = some after ∧
    Accounted t.store t'.store "a6" before after := by
  have hruns : ((Sys.exec store Job.program (fun _ _ _ => true) receiptUnderway
      (.init oneFamily)).any fun t => (t.step store Job.program (.move 3 (smoothly "c" 10))).any
        fun t' => (t.store.enrollments.lookup "a6").any fun before =>
          (t'.store.enrollments.lookup "a6").any fun after =>
            after.remainingBalance ≠ before.remainingBalance) = true := by
    decide +kernel
  rcases (Option.any_eq_true _ _).mp hruns with ⟨t, ht, hany⟩
  rcases (Option.any_eq_true _ _).mp hany with ⟨t', ht', hany⟩
  rcases (Option.any_eq_true _ _).mp hany with ⟨before, hbefore, hany⟩
  rcases (Option.any_eq_true _ _).mp hany with ⟨after, hafter, hcond⟩
  have hchange := (changes_accounted oneFamily_opening.coherent
    (Sys.reach_of_exec (fun _ _ _ _ => trivial) (.init rfl) ht) ht').2 "a6" before after hbefore
    hafter
  refine ⟨t, t', before, after, ht, ht', hbefore, hafter, hchange.resolve_left fun h => ?_⟩
  exact of_decide_eq_true hcond h.1

end Lopay
