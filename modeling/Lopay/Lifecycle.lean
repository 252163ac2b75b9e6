import Lopay.Books.Jobs

/-!
# The life of a payment

Which changes of status a payment goes through when the statements of any number of jobs
are interleaved. The guards of the confirming operations test `isConfirmed` only, so a
payment that was rejected, or that was taken back and then rejected, can come alive
again; everything else follows the life cycle.
-/

namespace Lopay

open Transactions

/-- The changes of status in the life of a payment; the last one is made by a job that
    handles a dispute. -/
inductive Payment.Advances (disputed : Prop) (p q : Payment) : Prop
  | stays : q.status = p.status → Advances disputed p q
  | settled : p.status = .PENDING → q.status = .SUCCESS → Advances disputed p q
  | failed : p.status = .PENDING → q.status = .FAILED → Advances disputed p q
  | reversed : p.paymentType = .INSTALLMENT → p.status = .SUCCESS → q.status = .REVERSED →
      Advances disputed p q
  | reconfirmed : p.paymentType = .INSTALLMENT → p.status = .REVERSED → q.status = .SUCCESS →
      Advances disputed p q
  | disputed : disputed → p.paymentType = .FIRST_PAYMENT → p.paystackReference ≠ none →
      p.status = .SUCCESS → q.status = .FAILED → Advances disputed p q

/-- The jobs that confirm a payment by hand. -/
def Job.Confirms : Job → Prop
  | confirmPayment .. | settleFirstPayment .. | confirmFirstPayment .. => True
  | _ => False

/-- The jobs that reject a payment by hand. -/
def Job.Rejects : Job → Prop
  | rejectPayment .. | rejectFirstPayment .. => True
  | _ => False

instance (j : Job) : Decidable j.Confirms := by
  cases j <;> unfold Job.Confirms <;> infer_instance

instance (j : Job) : Decidable j.Rejects := by
  cases j <;> unfold Job.Rejects <;> infer_instance

/-- The job does not confirm a FAILED payment nor reject a REVERSED one in its step from
    `s` to `t`. -/
def Job.Respects (j : Job) (s t : Db) : Prop :=
  ∀ k p, s.payments.lookup k = some p → t.payments.lookup k ≠ some p →
    (j.Confirms → p.status ≠ .FAILED) ∧ (j.Rejects → p.status ≠ .REVERSED)

instance (j : Job) (s t : Db) : Decidable (j.Respects s t) :=
  decidable_of_iff (∀ r ∈ s.payments.rows, t.payments.lookup r.1 ≠ some r.2 →
    (j.Confirms → r.2.status ≠ .FAILED) ∧ (j.Rejects → r.2.status ≠ .REVERSED)) <| by
    constructor
    · intro h k p hp
      exact h (k, p) (Table.mem_rows.mpr hp)
    · intro h r hr
      exact h r.1 r.2 (Table.mem_rows.mp hr)

variable {E : Db → Db → Prop} {s t : Db} {kind : Kind} {entry : Entry} {locks : List Lock}

/-- Only installments are reversed. -/
def OnlyInstallmentsReversed (s : Db) : Prop :=
  s.payments.Forall fun _ p => p.status = .REVERSED → p.paymentType = .INSTALLMENT

theorem Posting.onlyInstallmentsReversed (h : Posting E s kind entry)
    (hm : entry.Made s t locks) (hs : OnlyInstallmentsReversed s) :
    OnlyInstallmentsReversed t := by
  intro k q hq hreversed
  rcases hm.payment_cases hq with hput | ⟨hold, -⟩
  · cases h with
    | reverse hp htype =>
      obtain ⟨rfl, rfl⟩ := Prod.mk.inj (Option.some.inj hput)
      exact htype
    | submit _ _ htype =>
      obtain ⟨rfl, rfl⟩ := Prod.mk.inj (Option.some.inj hput)
      exact htype
    | openPlan _ ho | reopenPlan _ _ ho =>
      obtain ⟨rfl, rfl⟩ := Prod.mk.inj (Option.some.inj hput)
      rw [ho.status] at hreversed
      cases hreversed
    | amend hp | releaseKey hp | storeAccessCode hp =>
      obtain ⟨rfl, rfl⟩ := Prod.mk.inj (Option.some.inj hput)
      have hold := hs _ _ hp
      exact hold hreversed
    | confirm | reject | close | credit | dispute | migrate =>
      obtain ⟨rfl, rfl⟩ := Prod.mk.inj (Option.some.inj hput)
      cases hreversed
    | markDefaulted | sweepDefaulted | aside => cases hput
  · exact hs k q hold hreversed

/-- A payment that is not confirmed is PENDING, FAILED or REVERSED. -/
theorem Coherent.unconfirmed (hs : Coherent s) {k : Id} {p : Payment}
    (hp : s.payments.lookup k = some p) (h : p.isConfirmed = false) : p.status ≠ .SUCCESS := by
  intro hstatus
  rw [(hs.payments k p hp).confirmed.mpr hstatus] at h
  cases h

/-- Who posts a confirmation by hand. -/
theorem Job.confirms_of_may {j : Job} (h : (∃ paymentId, j.May (.confirm paymentId)) ∨
    j.May (.credit .FIRST_PAYMENT_SETTLED) ∨ j.May (.credit .FIRST_PAYMENT_CONFIRMED)) :
    j.Confirms := by
  cases j <;> simp [May, Kind.Charges, Confirms] at h ⊢

/-- Who posts a rejection by hand. -/
theorem Job.rejects_of_may {j : Job} {paymentId schoolId : Id}
    (h : j.May (.reject paymentId schoolId) ∨ j.May (.rejectFirst paymentId)) : j.Rejects := by
  cases j <;> simp [May, Kind.Charges, Rejects] at h ⊢

/-- What a posting does to the status of the payment it puts. -/
theorem Posting.advances (hs : Coherent s) (honly : OnlyInstallmentsReversed s)
    (h : Posting E s kind entry) {j : Job} (hmay : j.May kind) {k : Id} {p q : Payment}
    (hk : entry.payment = some (k, q)) (hp : s.payments.lookup k = some p)
    (hrespects : (j.Confirms → p.status ≠ .FAILED) ∧ (j.Rejects → p.status ≠ .REVERSED)) :
    Payment.Advances j.Disputes p q := by
  cases h with
  | confirm hp' htype hunconfirmed =>
    obtain ⟨rfl, rfl⟩ := Prod.mk.inj (Option.some.inj hk)
    obtain rfl := Option.some.inj (hp.symm.trans hp')
    have hfailed := hrespects.1 (Job.confirms_of_may (Or.inl ⟨_, hmay⟩))
    have hunpaid := hs.unconfirmed hp hunconfirmed
    cases hstatus : p.status with
    | PENDING => exact .settled hstatus rfl
    | REVERSED => exact .reconfirmed htype hstatus rfl
    | SUCCESS => exact absurd hstatus hunpaid
    | FAILED => exact absurd hstatus hfailed
  | reverse hp' htype _ hstatus =>
    obtain ⟨rfl, rfl⟩ := Prod.mk.inj (Option.some.inj hk)
    obtain rfl := Option.some.inj (hp.symm.trans hp')
    exact .reversed htype hstatus rfl
  | reject hp' _ _ hunconfirmed =>
    obtain ⟨rfl, rfl⟩ := Prod.mk.inj (Option.some.inj hk)
    obtain rfl := Option.some.inj (hp.symm.trans hp')
    have hreversed := hrespects.2 (Job.rejects_of_may (Or.inl hmay))
    have hunpaid := hs.unconfirmed hp hunconfirmed
    cases hstatus : p.status with
    | PENDING => exact .failed hstatus rfl
    | FAILED => exact .stays hstatus.symm
    | SUCCESS => exact absurd hstatus hunpaid
    | REVERSED => exact absurd hstatus hreversed
  | close hp' _ htype hunconfirmed =>
    obtain ⟨rfl, rfl⟩ := Prod.mk.inj (Option.some.inj hk)
    obtain rfl := Option.some.inj (hp.symm.trans hp')
    have hunpaid := hs.unconfirmed hp hunconfirmed
    cases hstatus : p.status with
    | PENDING => exact .failed hstatus rfl
    | FAILED => exact .stays hstatus.symm
    | SUCCESS => exact absurd hstatus hunpaid
    | REVERSED =>
      have hinstallment := honly _ _ hp hstatus
      rw [htype] at hinstallment
      cases hinstallment
  | credit haction hp' htype hunconfirmed hpaid =>
    obtain ⟨rfl, rfl⟩ := Prod.mk.inj (Option.some.inj hk)
    obtain rfl := Option.some.inj (hp.symm.trans hp')
    have hunpaid := hs.unconfirmed hp hunconfirmed
    cases hstatus : p.status with
    | PENDING => exact .settled hstatus rfl
    | SUCCESS => exact absurd hstatus hunpaid
    | REVERSED =>
      have hinstallment := honly _ _ hp hstatus
      rw [htype] at hinstallment
      cases hinstallment
    | FAILED =>
      rcases haction with rfl | rfl | rfl
      · exact absurd hstatus (hrespects.1 (Job.confirms_of_may (Or.inr (Or.inl hmay))))
      · exact absurd hstatus (hrespects.1 (Job.confirms_of_may (Or.inr (Or.inr hmay))))
      · rw [hpaid rfl] at hstatus
        cases hstatus
  | dispute hp' href htype hstatus =>
    obtain ⟨rfl, rfl⟩ := Prod.mk.inj (Option.some.inj hk)
    obtain rfl := Option.some.inj (hp.symm.trans hp')
    refine .disputed (Job.may_dispute hmay) htype ?_ hstatus rfl
    rw [href]
    exact Option.some_ne_none _
  | amend hp' | releaseKey hp' | storeAccessCode hp' =>
    obtain ⟨rfl, rfl⟩ := Prod.mk.inj (Option.some.inj hk)
    obtain rfl := Option.some.inj (hp.symm.trans hp')
    exact .stays rfl
  | openPlan _ ho | reopenPlan _ _ ho =>
    obtain ⟨rfl, rfl⟩ := Prod.mk.inj (Option.some.inj hk)
    rw [ho.fresh] at hp
    cases hp
  | submit hfresh | migrate hfresh =>
    obtain ⟨rfl, rfl⟩ := Prod.mk.inj (Option.some.inj hk)
    rw [hfresh] at hp
    cases hp
  | markDefaulted | sweepDefaulted | aside => cases hk

/-- The process that moves respects FAILED and REVERSED payments. -/
def Respectful (t : Service) (e : Event Job Answer) (t' : Service) : Prop :=
  ∀ x ∈ t.mover? e, x.job.Respects t.store t'.store

instance (t : Service) (e : Event Job Answer) (t' : Service) : Decidable (Respectful t e t') :=
  inferInstanceAs (Decidable (∀ x ∈ t.mover? e, _))

/-- The process that moves handles a dispute. -/
def DisputeMoves (t : Service) (e : Event Job Answer) : Prop := ∃ x ∈ t.mover? e, x.job.Disputes

variable {t t' : Service} {guard : Service → Event Job Answer → Service → Prop}

theorem reach_onlyInstallmentsReversed (ht : Sys.Reach store Job.program guard Opening t) :
    OnlyInstallmentsReversed t.store := by
  refine reach_invariant (I := OnlyInstallmentsReversed) Moves.any (fun _ _ _ _ _ _ => trivial)
    (fun s hs => hs.coherent) ?_ ?_ ht
  · intro s hs k p hp
    rw [hs.payments, AList.lookup_empty] at hp
    cases hp
  · rintro t t' pid ch p kind ws - - - - - hinv ⟨entry, hposting, hmade⟩ -
    exact hposting.onlyInstallmentsReversed hmade hinv

/-- Interleave the jobs in any way: as long as no FAILED payment is confirmed by hand and no
    REVERSED one rejected, every step moves every payment along its life cycle. -/
theorem payment_lifecycle (ht : Sys.Reach store Job.program Respectful Opening t)
    {e : Event Job Answer} (hstep : t.step store Job.program e = some t')
    (hrespectful : Respectful t e t') {k : Id} {p q : Payment}
    (hp : t.store.payments.lookup k = some p) (hq : t'.store.payments.lookup k = some q) :
    Payment.Advances (DisputeMoves t e) p q := by
  have hstart : ∀ s, Opening s → Coherent s := fun s hs => hs.coherent
  have hcoh := reach_coherent hstart ht
  rcases reach_committed Moves.any (fun _ _ _ _ _ _ => trivial) hstart ht hstep hrespectful with
    hsame | ⟨pid, ch, x, kind, ws, rfl, hx, hmay, -, ⟨entry, hposting, hmade⟩, hstore⟩
  · rw [hsame] at hq
    obtain rfl := Option.some.inj (hp.symm.trans hq)
    exact .stays rfl
  · rw [hstore] at hq
    rcases hmade.payment_cases hq with hput | ⟨hold, -⟩
    · by_cases hpq : q = p
      · subst hpq
        exact .stays rfl
      · have hchanged : t'.store.payments.lookup k ≠ some p := by
          rw [hstore, hq]
          exact fun h => hpq (Option.some.inj h)
        have hmoves := hposting.advances hcoh (reach_onlyInstallmentsReversed ht) hmay hput hp
          (hrespectful x hx k p hp hchanged)
        cases hmoves with
        | stays h => exact .stays h
        | settled h h' => exact .settled h h'
        | failed h h' => exact .failed h h'
        | reversed h h' h'' => exact .reversed h h' h''
        | reconfirmed h h' h'' => exact .reconfirmed h h' h''
        | disputed hd h₁ h₂ h₃ h₄ => exact .disputed ⟨x, hx, hd⟩ h₁ h₂ h₃ h₄
    · obtain rfl := Option.some.inj (hp.symm.trans hold)
      exact .stays rfl

/-- A receipt `x4` that the school has rejected. -/
def rejectedReceipt : List (Event Job Answer) :=
  uninterrupted 0 (.enrollChild (enrollment none) "parent") "a" 18 ++
  uninterrupted 1 (.settleFirstPayment "a8" admin) "b" 12 ++
  uninterrupted 2 (.submitInstallmentPayment "a6" 75000 parentUser none none) "x" 10 ++
  uninterrupted 3 (.rejectPayment "x4" "school" owner) "c" 8

theorem payment_lifecycle_rejectedReceipt : ∃ t t' p q,
    Sys.exec store Job.program (fun t e t' => decide (Respectful t e t'))
      (rejectedReceipt ++ uninterrupted 4
        (.submitInstallmentPayment "a6" 75000 parentUser none none) "y" 9) (.init oneFamily) =
      some t ∧
    t.step store Job.program (.move 4 (smoothly "y" 9)) = some t' ∧
    t.store.payments.lookup "x4" = some p ∧ t'.store.payments.lookup "x4" = some q ∧
    Payment.Advances (DisputeMoves t (.move 4 (smoothly "y" 9))) p q := by
  have hruns : ((Sys.exec store Job.program (fun t e t' => decide (Respectful t e t'))
      (rejectedReceipt ++ uninterrupted 4
        (.submitInstallmentPayment "a6" 75000 parentUser none none) "y" 9) (.init oneFamily)).any
      fun t => (t.step store Job.program (.move 4 (smoothly "y" 9))).any fun t' =>
        decide (Respectful t (.move 4 (smoothly "y" 9)) t') &&
          (t.store.payments.lookup "x4").isSome && (t'.store.payments.lookup "x4").isSome) =
      true := by
    decide +kernel
  obtain ⟨t, ht, hany⟩ := (Option.any_eq_true _ _).mp hruns
  obtain ⟨t', ht', hcond⟩ := (Option.any_eq_true _ _).mp hany
  simp only [Bool.and_eq_true, decide_eq_true_eq, Option.isSome_iff_exists] at hcond
  obtain ⟨⟨hrespectful, p, hp⟩, q, hq⟩ := hcond
  refine ⟨t, t', p, q, ht, ht', hp, hq, payment_lifecycle (Sys.reach_of_exec
    (fun _ _ _ h => of_decide_eq_true h) (.init oneFamily_opening) ht) ht' hrespectful hp hq⟩

/-- The school confirms the receipt it has rejected: without the condition a FAILED payment
    is confirmed. -/
theorem payment_lifecycle_needs_condition :
    ¬ ∀ (t : Service) e t', Sys.Reach store Job.program (fun _ _ _ => True) Opening t →
      t.step store Job.program e = some t' → ∀ k p q, t.store.payments.lookup k = some p →
        t'.store.payments.lookup k = some q → Payment.Advances (DisputeMoves t e) p q := by
  intro hlaw
  have hruns : ((Sys.exec store Job.program (fun _ _ _ => true)
      (rejectedReceipt ++ uninterrupted 4 (.confirmPayment "x4" "school" owner) "e" 10)
      (.init oneFamily)).any fun t =>
        (t.step store Job.program (.move 4 (smoothly "e" 10))).any fun t' =>
          (t.store.payments.lookup "x4").any fun p => (t'.store.payments.lookup "x4").any fun q =>
            p.status = .FAILED ∧ q.status = .SUCCESS) = true := by
    decide +kernel
  obtain ⟨t, ht, hany⟩ := (Option.any_eq_true _ _).mp hruns
  obtain ⟨t', ht', hany⟩ := (Option.any_eq_true _ _).mp hany
  obtain ⟨p, hp, hany⟩ := (Option.any_eq_true _ _).mp hany
  obtain ⟨q, hq, hcond⟩ := (Option.any_eq_true _ _).mp hany
  obtain ⟨hfailed, hsuccess⟩ := of_decide_eq_true hcond
  have hreach := Sys.reach_of_exec (fun _ _ _ _ => trivial) (.init oneFamily_opening) ht
  cases hlaw t _ t' hreach ht' "x4" p q hp hq with
  | stays h => rw [hfailed, hsuccess] at h; cases h
  | settled h | failed h | reversed _ h | reconfirmed _ h | disputed _ _ _ h =>
    rw [hfailed] at h
    cases h

end Lopay
