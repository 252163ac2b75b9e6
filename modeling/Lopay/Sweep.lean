import Lopay.Books.Alone
import Lopay.Books.Cards
import Lopay.Enrollment.Webhook

/-!
# What a sweep gets done

A sweep that nothing disturbs closes a charge past the abandonment age exactly if it retrieves
one that Paystack knows. A reference that Paystack does not know makes `verifyTransaction`
throw: the sweep logs that and leaves the row as it is, so the row is retrieved again by every
later sweep.
-/

namespace Lopay

open Transactions

namespace PaystackReconciliation

/-- A card payment that is open past the abandonment age. -/
def isOverdue (now : Int) (p : Payment) : Bool :=
  p.paystackReference.isSome ∧ p.status = .PENDING ∧ ABANDON_AGE_MS < now - p.paymentDate

/-- A card payment that is open. -/
def isOpen (p : Payment) : Bool := p.paystackReference.isSome ∧ p.status = .PENDING

/-- How many payments satisfy a condition. -/
def countOf (f : Payment → Bool) (db : Db) : Int :=
  Table.total (fun _ p => if f p then 1 else 0) db.payments

/-- What the clock shows when the sweep begins. -/
def clock (ch : Nat → Choice Answer) : Int := (ch 0).answer .now

/-- The charges that the sweep retrieves, in the order of the database. -/
def retrieved (ch : Nat → Choice Answer) (db : Db) : List (String × Int) :=
  let found := stalePayments (clock ch) db
  (arrange found ((ch 2).answer (.rowOrder found.length))).take 100

/-- The database after a sweep that runs by itself. -/
def swept (ch : Nat → Choice Answer) (db : Db) : Db :=
  (runSweep.run.alone store ch (.init db)).2.now

/-- An answer about a reference that is true of what Paystack `knows`. -/
def Truthful (knows : String → Prop) : (c : Call) → Answer c → Prop
  | .verifyTransaction reference, .ok _ => knows reference
  | .verifyTransaction reference, .error e => ¬ knows reference ∧ e.isUnknownReference = true
  | _, _ => True

/-- Every statement goes through, and Paystack tells the truth. -/
structure Undisturbed (knows : String → Prop) (ch : Nat → Choice Answer) : Prop where
  goesThrough : ∀ n, (ch n).fault = false
  truthful : ∀ n c, Truthful knows c ((ch n).answer c)

/-- A charge is retrieved that is past the abandonment age and that Paystack knows. -/
def Reaches (knows : String → Prop) (ch : Nat → Choice Answer) (db : Db) : Prop :=
  ∃ charge ∈ retrieved ch db, ABANDON_AGE_MS < clock ch - charge.2 ∧ knows charge.1

/-! ### Counts -/

variable {f : Payment → Bool} {s t t' : Db} {k : Id} {p q : Payment}

theorem countOf_nonneg : 0 ≤ countOf f s := by
  apply Table.total_nonneg
  intro k p hp
  split <;> simp

theorem countOf_pos : 0 < countOf f s ↔ ∃ k p, s.payments.lookup k = some p ∧ f p = true := by
  constructor
  · intro h
    by_contra hnone
    push Not at hnone
    have hzero : countOf f s = Table.total (fun _ _ => 0) s.payments := by
      apply Table.total_congr
      intro k p hp
      rw [if_neg (hnone k p hp)]
    rw [hzero, Table.total] at h
    simp at h
  · rintro ⟨k, p, hp, hf⟩
    have hle := Table.le_total (f := fun _ p => if f p then (1 : Int) else 0)
      (fun k p _ => by split <;> simp) hp
    rw [if_pos hf] at hle
    exact lt_of_lt_of_le Int.one_pos hle

/-- The open payment `k` has been closed, and the others are as they were. -/
structure Closes (t : Db) (k : Id) (t' : Db) : Prop where
  closed : ∃ q, q.status ≠ .PENDING ∧ t'.payments = t.payments.insert k q
  stable : Stable t t'

/-- A count of open payments goes down by the one that is closed. -/
theorem Closes.countOf (h : Closes t k t') (hp : t.payments.lookup k = some p)
    (hf : ∀ q, f q = true → isOpen q = true) :
    countOf f t' = countOf f t - if f p then 1 else 0 := by
  obtain ⟨q, hq, hpayments⟩ := h.closed
  have hnot : ¬ f q = true := by
    intro h
    have hopen := hf q h
    simp only [isOpen, decide_eq_true_eq] at hopen
    exact hq hopen.2
  rw [PaystackReconciliation.countOf, hpayments, Table.total_insert_old _ q hp, if_neg hnot]
  simp [PaystackReconciliation.countOf]

/-- What a sweep that began on `s` has come to: no payment is new, and one that is open is as
    it was. -/
structure Worked (s t : Db) : Prop where
  stable : Stable s t
  old : ∀ k q, t.payments.lookup k = some q → ∃ p, s.payments.lookup k = some p ∧
    (q.status = .PENDING → q = p)

namespace Worked

theorem refl (s : Db) : Worked s s := ⟨.refl s, fun _ q hq => ⟨q, hq, fun _ => rfl⟩⟩

theorem closes (h : Worked s t) (hp : t.payments.lookup k = some p) (hc : Closes t k t') :
    Worked s t' where
  stable := h.stable.trans hc.stable
  old := by
    intro k' q' hq'
    obtain ⟨q, hq, hpayments⟩ := hc.closed
    rw [hpayments] at hq'
    rcases Table.lookup_insert_some hq' with ⟨rfl, rfl⟩ | ⟨-, hold⟩
    · obtain ⟨p', hp', -⟩ := h.old _ p hp
      exact ⟨p', hp', fun hpending => absurd hpending hq⟩
    · exact h.old k' q' hold

/-- A reference still leads to its payment. -/
theorem paymentByReference? (hs : Coherent s) (h : Worked s t) {reference : String}
    (hq : t.payments.lookup k = some q) (href : q.paystackReference = some reference) :
    ∃ payment, t.paymentByReference? reference = some payment ∧ payment.id = k ∧
      payment.row = q := by
  have hsame : ∀ k' q', t.payments.lookup k' = some q' →
      ∃ p', s.payments.lookup k' = some p' ∧ p'.Continues q' := by
    intro k' q' hq'
    obtain ⟨p', hp', -⟩ := h.old k' q' hq'
    exact ⟨p', hp', h.stable.payment hp' hq'⟩
  obtain ⟨p, hp, hc⟩ := hsame k q hq
  obtain ⟨e, he, -⟩ := hs.planOf hp
  obtain ⟨plan, hplan⟩ := hs.plan?_isSome he
  obtain ⟨row, hrow, -⟩ := h.stable.plan? hplan
  let payment : PaymentOfPlan := { id := k, row := q, plan := { plan with row } }
  have hpayment : t.payment? payment.id = some payment := by
    rw [← hc.enrollmentId] at hrow
    simp only [payment, Db.payment?, hq, hrow, Option.bind_eq_bind, Option.bind_some]
  refine ⟨payment, Db.paymentByReference?_of (fun k' q' hq' href' => ?_) hpayment href, rfl, rfl⟩
  obtain ⟨p', hp', hc'⟩ := hsame k' q' hq'
  rw [hc'.paystackReference] at href'
  rw [hc.paystackReference] at href
  exact hs.one_reference k' k p' p reference hp' hp href' href

end Worked

/-! ### Closing one charge -/

namespace Closes

theorem put (hp : t.payments.lookup k = some p) (hpq : p.Continues q) (hq : q.status ≠ .PENDING) :
    Closes t k (store.apply (.putPayment k q) t) :=
  ⟨⟨q, hq, rfl⟩, .putPayment hp hpq⟩

theorem putEnrollment (h : Closes t k t') {eid : Id} {e e' : ChildEnrollment}
    (he : t'.enrollments.lookup eid = some e) (hee : e.Continues e') :
    Closes t k (store.apply (.putEnrollment eid e') t') :=
  ⟨h.closed, h.stable.trans (.putEnrollment he hee)⟩

theorem audit (h : Closes t k t') (entry : AuditEntry) :
    Closes t k (store.apply (.audit entry) t') :=
  ⟨h.closed, { h.stable with }⟩

end Closes

section Close

variable {x : Context} {reference : String} {payment : PaymentOfPlan}

theorem failPaystackPayment_closes (hx : x.On store t none)
    (hfound : t.paymentByReference? reference = some payment)
    (hpending : payment.row.status = .PENDING) :
    (Ledger.failPaystackPayment reference).smooth store
      (fun _ y => ∃ t', y.On store t' none ∧ Closes t payment.id t')
      (fun _ y => ∃ t', y.On store t' none ∧ Closes t payment.id t') x := by
  obtain ⟨hrow, -, -, hplan⟩ := Db.paymentByReference?_eq_some hfound
  have hread : (t.paymentByReference? reference).filter
      (fun p => decide (p.row.status = .PENDING)) = some payment := by
    rw [hfound, Option.filter_some, if_pos (decide_eq_true hpending)]
  unfold Ledger.failPaystackPayment
  refine Routine.wp_bind (Routine.smooth_query hx fun y hy => ?_)
  simp only [Option.getD_none, hread]
  refine Routine.wp_bind (Routine.smooth_transaction hy fun z hz => ?_)
  refine Routine.wp_bind (updatePayments_smooth hz hrow (decide_eq_true hpending) fun u hu => ?_)
  refine Routine.wp_bind (updateEnrollment_smooth hu hplan fun w hw => ?_)
  obtain ⟨t', hw, hclosed⟩ : ∃ t', w.On store t (some t') ∧ Closes t payment.id t' := by
    refine ⟨_, hw, Closes.putEnrollment ?_ hplan ⟨rfl, rfl, rfl⟩⟩
    exact Closes.put hrow ⟨rfl, rfl, rfl, rfl, rfl, fun _ => ⟨rfl, rfl⟩, id⟩ (by simp)
  refine Routine.wp_pure ⟨_, hw, fun v hv => ?_⟩
  refine Routine.wp_ite (fun h => absurd h (by decide)) fun _ => ?_
  refine Routine.wp_bind (Routine.wp_onlyIf (fun _ => ?_) fun _ => ?_)
  · refine createNotification_smooth hv (fun y hy => ?_) fun _ y hy => ⟨_, hy, hclosed⟩
    exact Routine.wp_bind (emitChanges_smooth hy fun y hy => ⟨_, hy, hclosed⟩)
  · exact Routine.wp_bind (emitChanges_smooth hv fun y hy => ⟨_, hy, hclosed⟩)

theorem reconcilePaystackPayment_closes (hx : x.On store t none)
    (hfound : t.paymentByReference? reference = some payment)
    (hpending : payment.row.status = .PENDING) {fee : Option Int} {actor : Option AuditActor} :
    (Ledger.reconcilePaystackPayment reference fee actor).smooth store
      (fun _ y => ∃ t', y.On store t' none ∧ Closes t payment.id t')
      (fun _ y => ∃ t', y.On store t' none ∧ Closes t payment.id t') x := by
  obtain ⟨hrow, -, hid, hplan⟩ := Db.paymentByReference?_eq_some hfound
  rw [← hid] at hplan
  refine reconcilePaystackPayment_captures (Q := fun y => ∃ t', y.On store t' none ∧ _) hx hfound
    hpending fun now entry y hy => ⟨_, hy, Closes.audit ?_ entry⟩
  refine Closes.putEnrollment ?_ (AList.lookup_insert _) ⟨rfl, rfl, rfl⟩
  refine Closes.putEnrollment ?_ hplan ⟨rfl, rfl, rfl⟩
  exact Closes.put hrow ⟨rfl, rfl, rfl, rfl, rfl, fun _ => ⟨rfl, rfl⟩, id⟩ (by simp)

end Close

/-! ### One charge after the other -/

section Loop

variable {x : Context} {knows : String → Prop} {now : Int} {charge : String × Int}

/-- The charge has its open payment in the database. -/
def Charged (charge : String × Int) (k : Id) (p : Payment) (db : Db) : Prop :=
  db.payments.lookup k = some p ∧ p.paystackReference = some charge.1 ∧ p.status = .PENDING ∧
    p.paymentDate = charge.2

/-- The charge has been closed if Paystack knows it, and has to be if it is overdue too. -/
def Dealt (knows : String → Prop) (now : Int) (charge : String × Int) (k : Id) (t t' : Db) : Prop :=
  knows charge.1 ∧ Closes t k t' ∨ t' = t ∧ ¬ (ABANDON_AGE_MS < now - charge.2 ∧ knows charge.1)

theorem sweepPayment_heard (hs : Coherent s) (hworked : Worked s t) (hx : x.On store t none)
    (hp : Charged charge k p t) :
    (sweepPayment now charge).wp store (hearing (Truthful knows))
      (fun _ y => ∃ t', y.On store t' none ∧ Dealt knows now charge k t t') (fun _ _ => False) x := by
  obtain ⟨hrow, href, hpending, -⟩ := hp
  obtain ⟨payment, hfound, rfl, rfl⟩ := hworked.paymentByReference? hs hrow href
  unfold sweepPayment
  refine Routine.wp_bind (Routine.wp_ask fun y hd => ⟨trivial, fun result hresult => ?_⟩)
  obtain rfl := hd.eq_of_isolated
  have hy := hx.answered (.verifyTransaction charge.1) result
  cases result with
  | error e => exact Routine.wp_pure ⟨t, hy, .inr ⟨rfl, fun h => hresult.1 h.2⟩⟩
  | ok result =>
    have hknown : knows charge.1 := hresult
    -- What is thrown after the commit is caught.
    have hcaught : ∀ {m : Action Unit} {y : Context}, m.smooth store
        (fun _ y => ∃ t', y.On store t' none ∧ Closes t payment.id t')
        (fun _ y => ∃ t', y.On store t' none ∧ Closes t payment.id t') y →
        (tryCatch m fun _ => pure ()).wp store (hearing (Truthful knows))
          (fun _ y => ∃ t', y.On store t' none ∧ Dealt knows now charge payment.id t t')
          (fun _ _ => False) y := by
      intro m y h
      refine Routine.wp_tryCatch (Routine.wp_weaken (undisturbed_refines _) ?_ ?_ h)
      · rintro _ z ⟨t', hz, hclosed⟩
        exact ⟨t', hz, .inl ⟨hknown, hclosed⟩⟩
      · rintro _ z ⟨t', hz, hclosed⟩
        exact Routine.wp_pure ⟨t', hz, .inl ⟨hknown, hclosed⟩⟩
    have hfails := hcaught (m := do
        let _ ← Ledger.failPaystackPayment charge.1
        pure ()) (Routine.wp_bind (Routine.wp_mono (fun _ _ h => Routine.wp_pure h) (fun _ _ h => h)
          (failPaystackPayment_closes hy hfound hpending)))
    dsimp only
    split
    · exact hcaught (Routine.wp_bind (Routine.wp_mono (fun _ _ h => Routine.wp_pure h)
        (fun _ _ h => h) (reconcilePaystackPayment_closes hy hfound hpending)))
    · split
      · exact hfails
      · split
        · exact hfails
        · next hyoung =>
          exact Routine.wp_tryCatch (Routine.wp_pure ⟨t, hy, .inr ⟨rfl, fun h => hyoung h.1⟩⟩)

/-- What the charges of `l` have led to. -/
structure Progress (knows : String → Prop) (now : Int) (l : List (String × Int))
    (s t t' : Db) : Prop where
  worked : Worked s t'
  fewer : ∀ f : Payment → Bool, (∀ q, f q = true → isOpen q = true) → countOf f t' ≤ countOf f t
  overdue : countOf (isOverdue now) t' < countOf (isOverdue now) t ↔
    ∃ charge ∈ l, ABANDON_AGE_MS < now - charge.2 ∧ knows charge.1
  opened : (∃ charge ∈ l, ABANDON_AGE_MS < now - charge.2 ∧ knows charge.1) →
    countOf isOpen t' < countOf isOpen t

theorem isOpen_of_isOverdue {q : Payment} (h : isOverdue now q = true) : isOpen q = true := by
  simp only [isOverdue, decide_eq_true_eq] at h
  exact decide_eq_true ⟨h.1, h.2.1⟩

namespace Charged

theorem isOpen (hp : Charged charge k p t) : isOpen p = true :=
  decide_eq_true ⟨by rw [hp.2.1]; rfl, hp.2.2.1⟩

theorem isOverdue (hp : Charged charge k p t) :
    isOverdue now p = true ↔ ABANDON_AGE_MS < now - charge.2 := by
  obtain ⟨-, href, hpending, hdate⟩ := hp
  simp [PaystackReconciliation.isOverdue, href, hpending, hdate]

/-- Closing the charge of another reference does not concern this one. -/
theorem kept {charge' : String × Int} {k' : Id} {p' : Payment} (hp : Charged charge k p t)
    (hp' : Charged charge' k' p' t) (hne : charge.1 ≠ charge'.1) (hc : Closes t k t') :
    Charged charge' k' p' t' := by
  obtain ⟨hrow', href', hrest'⟩ := hp'
  obtain ⟨q, -, hpayments⟩ := hc.closed
  refine ⟨?_, href', hrest'⟩
  have hk : k' ≠ k := by
    rintro rfl
    obtain rfl := Option.some.inj (hp.1.symm.trans hrow')
    exact hne (Option.some.inj (hp.2.1.symm.trans href'))
  rw [hpayments, AList.lookup_insert_ne hk, hrow']

end Charged

theorem Dealt.progress (hworked : Worked s t) (hp : Charged charge k p t)
    (h : Dealt knows now charge k t t') : Progress knows now [charge] s t t' := by
  rcases h with ⟨hknown, hclosed⟩ | ⟨rfl, hnot⟩
  · have hcount : ∀ f : Payment → Bool, (∀ q, f q = true → isOpen q = true) →
        countOf f t' = countOf f t - if f p then 1 else 0 := fun f hf => hclosed.countOf hp.1 hf
    refine ⟨hworked.closes hp.1 hclosed, fun f hf => ?_, ?_, fun _ => ?_⟩
    · rw [hcount f hf]
      split <;> omega
    · rw [hcount (isOverdue now) fun _ => isOpen_of_isOverdue]
      simp only [hp.isOverdue, List.mem_singleton, exists_eq_left, hknown, and_true]
      split <;> omega
    · rw [hcount _ fun _ h => h, if_pos hp.isOpen]
      omega
  · refine ⟨hworked, fun _ _ => le_refl _, ?_, fun h => ?_⟩
    · simpa using hnot
    · exact absurd (by simpa using h) hnot

/-- The sweep goes through its charges, each of them with its open payment. -/
theorem sweepPayments_heard (hs : Coherent s) {l : List (String × Int)} (hworked : Worked s t)
    (hx : x.On store t none) (hl : ∀ charge ∈ l, ∃ k p, Charged charge k p t)
    (hnodup : (l.map Prod.fst).Nodup) :
    (l.mapM (sweepPayment now)).wp store (hearing (Truthful knows))
      (fun _ y => ∃ t', y.On store t' none ∧ Progress knows now l s t t') (fun _ _ => False) x := by
  induction l generalizing x t with
  | nil => exact Routine.wp_pure ⟨t, hx, hworked, fun _ _ => le_refl _, by simp, by simp⟩
  | cons charge l ih =>
    obtain ⟨k, p, hp⟩ := hl charge List.mem_cons_self
    obtain ⟨hfresh, hnodup⟩ := List.nodup_cons.mp hnodup
    rw [List.mapM_cons]
    refine Routine.wp_bind (Routine.wp_mono ?_ (fun _ _ h => h)
      (sweepPayment_heard hs hworked hx hp))
    rintro _ y ⟨t₁, hy, hdealt⟩
    have hfirst := hdealt.progress hworked hp
    have hrest : ∀ charge' ∈ l, ∃ k' p', Charged charge' k' p' t₁ := by
      intro charge' hmem
      obtain ⟨k', p', hp'⟩ := hl charge' (List.mem_cons_of_mem _ hmem)
      rcases hdealt with ⟨-, hclosed⟩ | ⟨rfl, -⟩
      · refine ⟨k', p', hp.kept hp' ?_ hclosed⟩
        intro heq
        exact hfresh (heq ▸ List.mem_map_of_mem hmem)
      · exact ⟨k', p', hp'⟩
    refine Routine.wp_bind (Routine.wp_mono ?_ (fun _ _ h => h) (ih hfirst.worked hy hrest hnodup))
    rintro _ z ⟨t₂, hz, hlast⟩
    refine Routine.wp_pure ⟨t₂, hz, hlast.worked, fun f hf => ?_, ?_, fun h => ?_⟩
    · exact (hlast.fewer f hf).trans (hfirst.fewer f hf)
    · have h₁ := hfirst.fewer (isOverdue now) fun _ => isOpen_of_isOverdue
      have h₂ := hlast.fewer (isOverdue now) fun _ => isOpen_of_isOverdue
      have hboth : countOf (isOverdue now) t₂ < countOf (isOverdue now) t ↔
          countOf (isOverdue now) t₁ < countOf (isOverdue now) t ∨
            countOf (isOverdue now) t₂ < countOf (isOverdue now) t₁ := by
        omega
      rw [hboth, hfirst.overdue, hlast.overdue]
      simp
    · have h₁ := hfirst.fewer isOpen fun _ h => h
      have h₂ := hlast.fewer isOpen fun _ h => h
      have hsome : countOf isOpen t₁ < countOf isOpen t ∨ countOf isOpen t₂ < countOf isOpen t₁ := by
        obtain ⟨charge', hmem, hdue⟩ := h
        rcases List.mem_cons.mp hmem with rfl | hmem
        · exact .inl (hfirst.opened ⟨_, List.mem_singleton_self _, hdue⟩)
        · exact .inr (hlast.opened ⟨charge', hmem, hdue⟩)
      omega

end Loop

/-! ### One sweep -/

theorem stale_eq_some {now : Int} {r : Id × Payment} {charge : String × Int}
    (h : (match r.2.paystackReference with
      | some reference =>
        if r.2.status = .PENDING ∧ r.2.paymentDate < now - MIN_AGE_MS then
          some (reference, r.2.paymentDate)
        else none
      | none => none) = some charge) :
    r.2.paystackReference = some charge.1 ∧ r.2.status = .PENDING ∧ r.2.paymentDate = charge.2 := by
  split at h
  · next reference href =>
    split at h
    · next hopen =>
      obtain rfl := Option.some.inj h
      exact ⟨href, hopen.1, rfl⟩
    · cases h
  · cases h

theorem mem_stalePayments {now : Int} {charge : String × Int} (h : charge ∈ stalePayments now s) :
    ∃ k p, Charged charge k p s := by
  obtain ⟨⟨k, p⟩, hmem, hstale⟩ := List.mem_filterMap.mp h
  exact ⟨k, p, Table.mem_rows.mp hmem, stale_eq_some hstale⟩

/-- No two stale payments have one reference. -/
theorem nodup_stalePayments (hs : Coherent s) (now : Int) :
    ((stalePayments now s).map Prod.fst).Nodup := by
  have hrows : s.payments.rows.Nodup := by
    refine List.Nodup.of_map Prod.fst ?_
    rw [Table.rows, List.map_map]
    exact s.payments.nodupKeys
  have hdistinct : s.payments.rows.Pairwise fun r r' =>
      ∀ reference, r.2.paystackReference = some reference →
        r'.2.paystackReference ≠ some reference := by
    refine hrows.imp_of_mem ?_
    rintro ⟨k, p⟩ ⟨k', p'⟩ hmem hmem' hne reference href href'
    rw [Table.mem_rows] at hmem hmem'
    obtain rfl := hs.one_reference k k' p p' reference hmem hmem' href href'
    exact hne (congrArg _ (Option.some.inj (hmem.symm.trans hmem')))
  rw [List.Nodup, List.pairwise_map]
  refine hdistinct.filterMap _ ?_
  intro r r' hne charge hcharge charge' hcharge' heq
  exact hne _ (stale_eq_some hcharge).1 (heq ▸ (stale_eq_some hcharge').1)

theorem retrieved_sublist (ch : Nat → Choice Answer) :
    ∃ l : List (String × Int), l.Perm (stalePayments (clock ch) s) ∧ (retrieved ch s).Sublist l :=
  ⟨_, arrange_perm _ _, List.take_sublist _ _⟩

/-- What a sweep by itself leads to. -/
theorem swept_progress (hs : Coherent s) {knows : String → Prop} {ch : Nat → Choice Answer}
    (hch : Undisturbed knows ch) :
    Progress knows (clock ch) (retrieved ch s) s s (swept ch s) := by
  obtain ⟨l, hperm, hsub⟩ := retrieved_sublist (s := s) ch
  have hcharged : ∀ charge ∈ retrieved ch s, ∃ k p, Charged charge k p s := fun charge hmem =>
    mem_stalePayments (hperm.subset (hsub.subset hmem))
  have hnodup : ((retrieved ch s).map Prod.fst).Nodup :=
    ((hperm.map _).nodup_iff.mpr (nodup_stalePayments hs _)).sublist (hsub.map _)
  have hwp : ∀ x : Context, x.On store s none →
      (do
        let _ ← (retrieved ch s).mapM (sweepPayment (clock ch))
        pure () : Action Unit).run.wp store (hearing (Truthful knows))
          (fun _ y => Progress knows (clock ch) (retrieved ch s) s s y.now) x := by
    intro x hx
    have hends : (do
        let _ ← (retrieved ch s).mapM (sweepPayment (clock ch))
        pure () : Action Unit).wp store (hearing (Truthful knows))
          (fun _ y => Progress knows (clock ch) (retrieved ch s) s s y.now) (fun _ _ => False) x := by
      refine Routine.wp_bind (Routine.wp_mono ?_ (fun _ _ h => h)
        (sweepPayments_heard hs (.refl s) hx hcharged hnodup))
      rintro _ y ⟨t', hy, h⟩
      refine Routine.wp_pure ?_
      rw [hy.now]
      exact h
    refine Prog.wp_mono ?_ hends
    rintro (e | a) y hy
    · exact hy.elim
    · exact hy
  -- The sweep reads the clock, the stale payments and their order, and then goes through them.
  rw [swept, runSweep, ask, Routine.alone_ask_bind, read, Routine.alone_query_bind
    (hch.goesThrough 1), ask, Routine.alone_ask_bind]
  refine Prog.alone_hearing (fun n => hch.goesThrough _) (fun n => hch.truthful _) (hwp _ ?_)
  apply Ctx.On.answered
  apply Ctx.On.wrote_nil
  apply Ctx.On.answered
  exact .init s

theorem swept_coherent (hs : Coherent s) (ch : Nat → Choice Answer) : Coherent (swept ch s) := by
  have hkept : Coherent (Job.runSweep.program.alone store ch (.init s)).2.now := by
    refine Job.alone_invariant (I := Coherent) hs hs ?_ ch
    rintro kind s entry locks t hs - hposting hmade -
    exact hposting.coherent (fun _ h => h ▸ .refl _) hs hmade
  have hsame : (Job.runSweep.program.alone store ch (.init s)).2 =
      (runSweep.run.alone store ch (.init s)).2 := Routine.alone_map _
  rw [swept, ← hsame]
  exact hkept

/-! ### One sweep after the other -/

/-- One of several sweeps: what Paystack knows by then, and what is answered. -/
structure Run where
  knows : String → Prop
  choices : Nat → Choice Answer

def sweeps (runs : List Run) (db : Db) : Db := runs.foldl (fun db run => swept run.choices db) db

/-- Every sweep reaches a charge that is overdue and known, if any is overdue. -/
def Served : List Run → Db → Prop
  | [], _ => True
  | run :: runs, db =>
    (0 < countOf (isOverdue (clock run.choices)) db → Reaches run.knows run.choices db) ∧
      Served runs (swept run.choices db)

/-- A payment that is overdue stays so. -/
theorem isOverdue_mono {now later : Int} (h : now ≤ later) (hp : isOverdue now p = true) :
    isOverdue later p = true := by
  simp only [isOverdue, decide_eq_true_eq] at hp ⊢
  obtain ⟨href, hpending, hage⟩ := hp
  exact ⟨href, hpending, by omega⟩

theorem countOf_le {g : Payment → Bool} (h : ∀ p, f p = true → g p = true) :
    countOf f s ≤ countOf g s := by
  apply Table.total_mono
  intro k p hp
  by_cases hf : f p = true
  · rw [if_pos hf, if_pos (h p hf)]
  · rw [if_neg hf]
    split <;> decide

theorem sweeps_leave_none {now : Int} {runs : List Run} (hs : Coherent s)
    (hruns : ∀ run ∈ runs, Undisturbed run.knows run.choices ∧ now ≤ clock run.choices)
    (hserved : Served runs s)
    (h : countOf (isOverdue now) s = 0 ∨ countOf isOpen s ≤ runs.length) :
    countOf (isOverdue now) (sweeps runs s) = 0 := by
  induction runs generalizing s with
  | nil =>
    rcases h with hzero | hnone
    · exact hzero
    · have hle : countOf (isOverdue now) s ≤ countOf isOpen s :=
        countOf_le fun _ => isOpen_of_isOverdue
      have hnonneg : 0 ≤ countOf (isOverdue now) s := countOf_nonneg
      simp only [List.length_nil, Nat.cast_zero] at hnone
      exact le_antisymm (hle.trans hnone) hnonneg
  | cons run runs ih =>
    obtain ⟨hreach, hserved⟩ := hserved
    obtain ⟨hundisturbed, hclock⟩ := hruns run List.mem_cons_self
    have hprogress := swept_progress hs hundisturbed
    have hrest := fun run hmem => hruns run (List.mem_cons_of_mem _ hmem)
    refine ih (s := swept run.choices s) (swept_coherent hs _) hrest hserved ?_
    have hfewer := hprogress.fewer (isOverdue now) fun _ => isOpen_of_isOverdue
    have hnonneg : 0 ≤ countOf (isOverdue now) (swept run.choices s) := countOf_nonneg
    by_cases hzero : countOf (isOverdue now) s = 0
    · exact .inl (by omega)
    · have hle : countOf (isOverdue now) s ≤ countOf (isOverdue (clock run.choices)) s :=
        countOf_le fun _ => isOverdue_mono hclock
      have hlost := hprogress.opened (hreach (by omega))
      rw [List.length_cons, Nat.cast_succ] at h
      exact .inr (by omega)

/-- A sweep that nothing disturbs has fewer overdue payments left than it found exactly if one
    that Paystack knows is among those it retrieves. When every sweep that finds an overdue
    payment retrieves such a one, as many sweeps as there are open payments leave none overdue. -/
theorem sweep_progress_iff (hs : Coherent s) :
    (∀ knows ch, Undisturbed knows ch →
      (countOf (isOverdue (clock ch)) (swept ch s) < countOf (isOverdue (clock ch)) s ↔
        Reaches knows ch s)) ∧
    ∀ runs now, (∀ run ∈ runs, Undisturbed run.knows run.choices ∧ now ≤ clock run.choices) →
      Served runs s → countOf isOpen s ≤ runs.length →
        countOf (isOverdue now) (sweeps runs s) = 0 := by
  constructor
  · intro knows ch hch
    exact (swept_progress hs hch).overdue
  · intro runs now hruns hserved hlength
    exact sweeps_leave_none hs hruns hserved (.inr hlength)

/-- Paystack cannot be reached to start the charge, and neither can the database then. -/
def unstarted (n : Nat) : Choice Answer :=
  { smoothly "a" n with
    fault := 14 < n
    answer := fun
      | .initializeTransaction _ => .error .unavailable
      | c => (smoothly "a" n).answer c }

/-- What is left of that: an open payment whose reference Paystack has never seen. -/
def neverCharged : Db :=
  ((Job.initiateFirstPayment environment (enrollment none) "parent").program.alone store
    unstarted (.init oneFamily)).2.now

/-- A sweep past the abandonment age, with this answer about every reference. -/
def lateSweep (verdict : Except PaystackError VerifyTransactionResult) (n : Nat) :
    Choice Answer :=
  { smoothly "b" n with
    answer := fun
      | .now => ABANDON_AGE_MS + 1
      | .verifyTransaction _ => verdict
      | c => (smoothly "b" n).answer c }

def unknownReference : PaystackError := .api 404 "Transaction reference not found"

theorem neverCharged_coherent : Coherent neverCharged := by
  have hstart := oneFamily_opening.coherent
  refine Job.alone_invariant (I := Coherent) hstart hstart ?_ unstarted
  rintro kind s entry locks t hs - hposting hmade -
  exact hposting.coherent (fun _ h => h ▸ .refl _) hs hmade

/-- Paystack knows the one charge, as abandoned by its payer. -/
theorem sweep_progress_abandoned :
    countOf (isOverdue (clock (lateSweep (.ok ⟨"abandoned", none⟩))))
        (swept (lateSweep (.ok ⟨"abandoned", none⟩)) neverCharged) <
      countOf (isOverdue (clock (lateSweep (.ok ⟨"abandoned", none⟩)))) neverCharged ∧
    countOf (isOverdue (ABANDON_AGE_MS + 1))
      (sweeps [⟨fun _ => True, lateSweep (.ok ⟨"abandoned", none⟩)⟩] neverCharged) = 0 := by
  have hundisturbed : Undisturbed (fun _ => True) (lateSweep (.ok ⟨"abandoned", none⟩)) := by
    refine ⟨fun _ => rfl, fun n c => ?_⟩
    cases c <;> exact trivial
  have hreaches : Reaches (fun _ => True) (lateSweep (.ok ⟨"abandoned", none⟩)) neverCharged :=
    ⟨("lopay_a7", 0), by decide +kernel, by decide, trivial⟩
  obtain ⟨hone, hmany⟩ := sweep_progress_iff neverCharged_coherent
  refine ⟨(hone _ _ hundisturbed).mpr hreaches, hmany _ _ ?_ ⟨fun _ => hreaches, trivial⟩
    (by decide +kernel)⟩
  intro run hrun
  obtain rfl := List.mem_singleton.mp hrun
  exact ⟨hundisturbed, le_refl _⟩

/-- Paystack does not know the one charge, and it is overdue after the sweep as before. -/
theorem sweep_progress_needs_known :
    ∃ s ch, Coherent s ∧ Undisturbed (fun _ => False) ch ∧ 0 < countOf (isOverdue (clock ch)) s ∧
      ¬ countOf (isOverdue (clock ch)) (swept ch s) < countOf (isOverdue (clock ch)) s := by
  refine ⟨neverCharged, lateSweep (.error unknownReference), neverCharged_coherent,
    ⟨fun _ => rfl, fun n c => ?_⟩, by decide +kernel, by decide +kernel⟩
  cases c <;> first | exact trivial | exact ⟨id, by decide +kernel⟩

end PaystackReconciliation

end Lopay
