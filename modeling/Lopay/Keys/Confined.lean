import Lopay.Keys.Aware
import Lopay.Tame.Ledger
import Lopay.Agreement

/-!
# A call with its key in hand is confined

`submitInstallmentPayment` and `initiateFirstPayment`, step by step: with the key in hand
they answer with a payment on the plan that the request names, and change no payment of
anybody else.
-/

namespace Lopay

open Transactions Enrollment

theorem Db.paymentByIdempotencyKey?_plan {db : Db} {key : String} {existing : PaymentOfPlan}
    (h : db.paymentByIdempotencyKey? key = some existing) :
    db.plan? existing.row.enrollmentId = some existing.plan := by
  simp only [Db.paymentByIdempotencyKey?, Db.payment?, Option.bind_eq_bind,
    Option.bind_eq_some_iff] at h
  obtain ⟨_, -, row, -, plan, hplan, heq⟩ := h
  obtain rfl := Option.some.inj heq
  exact hplan

/-! ### Parts that change one payment -/

/-- A statement that changes no payment but the one with this key. -/
def Touching (id : Id) (v : Db) (ws : List Write) : Prop :=
  ∀ k, k ≠ id → (store.applyAll ws v).payments.lookup k = v.payments.lookup k

instance (id : Id) : AdmitsUnpaid (Touching id) where
  unpaid := fun v ws h k _ => by rw [h.payments]

instance (id : Id) (filter : Payment → Bool) (data : Payment → Payment) :
    Routine.Keeps (Touching id) (updatePayments id filter data) := by
  apply Routine.Keeps.exec admits_nil
  intro v a ws hf k hk
  split at hf
  · split at hf
    · obtain ⟨-, rfl⟩ := Prod.mk.inj (Except.ok.inj hf)
      exact AList.lookup_insert_ne hk
    · obtain ⟨-, rfl⟩ := Prod.mk.inj (Except.ok.inj hf)
      rfl
  · obtain ⟨-, rfl⟩ := Prod.mk.inj (Except.ok.inj hf)
    rfl

/-- A statement that changes no payment but one that has been found under the reference. -/
def Referring (reference : String) (τ : Trace Db Write Answer) (v : Db) (ws : List Write) : Prop :=
  ∀ k, (store.applyAll ws v).payments.lookup k = v.payments.lookup k ∨
    ∃ s ∈ τ.read, ∃ p, s.payments.lookup k = some p ∧ p.paystackReference = some reference

theorem referring_nil (reference : String) (τ : Trace Db Write Answer) (v : Db) :
    Referring reference τ v [] := fun _ => Or.inl rfl

theorem Touching.referring {reference : String} {s : Db} {payment : PaymentOfPlan}
    (hfound : s.paymentByReference? reference = some payment) {τ : Trace Db Write Answer}
    (hs : s ∈ τ.read) {v : Db} {ws : List Write} (h : Touching payment.id v ws) :
    Referring reference τ v ws := by
  obtain ⟨hrow, hreference, -⟩ := Db.paymentByReference?_eq_some hfound
  intro k
  by_cases hk : k = payment.id
  · subst hk
    exact Or.inr ⟨s, hs, payment.row, hrow, hreference⟩
  · exact Or.inl (h k hk)

/-- A part that changes only the payment that has just been found. -/
theorem referring_rest {α : Type} {m : Action α} {reference : String} {τ : Trace Db Write Answer}
    (hτ : τ.inside = false) {v : Db} {payment : PaymentOfPlan}
    (hfound : v.paymentByReference? reference = some payment)
    (hm : Routine.Keeps (Touching payment.id) m) :
    m.obeys (Referring reference) (fun _ _ => True) (fun _ _ => True) (τ.ran v []) := by
  apply Routine.Keeps.lawful_since ?_ hm
  intro τ' u ws hwithin hlaw
  apply hlaw.referring hfound
  apply hwithin.read
  rw [Trace.ran_outside hτ]
  exact List.mem_cons_self

theorem failPaystackPayment_referring {reference : String} {τ : Trace Db Write Answer}
    (hτ : τ.inside = false) : (Ledger.failPaystackPayment reference).obeys (Referring reference)
      (fun _ _ => True) (fun _ _ => True) τ := by
  unfold Ledger.failPaystackPayment
  apply Routine.obeys_bind
  apply Routine.obeys_query (fun _ _ => referring_nil _ _ _) trivial
  intro v
  generalize hfound : Option.filter _ (v.paymentByReference? reference) = found
  cases found with
  | none => trivial
  | some payment =>
    apply referring_rest hτ (Option.filter_eq_some_iff.mp hfound).1
    infer_instance

theorem reconcilePaystackPayment_referring {reference : String} {fee : Option Int}
    {actor : Option AuditActor} {τ : Trace Db Write Answer} (hτ : τ.inside = false) :
    (Ledger.reconcilePaystackPayment reference fee actor).obeys (Referring reference)
      (fun _ _ => True) (fun _ _ => True) τ := by
  unfold Ledger.reconcilePaystackPayment
  apply Routine.obeys_bind
  apply Routine.obeys_query (fun _ _ => referring_nil _ _ _) trivial
  intro v
  generalize hfound : v.paymentByReference? reference = found
  cases found with
  | none => trivial
  | some payment =>
    apply referring_rest hτ hfound
    apply Routine.Keeps.otherwise
    apply Routine.Keeps.otherwise
    apply Routine.Keeps.andThen
    intro processed
    cases processed with
    | none => infer_instance
    | some credited => infer_instance

namespace KeyedCall

variable {call : KeyedCall} {c₀ c : Db} {x : Context}

theorem postingSession : Session (.plain call.besideCall posting) Stable (fun _ => Coherent) where
  refl := .refl
  trans := fun _ _ _ => .trans
  stable := fun _ _ h => h
  coherent := fun _ _ h => h
  rely := by
    rintro y ws ⟨⟨kind, hposts⟩, -⟩ hs
    obtain ⟨entry, hposting, hmade⟩ := id hposts
    exact ⟨hposting.stable hmade, ⟨kind, hposts⟩, hposts.coherent (fun _ h => h) hs⟩
  answers := fun _ _ _ _ _ h => h
  asks := fun _ _ _ _ => trivial

theorem postingOwes (kind : Kind) :
    Owes (.plain call.besideCall posting) Stable (fun _ => Coherent) kind :=
  fun _ _ hs hposts _ => ⟨⟨kind, hposts⟩, hposts.coherent (fun _ h => h) hs⟩

/-- A charge under this reference is on the plan that the request names. -/
def Charged (call : KeyedCall) (reference : String) (db : Db) : Prop :=
  ∃ k p, db.payments.lookup k = some p ∧ p.paystackReference = some reference ∧
    call.Names db p.enrollmentId

theorem Charged.stable {reference : String} {s t : Db} (hst : Stable s t)
    (h : call.Charged reference s) : call.Charged reference t := by
  obtain ⟨k, p, hp, hreference, hnamed⟩ := h
  obtain ⟨q, hq, hc⟩ := hst.payments k p hp
  refine ⟨k, q, hq, hc.paystackReference.trans hreference, ?_⟩
  rw [hc.enrollmentId]
  exact hnamed.stable hst

/-- What has been found under such a reference is that charge. -/
theorem Charged.names {reference : String} {t : Db} (ht : Coherent t)
    (h : call.Charged reference t) {k : Id} {p : Payment} (hp : t.payments.lookup k = some p)
    (hreference : p.paystackReference = some reference) : call.Names t p.enrollmentId := by
  obtain ⟨k', q, hq, hqreference, hnamed⟩ := h
  obtain rfl := ht.one_reference k k' p q reference hp hq hreference hqreference
  obtain rfl := Option.some.inj (hp.symm.trans hq)
  exact hnamed

/-- A part that changes no payment but the charge of the request. -/
theorem Aware.referring {α : Type} {m : Action α} {reference : String}
    (hx : Aware call c₀ c none x) (hcharged : call.Charged reference c)
    (hm : ∀ τ : Trace Db Write Answer, τ.inside = false →
      m.obeys (Referring reference) (fun _ _ => True) (fun _ _ => True) τ)
    (hrests : m.wp store (.plain call.besideCall posting) (fun _ => Rests (fun _ => Coherent) false)
      (fun _ => Rests (fun _ => Coherent) false) x) :
    m.wp store call.sparing
      (fun _ y => Aware call c₀ c none y ∧ ∀ s ∈ x.seen, s ∈ y.seen) (fun _ _ => True) x := by
  have hP : Leading (call.Later c₀) fun s t => call.Later s t ∧ call.Later c t :=
    ⟨fun _ _ _ h h' => ⟨h.1.trans h'.1, h'.2⟩, fun _ _ h h' => h.trans h'.1⟩
  have hleap : ∀ y : Context, ∀ t, call.Later c y.now → Leap call.Later y.now t →
      Leap (fun s t => call.Later s t ∧ call.Later c t) y.now t :=
    fun y t hy h => ⟨⟨h.1, hy.trans h.1⟩, h.2, hy.trans h.1⟩
  have htracks : Tracks store agree (Referring reference) ⟨x.log, [], false, []⟩ x :=
    .outside rfl (fun _ h => nomatch h) rfl rfl hx.begun
  have hlaw : m.wp store call.sparing
      (fun _ y => y.Seeing (call.Later c₀) fun s t => call.Later s t ∧ call.Later c t)
      (fun _ y => y.Seeing (call.Later c₀) fun s t => call.Later s t ∧ call.Later c t) x := by
    refine Prog.wp_mono ?_ (Prog.obeys_counting store_frame (fun _ ws _ _ h => agree_applyAll ws h)
      (Ctx.Seeing.steady hP ?_) ?_ (hm _ rfl) htracks ?_)
    · rintro (e | a) y hy <;> exact hy
    · intro y ws hR hy
      have hnow : call.Later c y.now := (hy.since List.mem_cons_self).2
      exact hleap y _ hnow (besideCall.leap hR hnow.coherent)
    · intro τ y done hreplays hread hy hpost
      have hnow : call.Later c y.now := (hy.since List.mem_cons_self).2
      have hminds : Stable y.now (store.applyAll (writesOf done) y.now) →
          Coherent (store.applyAll (writesOf done) y.now) →
          call.Minds y.now (store.applyAll (writesOf done) y.now) := by
        intro hstable hafter k p hp
        by_cases hfound : ∃ s ∈ y.seen, ∃ q, s.payments.lookup k = some q ∧
            q.paystackReference = some reference
        · -- The row that has been found is the charge of the request still.
          obtain ⟨s, hs, q, hq, hreference⟩ := hfound
          have hsince := (hy.since hs).1.stable.trans hstable
          have hlater := hcharged.stable (hnow.stable.trans hstable)
          refine Or.inr (Or.inl (hlater.names hafter hp ?_))
          exact (hsince.payment hq hp).paystackReference.trans hreference
        · refine Or.inl (Eq.trans ?_ hp)
          refine hreplays.law (T := fun r r' => r = r') paymentRows (fun _ => rfl)
            (fun _ _ _ h h' => h.trans h') ?_
          intro τ' v ws hwithin hlaw
          rcases hlaw k with hsame | ⟨s, hs, hq⟩
          · exact hsame.symm
          · exact absurd ⟨s, hread s (hwithin.read s hs), hq⟩ hfound
      obtain ⟨hspares, hstep⟩ := Minds.leap hpost hnow.coherent hminds
      exact ⟨hspares, hy.see hP fun _ => hleap y _ hnow hstep⟩
    · exact ⟨fun s hs => ⟨(hx.seeing.seen s hs).1, (hx.seeing.seen s hs).2, hx.since⟩⟩
  refine Prog.wp_mono ?_ (Prog.wp_seen (Routine.wp_with hrests hlaw))
  rintro (e | a) y ⟨hy, hkept⟩
  · trivial
  · obtain ⟨hrest, hseeing⟩ := hy
    refine ⟨⟨?_, (hseeing.since List.mem_cons_self).2, ?_⟩, hkept⟩
    · exact ⟨fun s hs => ⟨(hseeing.seen s hs).1, (hseeing.seen s hs).2.1⟩⟩
    · exact Option.isNone_iff_eq_none.mp (Option.isSome_eq_false_iff.mp hrest.1)

/-! ### The key -/

/-- A payment on the plan that the request names has been seen, with its plan. -/
def Replayed (call : KeyedCall) (existing : PaymentOfPlan) (y : Context) : Prop :=
  ∃ s ∈ y.seen, s.payments.lookup existing.id = some existing.row ∧
    s.plan? existing.row.enrollmentId = some existing.plan ∧
    call.Names s existing.row.enrollmentId ∧ call.Keyed existing.row

theorem Aware.replayIntent (hx : Aware call c₀ c none x) (hhand : call.KeyInHand c)
    {idempotencyKey : Option String} (hcall : given idempotencyKey = call.key?) :
    (Enrollment.replayIntent idempotencyKey).wp store call.sparing
      (fun o y => match o with
        | some existing => call.Replayed existing y
        | none => ∃ s, call.Clear s ∧ Aware call c₀ s none y)
      (fun _ _ => True) x := by
  unfold Enrollment.replayIntent
  rw [hcall]
  cases hkey : call.key? with
  | none =>
    refine Routine.wp_pure ⟨c, ?_, hx⟩
    intro key k p h
    rw [hkey] at h
    cases h
  | some key =>
    refine Routine.wp_bind (hx.read (fun _ _ _ => trivial) fun s y hs hy hseen => ?_)
    have hhere := hhand.later hs
    simp only [Option.getD_none, Store.applyAll_nil]
    cases hfound : s.paymentByIdempotencyKey? key with
    | none =>
      refine Routine.wp_pure ⟨s, ?_, hy⟩
      intro key' k p hkey' hp hpkey
      obtain rfl := Option.some.inj (hkey.symm.trans hkey')
      exact absurd hfound (hs.coherent.paymentByIdempotencyKey? hp hpkey)
    | some existing =>
      obtain ⟨hrow, hholds, -⟩ := Db.paymentByIdempotencyKey?_eq_some hfound
      obtain ⟨howns, hlive⟩ := hhere key _ _ hkey hrow hholds
      apply Routine.wp_ite
      · intro hreplay
        exact Routine.wp_pure ⟨s, hseen, hrow, Db.paymentByIdempotencyKey?_plan hfound,
          hlive hreplay, key, hkey, hholds⟩
      · intro _
        -- What comes under the key later, other than this payment, is on the plan.
        have hothers : ∀ t, call.Later s t → ∀ k p, t.payments.lookup k = some p →
            p.idempotencyKey = some key → call.Names t p.enrollmentId ∨
              (k = existing.id ∧ p.status = existing.row.status) := by
          intro t hst k p hp hpkey
          rcases hst.still key k p hkey hp hpkey with hnamed | ⟨q, hq, hqkey, hstatus⟩
          · exact Or.inl hnamed
          · obtain rfl := hs.coherent.one_key k existing.id q existing.row key hq hrow hqkey hholds
            obtain rfl := Option.some.inj (hrow.symm.trans hq)
            exact Or.inr ⟨rfl, hstatus.symm⟩
        refine Routine.wp_bind (hy.outside (fun _ _ _ => trivial) fun t a ws hst hf => ?_)
        cases hp : t.payments.lookup existing.id with
        | none =>
          simp only [hp, Except.ok.injEq, Prod.mk.injEq] at hf
          obtain ⟨-, rfl⟩ := hf
          refine ⟨fun _ _ k p h => Or.inl h, fun z _ hz _ => Routine.wp_pure ⟨t, ?_, hz⟩⟩
          intro key' k p hkey' hk hpkey
          obtain rfl := Option.some.inj (hkey.symm.trans hkey')
          rcases hothers t hst k p hk hpkey with hnamed | ⟨rfl, -⟩
          · exact hnamed
          · rw [hp] at hk
            cases hk
        | some q =>
          simp only [hp] at hf
          have hsame : q.enrollmentId = existing.row.enrollmentId :=
            (hst.stable.payment hrow hp).enrollmentId
          by_cases hguard : q.status = existing.row.status
          · simp only [hguard, decide_true, if_true, Except.ok.injEq, Prod.mk.injEq] at hf
            obtain ⟨-, rfl⟩ := hf
            refine ⟨fun hstable _ k p h => ?_, fun z hlater hz _ => Routine.wp_pure ⟨_, ?_, hz⟩⟩
            · rcases Table.lookup_insert_some h with ⟨rfl, rfl⟩ | ⟨-, hold⟩
              · refine Or.inr (Or.inr ⟨?_, rfl⟩)
                rw [← hsame] at howns
                exact howns.stable (hst.stable.trans hstable)
              · exact Or.inl hold
            · intro key' k p hkey' hk hpkey
              obtain rfl := Option.some.inj (hkey.symm.trans hkey')
              rcases Table.lookup_insert_some hk with ⟨rfl, rfl⟩ | ⟨hne, hold⟩
              · cases hpkey
              · rcases hothers t hst k p hold hpkey with hnamed | ⟨rfl, -⟩
                · exact hnamed.stable hlater.stable
                · exact absurd rfl hne
          · simp only [hguard, decide_false, Bool.false_eq_true, if_false, Except.ok.injEq,
              Prod.mk.injEq] at hf
            obtain ⟨-, rfl⟩ := hf
            refine ⟨fun _ _ k p h => Or.inl h, fun z _ hz _ => Routine.wp_pure ⟨t, ?_, hz⟩⟩
            intro key' k p hkey' hk hpkey
            obtain rfl := Option.some.inj (hkey.symm.trans hkey')
            rcases hothers t hst k p hk hpkey with hnamed | ⟨rfl, hstatus⟩
            · exact hnamed
            · obtain rfl := Option.some.inj (hp.symm.trans hk)
              exact absurd hstatus hguard

/-- The reply is about a payment that has been seen on the plan that the request names. -/
def Answers (call : KeyedCall) (reply : KeyedReply) (y : Context) : Prop :=
  ∃ db ∈ y.seen, ∃ k p, db.payments.lookup k = some p ∧ call.Names db p.enrollmentId ∧
    reply.Describes call y.log db k p

/-- Somebody else has come to hold the key first, on the plan that the request names. -/
theorem Aware.replayKey (hx : Aware call c₀ c none x) (hclear : call.Clear c)
    {idempotencyKey : Option String} (hcall : given idempotencyKey = call.key?)
    (hgiven : (given idempotencyKey).isSome) {error : Err} {β : Type}
    {ok : β ⊕ PaymentOfPlan → Context → Prop}
    (hok : ∀ existing y, call.Replayed existing y → ok (.inr existing) y) :
    (do
      let existing ← Lopay.read fun db => db.paymentByIdempotencyKey? (idempotencyKey.getD "")
      let existing ← Routine.orThrow existing error
      pure (Sum.inr existing) : Action (β ⊕ PaymentOfPlan)).wp store call.sparing ok
        (fun _ _ => True) x := by
  obtain ⟨key, hkey⟩ := Option.isSome_iff_exists.mp hgiven
  have hgetD : idempotencyKey.getD "" = key := by
    rw [given_eq_some hkey]
    rfl
  refine Routine.wp_bind (hx.read (fun _ _ _ => trivial) fun s y hs hy hseen => ?_)
  refine Routine.wp_bind (hy.orThrow (fun _ _ _ => trivial) fun existing hfound => ?_)
  simp only [hgetD, Option.getD_none, Store.applyAll_nil] at hfound
  obtain ⟨hrow, hholds, -⟩ := Db.paymentByIdempotencyKey?_eq_some hfound
  refine Routine.wp_pure (hok existing y ⟨s, hseen, hrow, ?_, ?_, ?_⟩)
  · exact Db.paymentByIdempotencyKey?_plan hfound
  · exact hclear.later hs key _ _ (hcall.symm.trans hkey) hrow hholds
  · exact ⟨key, hcall.symm.trans hkey, hholds⟩

theorem Aware.createNotification {tx : Option (List Write)} (hx : Aware call c₀ c tx x)
    {n : Notification} {ok : Unit → Context → Prop} {err : Err → Context → Prop}
    (herr : ∀ e y, Aware call c₀ c tx y → err e y) (h : ∀ y, Aware call c₀ c tx y → ok () y) :
    (Lopay.createNotification n).wp store call.sparing ok err x :=
  Routine.wp_bind (hx.ask fun _ y hy _ _ => hy.throwIf herr fun _ => h y hy)

/-- A new payment, in the open transaction. -/
theorem Aware.createPayment {ws : List Write} (hx : Aware call c₀ c (some ws) x) {id : Id}
    {row : Payment} {ok : Unit → Context → Prop} {err : Err → Context → Prop}
    (herr : ∀ e y, (∃ ws, Aware call c₀ c (some ws) y) → err e y)
    (h : ∀ s y, call.Later c s → Aware call c₀ s (some (ws ++ [.putPayment id row])) y → ok () y) :
    (Lopay.createPayment id row).wp store call.sparing ok err x := by
  refine hx.inside herr fun s a v y hs hf hy => ?_
  obtain rfl : v = [.putPayment id row] := by
    grind
  exact h s y hs hy

/-- The writes of an open transaction that put one payment, on the plan that the request
    names. -/
theorem Minds.put {t : Db} {ws : List Write} {id : Id} {row : Payment}
    (hpayments : (store.applyAll ws t).payments = t.payments.insert id row)
    (hnamed : call.Names (store.applyAll ws t) row.enrollmentId) :
    call.Minds t (store.applyAll ws t) := by
  intro k p hp
  rw [hpayments] at hp
  rcases Table.lookup_insert_some hp with ⟨rfl, rfl⟩ | ⟨-, hold⟩
  · exact Or.inr (Or.inl hnamed)
  · exact Or.inl hold

/-! ### Installments -/

theorem submitInstallmentPayment_confined {enrollmentId : Id} {amountPaid : ℚ} {user : AuthUser}
    {receiptUrl idempotencyKey : Option String}
    (hcall : call = .submitInstallmentPayment enrollmentId amountPaid user receiptUrl idempotencyKey)
    (hx : Aware call c₀ c none x) (hhand : call.Admitted → call.KeyInHand c) :
    (Enrollment.submitInstallmentPayment enrollmentId amountPaid user receiptUrl idempotencyKey).wp
      store call.sparing (fun r y => call.Answers (.submitted r) y) (fun _ _ => True) x := by
  have hkey : given idempotencyKey = call.key? := by rw [hcall]; rfl
  unfold Enrollment.submitInstallmentPayment
  refine Routine.wp_bind (hx.throwIf (fun _ _ _ => trivial) fun hadmitted => ?_)
  have hadmitted : call.Admitted := by
    rw [hcall]
    simpa [Admitted, KeyedCall.receiptUrl, userId] using hadmitted
  refine Routine.wp_bind (Routine.wp_mono (fun replayed y hy => ?_) (fun _ _ h => h)
    (hx.replayIntent (hhand hadmitted) hkey))
  have hreplay : ∀ existing y, call.Replayed existing y →
      call.Answers (.submitted (installmentReply existing.row existing.plan)) y := by
    rintro existing y ⟨s, hs, hrow, hplan, hnamed, -⟩
    exact ⟨s, hs, existing.id, existing.row, hrow, hnamed, existing.plan, hplan, rfl⟩
  cases replayed with
  | some existing => exact Routine.wp_pure (hreplay existing y hy)
  | none =>
    obtain ⟨s, hclear, hy⟩ := hy
    refine Routine.wp_bind (hy.read (fun _ _ _ => trivial) fun s₁ y hs hy _ => ?_)
    refine Routine.wp_bind (hy.orThrow (fun _ _ _ => trivial) fun enrollment hplan => ?_)
    simp only [Option.getD_none, Store.applyAll_nil] at hplan
    refine Routine.wp_bind (hy.throwIf (fun _ _ _ => trivial) fun hmine => ?_)
    refine Routine.wp_bind (hy.throwIf (fun _ _ _ => trivial) fun _ => ?_)
    have hnamed : call.Names s₁ enrollmentId := by
      refine ⟨enrollment, hplan, ?_, ?_⟩
      · rw [hcall]
        exact not_not.mp hmine
      · rw [hcall]
        exact (Db.plan?_eq_some hplan).1
    have hclear := hclear.later hs
    refine Routine.wp_bind (Routine.wp_tryCatch (Routine.wp_bind (Routine.wp_mono
      (fun payment z hz => ?_) (fun error z hz => ?_) (hy.transaction
        (fun payment z => ∃ t id, Aware call c₀ t none z ∧ call.Later s₁ t ∧ t ∈ z.seen ∧
          t.payments.lookup id = some payment ∧ payment.enrollmentId = enrollmentId)
        (fun _ z => Aware call c₀ s₁ none z) (fun _ _ h => h) fun z hz => ?_))))
    · -- The payment has been submitted; what remains tells the school.
      obtain ⟨t, id, hz, hst, hseen, hrow, rfl⟩ := hz
      refine Routine.wp_pure ?_
      refine Routine.wp_mono ?_ (fun _ _ h => h) (Routine.wp_remember (V := fun u => u = t)
        ⟨t, hseen, rfl⟩ (?_ : Routine.wp store call.sparing _
          (fun r _ => r = installmentReply payment enrollment) (fun _ _ => True) z))
      · rintro r y ⟨rfl, u, hu, rfl⟩
        obtain ⟨row, hlater, -⟩ := hst.stable.plan? hplan
        exact ⟨u, hu, id, payment, hrow, hnamed.stable hst.stable, _, hlater, rfl⟩
      · refine Routine.wp_bind (Routine.wp_onlyIf (fun _ => ?_) fun _ => ?_)
        · refine hz.createNotification (fun _ _ _ => trivial) fun y hy => ?_
          exact Routine.wp_bind (hy.ask fun _ _ _ _ _ => Routine.wp_pure rfl)
        · exact Routine.wp_bind (hz.ask fun _ _ _ _ _ => Routine.wp_pure rfl)
    · refine Routine.wp_ite (fun hlost => ?_) fun _ => trivial
      apply hz.replayKey hclear hkey hlost.1
      exact fun existing y hy => Routine.wp_pure (hreplay existing y hy)
    · refine Routine.wp_bind (hz.inside (fun _ _ h => h) fun t₁ locked v z h₁ hf hz => ?_)
      simp only [Except.ok.injEq, Prod.mk.injEq] at hf
      obtain ⟨-, rfl⟩ := hf
      refine Routine.wp_bind (hz.orThrow (fun _ _ h => ⟨_, h.weaken h₁⟩) fun locked _ => ?_)
      refine Routine.wp_bind (hz.read (fun _ _ h => ⟨_, h.weaken h₁⟩) fun t₂ z h₂ hz _ => ?_)
      refine Routine.wp_bind (hz.throwIf (fun _ _ h => ⟨_, h.weaken (h₁.trans h₂)⟩) fun _ => ?_)
      refine Routine.wp_bind (hz.ask fun id z hz _ _ => ?_)
      refine Routine.wp_bind (hz.ask fun now z hz _ _ => ?_)
      refine Routine.wp_bind (hz.createPayment ?_ fun t₃ z h₃ hz => Routine.wp_pure ?_)
      · rintro e y ⟨ws, h⟩
        exact ⟨ws, h.weaken (h₁.trans h₂)⟩
      · have hsince := (h₁.trans h₂).trans h₃
        refine ⟨t₃, _, hsince, hz, fun t ht => ⟨fun hstable _ => ?_, fun y hlater hy hseen => ?_⟩⟩
        · exact Minds.put rfl ((hnamed.stable (hsince.trans ht).stable).stable hstable)
        · refine ⟨_, id, hy, (hsince.trans ht).trans hlater, hseen, ?_, rfl⟩
          exact AList.lookup_insert _

end KeyedCall

end Lopay
