import Lopay.Books.EnrollmentPosts

/-!
# Starting a charge commits postings only

`initiateFirstPayment`, on terms that grow as the request goes on. What a request knows
about its own charge, about the charge it asked Paystack to verify and about its
idempotency key are facts about what it has exchanged, so each is a session of its own.
-/

namespace Lopay

open Transactions Enrollment

/-- The terms of a request for a charge. It counts on `B` from the start, on `I` once its
    idempotency key is released, on `V r` once Paystack has answered that the charge `r`
    lives, and on `M r` while the charge `r` is its own. -/
structure ChargeTerms (K : Contract Db Write Answer) (E : Db → Db → Prop) (key : Option String)
    (B I : Exchanges → Db → Prop) (V M : String → Exchanges → Db → Prop) : Prop where
  base : Session K E B
  keyed : Session K E I
  verified : ∀ r, Session K E (V r)
  own : ∀ r, Session K E (M r)
  of_keyed : ∀ l s, I l s → B l s
  of_verified : ∀ r l s, V r l s → I l s
  of_own : ∀ r l s, M r l s → I l s
  release : ∀ l s, B l s → Released E key s → I l s
  verify : ∀ y r a, K.answers y (.verifyTransaction r) a → verdict a ≠ .dead →
    I y.log y.now → V r (⟨.verifyTransaction r, a⟩ :: y.log) y.now
  mint : ∀ y u, K.answers y .randomUUID u → I y.log y.now →
    M (mintedReference u) (⟨.randomUUID, u⟩ :: y.log) y.now
  asks : ∀ y params, M params.reference y.log y.now → K.asks y (.initializeTransaction params)
  refused : ∀ y params e, K.answers y (.initializeTransaction params) (.error e) →
    M params.reference y.log y.now → I (⟨.initializeTransaction params, .error e⟩ :: y.log) y.now
  accepted : ∀ y params init, K.answers y (.initializeTransaction params) (.ok init) →
    M params.reference y.log y.now →
      M init.reference (⟨.initializeTransaction params, .ok init⟩ :: y.log) y.now
  owes_releaseKey : Owes K E B .releaseKey
  owes_aside : Owes K E I .aside
  owes_fail : ∀ r, Owes K E I (.fail r)
  owes_verified : ∀ r, Owes K E (V r) .aside
  owes_credit : ∀ r, Owes K E (V r) (.credit .FIRST_PAYMENT_PAID)
  owes_open : ∀ r reuse, Owes K E (M r) (openKind reuse (some r))
  owes_storeAccessCode : ∀ r k, Owes K E (M r) (.storeAccessCode k)

/-- What a request for a charge posts. -/
def Kind.Charges : Kind → Prop
  | .releaseKey => True
  | .aside => True
  | .fail _ => True
  | .credit action => action = .FIRST_PAYMENT_PAID
  | .openPlan reference => reference ≠ none
  | .reopenPlan reference => reference ≠ none
  | .storeAccessCode _ => True
  | _ => False

/-- On the terms of a plain session nothing grows. -/
theorem ChargeTerms.plain {K : Contract Db Write Answer} {E : Db → Db → Prop} {key : Option String}
    {I : Exchanges → Db → Prop} (hS : Session K E I)
    (hanswers : ∀ y c a, K.answers y c a → I y.log y.now → I (⟨c, a⟩ :: y.log) y.now)
    (hasks : ∀ y c, K.asks y c) (howes : ∀ kind : Kind, kind.Charges → Owes K E I kind) :
    ChargeTerms K E key I I (fun _ => I) (fun _ => I) where
  base := hS
  keyed := hS
  verified := fun _ => hS
  own := fun _ => hS
  of_keyed := fun _ _ h => h
  of_verified := fun _ _ _ h => h
  of_own := fun _ _ _ h => h
  release := fun _ _ h _ => h
  verify := fun y _ a ha _ h => hanswers y _ a ha h
  mint := fun y u ha h => hanswers y _ u ha h
  asks := fun y _ _ => hasks y _
  refused := fun y params e ha h => hanswers y (.initializeTransaction params) (.error e) ha h
  accepted := fun y params init ha h => hanswers y (.initializeTransaction params) (.ok init) ha h
  owes_releaseKey := howes .releaseKey trivial
  owes_aside := howes .aside trivial
  owes_fail := fun r => howes (.fail r) trivial
  owes_verified := fun _ => howes .aside trivial
  owes_credit := fun _ => howes (.credit .FIRST_PAYMENT_PAID) rfl
  owes_open := fun r reuse => howes (openKind reuse (some r)) <| by
    cases reuse <;> exact Option.some_ne_none r
  owes_storeAccessCode := fun _ k => howes (.storeAccessCode k) trivial

/-- What every later database keeps may join all the terms. -/
theorem ChargeTerms.and {K : Contract Db Write Answer} {E : Db → Db → Prop} {key : Option String}
    {B I : Exchanges → Db → Prop} {V M : String → Exchanges → Db → Prop}
    (hT : ChargeTerms K E key B I V M) {Q : Db → Prop} (hQ : ∀ s t, Stable s t → Q s → Q t) :
    ChargeTerms K E key (fun l s => B l s ∧ Q s) (fun l s => I l s ∧ Q s)
      (fun r l s => V r l s ∧ Q s) (fun r l s => M r l s ∧ Q s) where
  base := hT.base.and hQ
  keyed := hT.keyed.and hQ
  verified := fun r => (hT.verified r).and hQ
  own := fun r => (hT.own r).and hQ
  of_keyed := fun l s h => ⟨hT.of_keyed l s h.1, h.2⟩
  of_verified := fun r l s h => ⟨hT.of_verified r l s h.1, h.2⟩
  of_own := fun r l s h => ⟨hT.of_own r l s h.1, h.2⟩
  release := fun l s h hr => ⟨hT.release l s h.1 hr, h.2⟩
  verify := fun y r a ha halive h => ⟨hT.verify y r a ha halive h.1, h.2⟩
  mint := fun y u ha h => ⟨hT.mint y u ha h.1, h.2⟩
  asks := fun y params h => hT.asks y params h.1
  refused := fun y params e ha h => ⟨hT.refused y params e ha h.1, h.2⟩
  accepted := fun y params init ha h => ⟨hT.accepted y params init ha h.1, h.2⟩
  owes_releaseKey := hT.owes_releaseKey.and hQ
  owes_aside := hT.owes_aside.and hQ
  owes_fail := fun r => (hT.owes_fail r).and hQ
  owes_verified := fun r => (hT.owes_verified r).and hQ
  owes_credit := fun r => (hT.owes_credit r).and hQ
  owes_open := fun r reuse => (hT.owes_open r reuse).and hQ
  owes_storeAccessCode := fun r k => (hT.owes_storeAccessCode r k).and hQ

/-- What stands behind the reference and the access code that a reply hands out. -/
inductive Enrollment.InitiationReply.Backed (key : Option String) (I : Exchanges → Db → Prop)
    (V M : String → Exchanges → Db → Prop) (y : Context) : InitiationReply → Prop
  /-- The payment of the key is live right then. -/
  | live {k : Id} {p : Payment} : y.now.payments.lookup k = some p →
      isReplayableIntent p.status = true → Backed key I V M y (.replay (intentReply p))
  /-- The payment of the key appeared while the request was running. -/
  | keyed {k : Id} {p : Payment} {key' : String} : I y.log y.now → given key = some key' →
      y.now.payments.lookup k = some p → p.idempotencyKey = some key' →
      Backed key I V M y (.replay (intentReply p))
  /-- Paystack has answered that the charge lives. -/
  | verified {r : String} {intent : IntentReply} : V r y.log y.now → intent.reference = some r →
      Backed key I V M y (.replay intent)
  /-- The charge is the request's own. -/
  | own {init : InitializeTransactionResult} {charged toSchool platform fee : ℚ} :
      M init.reference y.log y.now →
      Backed key I V M y (.started init charged toSchool platform fee)

section Operations

variable {K : Contract Db Write Answer} {E : Db → Db → Prop} {B I : Exchanges → Db → Prop}
  {V M : String → Exchanges → Db → Prop} {key : Option String} {x : Context}

theorem given_eq_some {s : Option String} {text : String} (h : given s = some text) :
    s = some text := by
  unfold given at h
  exact (Option.filter_eq_some_iff.mp h).1

/-! ### A charge that is still open -/

theorem resolvePendingFirstPayment_posts (hT : ChargeTerms K E key B I V M)
    (hx : Rests I false x) {enrollmentId : Id} :
    (resolvePendingFirstPayment enrollmentId).wp store K
      (fun o y => match o with
        | some intent => ∃ r, intent.reference = some r ∧ Rests (V r) false y
        | none => Rests I false y)
      (fun _ => Rests I false) x := by
  have hfails : ∀ r z, Rests I false z → (do
      let _ ← Ledger.failPaystackPayment r
      pure none : Action (Option IntentReply)).wp store K
        (fun o y => match o with
          | some intent => ∃ r, intent.reference = some r ∧ Rests (V r) false y
          | none => Rests I false y)
        (fun _ => Rests I false) z := by
    intro r z hz
    exact Routine.wp_bind (Routine.wp_mono (fun _ _ hy => Routine.wp_pure hy) (fun _ _ h => h)
      (failPaystackPayment_posts hT.keyed (hT.owes_fail r) hz))
  unfold resolvePendingFirstPayment
  refine Routine.wp_bind (hx.outside.findFirst hT.keyed fun found y hy => ?_)
  cases found with
  | none => exact Routine.wp_pure hy.rests
  | some r =>
    obtain ⟨paymentId, payment⟩ := r
    cases hgiven : given payment.paystackReference with
    | none =>
      simp only [hgiven]
      exact Routine.wp_pure hy.rests
    | some reference =>
      have hintent : (intentReply payment).reference = some reference := given_eq_some hgiven
      simp only [hgiven]
      refine Routine.wp_ite (fun _ => hfails reference y hy.rests) fun _ => ?_
      refine Routine.wp_bind (Routine.wp_ask fun z hz => ?_)
      have hknown := hy.drift hT.keyed hz
      refine ⟨hT.keyed.asks _ _ (fun _ h => nomatch h) hknown.inv, fun verified ha => ?_⟩
      have hrests : Rests I false (z.answered (.verifyTransaction reference) verified) :=
        ⟨hknown.rests.1, hT.keyed.answers z (.verifyTransaction reference) verified
          (fun _ h => nomatch h) ha hknown.inv⟩
      have halive : verdict verified ≠ .dead →
          Rests (V reference) false (z.answered (.verifyTransaction reference) verified) :=
        fun h => ⟨hknown.rests.1, hT.verify z reference verified ha h hknown.inv⟩
      cases hverdict : verdict verified with
      | dead => exact hfails reference _ hrests
      | undecided =>
        exact Routine.wp_pure ⟨reference, hintent, halive (by rw [hverdict]; simp)⟩
      | paid fees =>
        have hpaid := halive (by rw [hverdict]; simp)
        refine Routine.wp_bind (Routine.wp_mono (fun _ u hu => ?_)
          (fun _ _ h => h.imp (hT.of_verified reference))
          (reconcilePaystackPayment_posts (hT.verified reference) (hT.owes_credit reference)
            (hT.owes_verified reference) hpaid (Or.inr trivial)))
        exact Routine.wp_pure ⟨reference, hintent, hu.1⟩

/-! ### A new charge -/

theorem Knows.createFirstPayment (hS : Session K E I) {P : Db → Prop} (hx : Knows E I none P x)
    {dto : CreateEnrollmentDto} {figures : DepositCalculation} {charge : GrossUp}
    {depositKobo : Int} {reference : String} {childId : Id} {reuse : Option Id}
    (hopen : Owes K E I (openKind reuse (some reference)))
    (hreuse : ∀ s, P s → ∀ id, reuse = some id → Reusable dto.schoolId id s)
    {fees deposit : Int} (hfigures : calculateInitialPayment fees deposit = .ok figures) :
    (Enrollment.createFirstPayment dto figures charge depositKobo reference childId reuse).wp
      store K (fun _ => Rests I false) (fun _ => Rests I false) x := by
  unfold Enrollment.createFirstPayment
  refine hx.transaction hS fun _ _ hy => ?_
  refine Routine.wp_bind (hy.openEnrollment hS hreuse fun enrollmentId row y hrow hy => ?_)
  refine Routine.wp_bind (hy.ask hS (fun _ h => nomatch h) fun paymentId y hy => ?_)
  refine Routine.wp_bind (hy.ask hS (fun _ h => nomatch h) fun now y hy => ?_)
  refine Routine.wp_bind (hy.createPayment hS fun y hy => ?_)
  refine Routine.wp_pure (hy.commits hS hopen (fun s hs hcoh => ?_) fun u _ _ hu => hu)
  obtain ⟨⟨-, hopens⟩, hfresh, hreference, hkey⟩ := hs
  refine ⟨_, hopens.posting (hrow.opens hfigures hfresh hreference hkey
    ⟨rfl, rfl, rfl, rfl, rfl, rfl, rfl⟩) rfl rfl, ?_⟩
  exact (Entry.MadeBy.nil s).putPlan.putPayment

theorem Knows.updatePayment (hS : Session K E I) {P : Db → Prop} (hx : Knows E I none P x)
    {id : Id} (howes : Owes K E I (.storeAccessCode id)) {accessCode : String} :
    (Lopay.updatePayment id fun p => { p with paystackAccessCode := some accessCode }).wp store K
      (fun _ => Rests I false) (fun _ => Rests I false) x := by
  refine hx.autocommit hS howes (fun s a ws _ _ hf => ?_) fun _ _ _ _ _ _ hu => hu
  split at hf
  · next p hp =>
    obtain ⟨-, rfl⟩ := Prod.mk.inj (Except.ok.inj hf)
    exact Or.inr ⟨_, .storeAccessCode hp, (Entry.MadeBy.nil s).putPayment⟩
  · cases hf

theorem startCharge_posts (hT : ChargeTerms K E key B I V M) {reference : String}
    (hx : Rests (M reference) false x) {env : Environment} {dto : CreateEnrollmentDto}
    {figures : DepositCalculation} {charge : GrossUp} {email subaccount : String}
    {childId paymentId : Id} {payment : Payment} :
    (startCharge env dto figures charge email subaccount reference childId paymentId payment).wp
      store K (fun r y => Rests B false y ∧ r.Backed key I V M y) (fun _ => Rests B false) x := by
  have hbase : ∀ l s, M reference l s → B l s := fun l s h =>
    hT.of_keyed l s (hT.of_own reference l s h)
  unfold startCharge
  refine Routine.wp_bind (Routine.wp_ask fun y hd => ?_)
  have hy := hx.outside.drift (hT.own reference) hd
  refine ⟨hT.asks y _ hy.inv, fun init ha => ?_⟩
  cases init with
  | error err =>
    have hrefused := hT.refused y _ err ha hy.inv
    refine Routine.wp_bind (Routine.wp_tryCatch (Routine.wp_bind (Routine.wp_mono
      (fun _ z hz => ?_) (fun _ z hz => ?_)
      (failPaystackPayment_posts hT.keyed (hT.owes_fail reference) ⟨hy.rests.1, hrefused⟩))))
    · exact Routine.wp_pure (Routine.wp_throw (Rests.imp hz hT.of_keyed))
    · exact Routine.wp_pure (Routine.wp_throw (Rests.imp hz hT.of_keyed))
  | ok init =>
    have haccepted := hT.accepted y _ init ha hy.inv
    have hrests : Rests (M init.reference) false (Ctx.answered y (.initializeTransaction _)
        (.ok init)) := ⟨hy.rests.1, haccepted⟩
    have hof : ∀ l s, M init.reference l s → B l s := fun l s h =>
      hT.of_keyed l s (hT.of_own init.reference l s h)
    refine Routine.wp_bind (Routine.wp_mono (fun _ z hz => ?_) (fun _ z hz => ?_)
      (hrests.outside.updatePayment (hT.own init.reference)
        (hT.owes_storeAccessCode init.reference paymentId)))
    · exact Routine.wp_pure ⟨Rests.imp hz hof, .own hz.2⟩
    · exact Rests.imp hz hof

theorem chargeFirstPayment_posts (hT : ChargeTerms K E key B I V M) {dto : CreateEnrollmentDto}
    (hkey : dto.idempotencyKey = key) {reuse : Option Id}
    (hx : Knows E I none (fun s => ∀ id, reuse = some id → Reusable dto.schoolId id s) x)
    {env : Environment} {userId : Id} {classFee : ClassFee} {subaccount : String} {childId : Id} :
    (chargeFirstPayment env dto userId classFee subaccount childId reuse).wp
      store K (fun r y => Rests B false y ∧ r.Backed key I V M y) (fun _ => Rests B false) x := by
  have hbase : ∀ {y : Context}, Rests I false y → Rests B false y := fun h => h.imp hT.of_keyed
  unfold chargeFirstPayment
  dsimp only
  split
  · exact Routine.wp_throw (hbase hx.rests)
  next figures hfigures =>
  split
  · exact Routine.wp_throw (hbase hx.rests)
  next charge _ =>
  refine Routine.wp_bind (Routine.wp_mono (fun _ _ h => h) (fun _ _ h => hbase h)
    (hx.read hT.keyed fun user y hy => ?_))
  refine Routine.wp_bind (Routine.wp_mono (fun _ _ h => h) (fun _ _ h => hbase h)
    (hy.orThrow fun email _ => ?_))
  refine Routine.wp_bind (Routine.wp_ask fun z hz => ?_)
  have hknown := hy.drift hT.keyed hz
  refine ⟨hT.keyed.asks z _ (fun _ h => nomatch h) hknown.inv, fun uuid ha => ?_⟩
  -- From here on the reference is the request's own.
  have hown : Knows E (M (mintedReference uuid)) none
      (fun s => ∀ id, reuse = some id → Reusable dto.schoolId id s)
      (z.answered .randomUUID uuid) :=
    ⟨hknown.begun, hT.mint z uuid ha hknown.inv, hknown.holds.1, hx.keeps⟩
  have hof : ∀ l s, M (mintedReference uuid) l s → B l s := fun l s h =>
    hT.of_keyed l s (hT.of_own _ l s h)
  refine Routine.wp_bind (Routine.wp_tryCatch (Routine.wp_bind (Routine.wp_mono
    (fun created y hy => ?_) (fun error y hy => ?_)
    (hown.createFirstPayment (hT.own _) (hT.owes_open _ reuse) (fun s hs => hs) hfigures))))
  · exact Routine.wp_pure (startCharge_posts hT hy)
  · refine Routine.wp_ite (fun hreplay => ?_) fun _ => Routine.wp_throw (Rests.imp hy hof)
    obtain ⟨key', hgiven⟩ := Option.isSome_iff_exists.mp hreplay.1
    have hkey' : dto.idempotencyKey.getD "" = key' := by rw [given_eq_some hgiven]; rfl
    refine Routine.wp_bind (Routine.wp_mono (fun _ _ h => h) (fun _ _ h => Rests.imp h hof)
      ((Rests.outside hy).read_now (hT.own _) fun w hw => ?_))
    refine Routine.wp_bind (Routine.wp_mono (fun _ _ h => h) (fun _ _ h => Rests.imp h hof)
      (hw.orThrow fun existing hexisting => ?_))
    obtain ⟨hrow, hholds, -⟩ := Db.paymentByIdempotencyKey?_eq_some hexisting
    rw [hkey'] at hholds
    refine Routine.wp_pure (Routine.wp_pure ⟨hw.rests.imp hof, ?_⟩)
    exact .keyed (hT.of_own _ _ _ hw.inv) (by rw [← hkey]; exact hgiven) hrow hholds

theorem initiateFirstPayment_posts (hT : ChargeTerms K E key B I V M) {dto : CreateEnrollmentDto}
    (hkey : dto.idempotencyKey = key) (hx : Rests B false x) {env : Environment} {userId : Id} :
    (initiateFirstPayment env dto userId).wp store K
      (fun r y => Rests B false y ∧ r.Backed key I V M y) (fun _ => Rests B false) x := by
  have hbase : ∀ {y : Context}, Rests I false y → Rests B false y := fun h => h.imp hT.of_keyed
  unfold initiateFirstPayment
  refine Routine.wp_bind (Routine.wp_throwIf (fun _ => hx) fun _ => ?_)
  refine Routine.wp_bind (Routine.wp_mono (fun replayed y hy => ?_) (fun _ _ h => h)
    (replayIntent_posts (I := I) hT.base hT.owes_releaseKey hx (by rw [hkey]; exact hT.release)))
  cases replayed with
  | some existing =>
    obtain ⟨hrests, hrow, hlive⟩ := hy
    exact Routine.wp_pure ⟨hrests, .live hrow hlive⟩
  | none =>
    have hy : Rests I false y := hy
    refine Routine.wp_bind (Routine.wp_mono (fun _ _ h => h) (fun _ _ h => hbase h)
      (hy.outside.resolveActiveClassFee hT.keyed fun classFee y hy => ?_))
    refine Routine.wp_bind (Routine.wp_mono (fun _ _ h => h) (fun _ _ h => hbase h)
      (Routine.wp_bind (hy.read hT.keyed fun found y hy => ?_)))
    refine Routine.wp_bind (hy.orThrow fun school _ => ?_)
    refine Routine.wp_bind (hy.throwIf fun _ => hy.orThrow fun subaccount _ => ?_)
    refine Routine.wp_bind (Routine.wp_mono (fun target y hy => ?_) (fun _ _ h => hbase h)
      (resolveEnrollmentTarget_posts hT.keyed hT.owes_aside hy.rests))
    cases hpending : target.pendingEnrollmentId with
    | none =>
      exact chargeFirstPayment_posts hT hkey { hy with
        holds := hy.holds.1
        keeps := fun s t hb hs id hid => (hs id hid).stable (hT.keyed.stable _ _ hb.env) }
    | some pendingEnrollmentId =>
      have hfits := hy.holds.2 pendingEnrollmentId hpending
      have hQ : ∀ s t, Stable s t → Reusable dto.schoolId pendingEnrollmentId s →
          Reusable dto.schoolId pendingEnrollmentId t := fun _ _ hst h => h.stable hst
      refine Routine.wp_bind (Routine.wp_mono (fun pending z hz => ?_) (fun _ _ h => hbase h.left)
        (resolvePendingFirstPayment_posts (hT.and hQ) (hy.rests.and hfits)))
      cases pending with
      | some intent =>
        obtain ⟨r, hr, hz⟩ := hz
        have hverified := hz.left
        refine Routine.wp_pure ⟨hbase (hverified.imp (hT.of_verified r)), ?_⟩
        exact .verified hverified.2 hr
      | none =>
        have hz : Rests (fun l s => I l s ∧ Reusable dto.schoolId pendingEnrollmentId s) false z :=
          hz
        have hknown := hz.left.outside (E := E)
        refine chargeFirstPayment_posts hT hkey { hknown with holds := ?_, keeps := ?_ }
        · rintro id hid
          obtain rfl := Option.some.inj hid
          exact hz.2.2
        · exact fun s t hb hs id hid => (hs id hid).stable (hT.keyed.stable _ _ hb.env)

end Operations

end Lopay
