import Lopay.Keys.Confined

/-!
# A request for a charge is confined

`initiateFirstPayment` finds the child that the request names and the plan of that child; so
whatever it resumes, fails, reconciles or opens from there on is on the plan that the request
names.
-/

namespace Lopay

open Transactions Enrollment

namespace KeyedCall

variable {call : KeyedCall} {c₀ c : Db} {x : Context}
  {env : Environment} {dto : CreateEnrollmentDto} {userId : Id}

/-! ### The family -/

/-- The parent row of the user. -/
def Guardian (userId parentId : Id) (db : Db) : Prop :=
  ∃ parent, db.parents.lookup parentId = some parent ∧ parent.userId = userId

theorem Guardian.stable {parentId : Id} {s t : Db} (hst : Stable s t)
    (h : Guardian userId parentId s) : Guardian userId parentId t := by
  obtain ⟨parent, hparent, hu⟩ := h
  exact ⟨parent, hst.parents _ _ hparent, hu⟩

/-- A child of the user that the request names. -/
def Named (dto : CreateEnrollmentDto) (userId childId : Id) (db : Db) : Prop :=
  ∃ child, db.children.lookup childId = some child ∧ Guardian userId child.parentId db ∧
    match given dto.childId with
    | some id => childId = id
    | none => given dto.childName = some child.fullName ∧ child.className = dto.className

theorem Named.stable {childId : Id} {s t : Db} (hst : Stable s t)
    (h : Named dto userId childId s) : Named dto userId childId t := by
  obtain ⟨child, hchild, hparent, hname⟩ := h
  exact ⟨child, hst.children _ _ hchild, hparent.stable hst, hname⟩

/-- The plan of such a child at the school of the request is the plan that it names. -/
theorem Named.plan (hcall : call = .initiateFirstPayment env dto userId) {childId id : Id}
    {db : Db} (hdb : Coherent db) (h : Named dto userId childId db) {e : ChildEnrollment}
    (he : db.enrollments.lookup id = some e) (hchild : e.childId = childId)
    (hschool : e.schoolId = dto.schoolId) : call.Names db id := by
  obtain ⟨child, hlookup, ⟨parent, hparent, hu⟩, hname⟩ := h
  obtain ⟨school, hschoolRow⟩ := (hdb.enrollments id e he).school
  subst hchild
  refine ⟨{ id, row := e, school, child, parent }, ?_, ?_⟩
  · simp only [Db.plan?, he, hschoolRow, hlookup, hparent, Option.bind_eq_bind, Option.bind_some]
  · rw [hcall]
    refine ⟨hu, hschool, ?_⟩
    cases hid : given dto.childId with
    | none =>
      rw [hid] at hname
      exact hname
    | some childId =>
      rw [hid] at hname
      exact hname

theorem Aware.resolveParent (hx : Aware call c₀ c none x) :
    (Enrollment.resolveParent userId).wp store call.sparing
      (fun id y => ∃ s, call.Later c s ∧ Aware call c₀ s none y ∧ Guardian userId id s)
      (fun _ _ => True) x := by
  unfold Enrollment.resolveParent
  refine Routine.wp_bind (hx.read (fun _ _ _ => trivial) fun s y hs hy _ => ?_)
  simp only [Option.getD_none, Store.applyAll_nil]
  cases hfound : parentOfUser userId s with
  | some r =>
    obtain ⟨id, parent⟩ := r
    have hrow := Table.mem_rows.mp (List.mem_of_find?_eq_some hfound)
    have huser := List.find?_some hfound
    exact Routine.wp_pure ⟨s, hs, hy, parent, hrow, of_decide_eq_true huser⟩
  | none =>
    refine Routine.wp_bind (hy.read (fun _ _ _ => trivial) fun s₁ y h₁ hy _ => ?_)
    refine Routine.wp_bind (hy.orThrow (fun _ _ _ => trivial) fun r _ => ?_)
    refine Routine.wp_bind (hy.ask fun id y hy _ _ => ?_)
    refine Routine.wp_bind (hy.outside (fun _ _ _ => trivial) fun t a ws ht hf => ?_)
    obtain rfl : ws = [.putParent id
        { userId, phoneNumber := ((given r.1.phoneNumber).or (given r.2)).getD "" }] := by
      grind
    refine ⟨fun _ _ k p hp => Or.inl hp, fun z hlater hz _ => Routine.wp_pure ⟨_, ?_, hz, ?_⟩⟩
    · exact ((hs.trans h₁).trans ht).trans hlater
    · exact ⟨_, AList.lookup_insert _, rfl⟩

theorem Aware.resolveChild (hx : Aware call c₀ c none x) {parentId : Id}
    (hparent : Guardian userId parentId c) :
    (Enrollment.resolveChild dto parentId).wp store call.sparing
      (fun id y => ∃ s, call.Later c s ∧ Aware call c₀ s none y ∧ Named dto userId id s)
      (fun _ _ => True) x := by
  unfold Enrollment.resolveChild
  split
  · next childId childName hid =>
    refine Routine.wp_bind (hx.read (fun _ _ _ => trivial) fun s y hs hy _ => ?_)
    refine Routine.wp_bind (hy.orThrow (fun _ _ _ => trivial) fun child hchild => ?_)
    refine Routine.wp_bind (hy.throwIf (fun _ _ _ => trivial) fun htheirs => ?_)
    refine Routine.wp_pure ⟨s, hs, hy, child, hchild, ?_, ?_⟩
    · rw [not_not.mp htheirs]
      exact hparent.stable hs.stable
    · rw [hid]
  · next childName hid hname =>
    have hlike : ∀ s, call.Later c s → ∀ id ∈ childrenLike
        { parentId, fullName := childName, className := dto.className } s,
        Named dto userId id s := by
      intro s hs id hmem
      obtain ⟨⟨k, child⟩, hrow, rfl⟩ := List.mem_map.mp hmem
      obtain ⟨hrow, hchild⟩ := List.mem_filter.mp hrow
      obtain rfl := of_decide_eq_true hchild
      refine ⟨_, Table.mem_rows.mp hrow, hparent.stable hs.stable, ?_⟩
      rw [hid]
      exact ⟨hname, rfl⟩
    refine Routine.wp_bind (hx.findFirst (fun _ _ _ => trivial) fun s existing y hs hy _ hmem => ?_)
    cases existing with
    | some id => exact Routine.wp_pure ⟨s, hs, hy, hlike s hs id (hmem id rfl)⟩
    | none =>
      refine Routine.wp_tryCatch (Routine.wp_bind (hy.ask fun id y hy _ _ =>
        Routine.wp_bind (hy.outside (fun error z hz => ?_) fun t a ws ht hf => ?_)))
      · cases error with
        | unique _ =>
          refine Routine.wp_bind (hz.findFirst (fun _ _ _ => trivial)
            fun t raced z ht hz _ hmem => ?_)
          refine hz.orThrow (fun _ _ _ => trivial) fun id hraced => ?_
          exact ⟨t, hs.trans ht, hz, hlike t (hs.trans ht) id (hmem id hraced)⟩
        | _ => exact trivial
      · obtain rfl : ws = [.putChild id
            { parentId, fullName := childName, className := dto.className }] := by
          grind
        refine ⟨fun _ _ k p hp => Or.inl hp, fun z hlater hz _ => Routine.wp_pure ⟨_, ?_, hz, ?_⟩⟩
        · exact (hs.trans ht).trans hlater
        · refine ⟨_, AList.lookup_insert _, ?_, ?_⟩
          · exact hparent.stable ((hs.trans ht).trans hlater).stable
          · rw [hid]
            exact ⟨hname, rfl⟩
  · exact Routine.wp_throw trivial

/-! ### The plan -/

/-- The child that the request names, and the plans of it that the request may use. -/
structure Aimed (call : KeyedCall) (dto : CreateEnrollmentDto) (userId : Id)
    (target : EnrollmentTarget) (db : Db) : Prop where
  child : Named dto userId target.childId db
  retry : ∀ id, target.retryEnrollmentId = some id → call.Names db id
  pending : ∀ id, target.pendingEnrollmentId = some id → call.Names db id

theorem Aware.resolveEnrollmentTarget (hcall : call = .initiateFirstPayment env dto userId)
    (hx : Aware call c₀ c none x) {allowPendingRetry : Bool} :
    (Enrollment.resolveEnrollmentTarget dto userId allowPendingRetry).wp store call.sparing
      (fun target y => ∃ s, call.Later c s ∧ Aware call c₀ s none y ∧
        Aimed call dto userId target s) (fun _ _ => True) x := by
  unfold Enrollment.resolveEnrollmentTarget
  refine Routine.wp_bind (Routine.wp_mono (fun parentId y hy => ?_) (fun _ _ h => h)
    hx.resolveParent)
  obtain ⟨s, hs, hy, hparent⟩ := hy
  refine Routine.wp_bind (Routine.wp_mono (fun childId y hy => ?_) (fun _ _ h => h)
    (hy.resolveChild hparent))
  obtain ⟨s₁, h₁, hy, hchild⟩ := hy
  refine Routine.wp_bind (hy.read (fun _ _ _ => trivial) fun s₂ y h₂ hy _ => ?_)
  have hsince := (hs.trans h₁).trans h₂
  have hchild := hchild.stable h₂.stable
  simp only [Option.getD_none, Store.applyAll_nil]
  cases hfound : enrollmentOfChild childId s₂ with
  | none => exact Routine.wp_pure ⟨s₂, hsince, hy, hchild, nofun, nofun⟩
  | some r =>
    obtain ⟨enrollmentId, enrollment⟩ := r
    have hrow := Table.mem_rows.mp (List.mem_of_find?_eq_some hfound)
    have hof := List.find?_some hfound
    have hplan : enrollment.schoolId = dto.schoolId → call.Names s₂ enrollmentId :=
      hchild.plan hcall hsince.coherent hrow (of_decide_eq_true hof)
    refine Routine.wp_ite (fun _ => Routine.wp_ite (fun hschool => ?_) fun _ => trivial)
      fun _ => Routine.wp_ite (fun hpending => ?_) fun _ => trivial
    · refine Routine.wp_pure ⟨s₂, hsince, hy, hchild, ?_, nofun⟩
      rintro id hid
      obtain rfl := Option.some.inj hid
      exact hplan hschool
    · refine Routine.wp_pure ⟨s₂, hsince, hy, hchild, nofun, ?_⟩
      rintro id hid
      obtain rfl := Option.some.inj hid
      exact hplan hpending.2.2

/-! ### An open charge -/

theorem Aware.rests (h : Aware call c₀ c none x) : Rests (fun _ => Coherent) false x :=
  ⟨by rw [h.begun]; rfl, h.since.coherent⟩

theorem Aware.failPaystackPayment (hx : Aware call c₀ c none x) {reference : String}
    (hcharged : call.Charged reference c) :
    (Ledger.failPaystackPayment reference).wp store call.sparing
      (fun _ y => Aware call c₀ c none y ∧ ∀ s ∈ x.seen, s ∈ y.seen) (fun _ _ => True) x :=
  hx.referring hcharged (fun _ => failPaystackPayment_referring)
    (failPaystackPayment_posts postingSession (postingOwes _) hx.rests)

theorem Aware.reconcilePaystackPayment (hx : Aware call c₀ c none x) {reference : String}
    (hcharged : call.Charged reference c) {fee : Option Int} {actor : Option AuditActor} :
    (Ledger.reconcilePaystackPayment reference fee actor).wp store call.sparing
      (fun _ y => Aware call c₀ c none y ∧ ∀ s ∈ x.seen, s ∈ y.seen) (fun _ _ => True) x := by
  refine hx.referring hcharged (fun _ => reconcilePaystackPayment_referring) ?_
  refine Routine.wp_mono (fun _ _ h => h.1) (fun _ _ h => h)
    (reconcilePaystackPayment_posts postingSession (postingOwes _) (postingOwes _) hx.rests
      (Or.inr trivial))

theorem Aware.resolvePendingFirstPayment (hx : Aware call c₀ c none x) {enrollmentId : Id}
    (hnamed : call.Names c enrollmentId) :
    (Enrollment.resolvePendingFirstPayment enrollmentId).wp store call.sparing
      (fun o y => match o with
        | some intent => call.Answers (.initiated (.replay intent)) y
        | none => ∃ s, call.Later c s ∧ Aware call c₀ s none y) (fun _ _ => True) x := by
  unfold Enrollment.resolvePendingFirstPayment
  refine Routine.wp_bind (hx.findFirst (fun _ _ _ => trivial) fun s found y hs hy hseen hmem => ?_)
  cases found with
  | none => exact Routine.wp_pure ⟨s, hs, hy⟩
  | some r =>
    obtain ⟨paymentId, payment⟩ := r
    have hrow := (List.mem_filter.mp (hmem _ rfl)).1
    obtain ⟨hrow, hcond⟩ := List.mem_filter.mp hrow
    have hlookup : s.payments.lookup paymentId = some payment := Table.mem_rows.mp hrow
    have hplan : payment.enrollmentId = enrollmentId := (of_decide_eq_true hcond).1
    have hpayment : call.Names s payment.enrollmentId := by
      rw [hplan]
      exact hnamed.stable hs.stable
    dsimp only
    cases hreference : given payment.paystackReference with
    | none => exact Routine.wp_pure ⟨s, hs, hy⟩
    | some reference =>
      have hcharged : call.Charged reference s :=
        ⟨paymentId, payment, hlookup, given_eq_some hreference, hpayment⟩
      have hresumed : ∀ z : Context, s ∈ z.seen →
          call.Answers (.initiated (.replay (intentReply payment))) z := by
        intro z hz
        refine ⟨s, hz, paymentId, payment, hlookup, hpayment, rfl, Or.inr ?_⟩
        rw [hreference]
        rfl
      have hfails : ∀ z, Aware call c₀ s none z → (do
          let _ ← Ledger.failPaystackPayment reference
          pure none : Action (Option IntentReply)).wp store call.sparing
            (fun o y => match o with
              | some intent => call.Answers (.initiated (.replay intent)) y
              | none => ∃ s, call.Later c s ∧ Aware call c₀ s none y) (fun _ _ => True) z := by
        intro z hz
        refine Routine.wp_bind (Routine.wp_mono (fun _ u hu => ?_) (fun _ _ h => h)
          (hz.failPaystackPayment hcharged))
        exact Routine.wp_pure ⟨s, hs, hu.1⟩
      refine Routine.wp_ite (fun _ => hfails y hy) fun _ => ?_
      refine Routine.wp_bind (hy.ask fun verified z hz _ hkept => ?_)
      cases verdict verified with
      | dead => exact hfails z hz
      | paid fees =>
        refine Routine.wp_bind (Routine.wp_mono (fun _ u hu => ?_) (fun _ _ h => h)
          (hz.reconcilePaystackPayment hcharged))
        exact Routine.wp_pure (hresumed u (hu.2 s (hkept s hseen)))
      | undecided => exact Routine.wp_pure (hresumed z (hkept s hseen))

/-! ### A new charge -/

/-- The first payment of a new charge, on the plan that the request names. -/
def Started (call : KeyedCall) (dto : CreateEnrollmentDto) (figures : DepositCalculation)
    (charge : GrossUp) (depositKobo : Int) (reference : String) (created : Id × Payment)
    (db : Db) : Prop :=
  db.payments.lookup created.1 = some created.2 ∧ call.Names db created.2.enrollmentId ∧
    ∃ enrollmentId now, created.2 =
      cardFirstPayment dto figures charge depositKobo reference enrollmentId now

theorem Aware.createFirstPayment (hcall : call = .initiateFirstPayment env dto userId)
    (hx : Aware call c₀ c none x) {figures : DepositCalculation} {charge : GrossUp}
    {depositKobo : Int} {reference : String} {childId : Id} {reuse : Option Id}
    (hchild : Named dto userId childId c) (hreuse : ∀ id, reuse = some id → call.Names c id) :
    (Enrollment.createFirstPayment dto figures charge depositKobo reference childId reuse).wp store
      call.sparing
      (fun created y => ∃ s, call.Later c s ∧ Aware call c₀ s none y ∧ s ∈ y.seen ∧
        Started call dto figures charge depositKobo reference created s)
      (fun _ y => Aware call c₀ c none y) x := by
  unfold Enrollment.createFirstPayment
  refine hx.transaction _ _ (fun _ _ h => h) fun y hy => ?_
  -- The plan is the one that the request names, once it is committed.
  refine Routine.wp_bind (Routine.wp_mono (fun enrollmentId z hz => ?_) (fun _ _ h => h)
    (?_ : Routine.wp store call.sparing _ (fun id z => ∃ s row, call.Later c s ∧
      Aware call c₀ s (some [.putEnrollment id row]) z ∧ ∀ t, Stable c t → Coherent t →
        t.enrollments.lookup id = some row → call.Names t id)
      (fun _ z => ∃ ws, Aware call c₀ c (some ws) z) y))
  · obtain ⟨s, row, hs, hz, hplan⟩ := hz
    refine Routine.wp_bind (hz.ask fun paymentId z hz _ _ => ?_)
    refine Routine.wp_bind (hz.ask fun now z hz _ _ => ?_)
    refine Routine.wp_bind (hz.createPayment ?_ fun s₁ z h₁ hz => Routine.wp_pure ?_)
    · rintro e u ⟨ws, h⟩
      exact ⟨ws, h.weaken hs⟩
    · refine ⟨s₁, _, hs.trans h₁, hz, fun t ht => ?_⟩
      have hsince := (hs.trans h₁).trans ht
      refine ⟨fun hstable hafter => ?_, fun u hlater hu hseen => ?_⟩
      · exact Minds.put rfl (hplan _ (hsince.stable.trans hstable) hafter (AList.lookup_insert _))
      · refine ⟨_, hsince.trans hlater, hu, hseen, AList.lookup_insert _, ?_, _, _, rfl⟩
        exact hplan _ (hsince.trans hlater).stable hlater.coherent (AList.lookup_insert _)
  · unfold openEnrollment
    cases reuse with
    | some id =>
      refine Routine.wp_bind (hy.inside (fun _ _ h => h) fun s e v z hs hf hz => Routine.wp_pure ?_)
      split at hf
      · obtain ⟨-, rfl⟩ := Prod.mk.inj (Except.ok.inj hf)
        exact ⟨s, _, hs, hz, fun t ht _ _ => (hreuse id rfl).stable ht⟩
      · cases hf
    | none =>
      refine Routine.wp_bind (hy.ask fun id z hz _ _ => ?_)
      refine Routine.wp_bind (hz.inside (fun _ _ h => h) fun s e v z hs hf hz => Routine.wp_pure ?_)
      obtain rfl : v = [.putEnrollment id
          (openedEnrollment dto figures depositKobo childId dto.schoolId none)] := by
        grind
      refine ⟨s, _, hs, hz, fun t ht hcoherent hrow => ?_⟩
      exact (hchild.stable ht).plan hcall hcoherent hrow rfl rfl

theorem Aware.startCharge {s : Db} (hx : Aware call c₀ s none x) (hseen : s ∈ x.seen)
    {figures : DepositCalculation} {charge : GrossUp} {depositKobo : Int} {reference : String}
    {paymentId : Id} {payment : Payment}
    (hstarted : Started call dto figures charge depositKobo reference (paymentId, payment) s)
    {email subaccount : String} {childId : Id} :
    (Enrollment.startCharge env dto figures charge email subaccount reference childId paymentId
      payment).wp store call.sparing (fun r y => call.Answers (.initiated r) y)
      (fun _ _ => True) x := by
  obtain ⟨hrow, hnamed, enrollmentId, now, hpayment⟩ := hstarted
  dsimp only at hrow hnamed hpayment
  have hcharged : call.Charged reference s :=
    ⟨paymentId, payment, hrow, by rw [hpayment]; rfl, hnamed⟩
  unfold Enrollment.startCharge
  refine Routine.wp_bind (hx.ask fun init y hy hlog hkept => ?_)
  cases init with
  | error err =>
    refine Routine.wp_bind (Routine.wp_tryCatch (Routine.wp_bind (Routine.wp_mono
      (fun _ _ _ => Routine.wp_pure (Routine.wp_throw trivial))
      (fun _ _ _ => Routine.wp_pure (Routine.wp_throw trivial))
      (hy.failPaystackPayment hcharged))))
  | ok init =>
    refine Routine.wp_mono ?_ (fun _ _ h => h) (Routine.wp_remember (V := fun u => u = s)
      ⟨s, hkept s hseen, rfl⟩ (?_ : Routine.wp store call.sparing _ (fun r z => z.log = y.log ∧
        r = .started init (Money.toNaira charge.amountCharged)
          (Money.toNaira figures.amountToSchool) (Money.toNaira figures.platformFee)
          (Money.toNaira charge.paystackFee)) (fun _ _ => True) y))
    · rintro r z ⟨⟨hsame, rfl⟩, u, hu, rfl⟩
      rw [← hsame] at hlog
      refine ⟨u, hu, paymentId, payment, hrow, hnamed, ⟨_, hlog, rfl, rfl⟩, ?_, ?_, ?_, ?_⟩
      all_goals
        rw [hpayment]
        rfl
    · refine Routine.wp_bind (hy.outside (fun _ _ _ => trivial) fun t a ws ht hf => ?_)
      split at hf
      · next p hp =>
        obtain ⟨-, rfl⟩ := Prod.mk.inj (Except.ok.inj hf)
        refine ⟨fun hstable _ => Minds.put rfl ?_, fun z _ _ hsame => Routine.wp_pure ⟨hsame, rfl⟩⟩
        have hsameplan : p.enrollmentId = payment.enrollmentId :=
          (ht.stable.payment hrow hp).enrollmentId
        dsimp only
        rw [hsameplan]
        exact hnamed.stable (ht.stable.trans hstable)
      · cases hf

theorem Aware.chargeFirstPayment (hcall : call = .initiateFirstPayment env dto userId)
    (hx : Aware call c₀ c none x) (hclear : call.Clear c) {childId : Id} {reuse : Option Id}
    (hchild : Named dto userId childId c) (hreuse : ∀ id, reuse = some id → call.Names c id)
    {classFee : ClassFee} {subaccount : String} :
    (Enrollment.chargeFirstPayment env dto userId classFee subaccount childId reuse).wp store
      call.sparing (fun r y => call.Answers (.initiated r) y) (fun _ _ => True) x := by
  have hkey : given dto.idempotencyKey = call.key? := by rw [hcall]; rfl
  unfold Enrollment.chargeFirstPayment
  dsimp only
  split
  · exact Routine.wp_throw trivial
  split
  · exact Routine.wp_throw trivial
  refine Routine.wp_bind (hx.read (fun _ _ _ => trivial) fun s y hs hy _ => ?_)
  refine Routine.wp_bind (hy.orThrow (fun _ _ _ => trivial) fun email _ => ?_)
  refine Routine.wp_bind (hy.ask fun uuid y hy _ _ => ?_)
  have hclear := hclear.later hs
  refine Routine.wp_bind (Routine.wp_tryCatch (Routine.wp_bind (Routine.wp_mono
    (fun created z hz => ?_) (fun error z hz => ?_) (hy.createFirstPayment hcall
      (hchild.stable hs.stable) fun id hid => (hreuse id hid).stable hs.stable))))
  · obtain ⟨t, -, hz, hseen, hstarted⟩ := hz
    exact Routine.wp_pure (hz.startCharge hseen hstarted)
  · refine Routine.wp_ite (fun hlost => ?_) fun _ => trivial
    apply hz.replayKey hclear hkey hlost.1
    rintro existing u ⟨t, ht, hrow, -, hnamed, hkeyed⟩
    exact Routine.wp_pure ⟨t, ht, existing.id, existing.row, hrow, hnamed, rfl, Or.inl hkeyed⟩

theorem initiateFirstPayment_confined (hcall : call = .initiateFirstPayment env dto userId)
    (hx : Aware call c₀ c none x) (hhand : call.Admitted → call.KeyInHand c) :
    (Enrollment.initiateFirstPayment env dto userId).wp store call.sparing
      (fun r y => call.Answers (.initiated r) y) (fun _ _ => True) x := by
  have hkey : given dto.idempotencyKey = call.key? := by rw [hcall]; rfl
  unfold Enrollment.initiateFirstPayment
  refine Routine.wp_bind (hx.throwIf (fun _ _ _ => trivial) fun hadmitted => ?_)
  have hadmitted : call.Admitted := by
    rw [hcall]
    simpa [Admitted, KeyedCall.receiptUrl, KeyedCall.userId] using hadmitted
  refine Routine.wp_bind (Routine.wp_mono (fun replayed y hy => ?_) (fun _ _ h => h)
    (hx.replayIntent (hhand hadmitted) hkey))
  cases replayed with
  | some existing =>
    obtain ⟨s, hs, hrow, -, hnamed, hkeyed⟩ := hy
    exact Routine.wp_pure ⟨s, hs, existing.id, existing.row, hrow, hnamed, rfl, Or.inl hkeyed⟩
  | none =>
    obtain ⟨s, hclear, hy⟩ := hy
    refine Routine.wp_bind (Routine.wp_bind (hy.findFirst (fun _ _ _ => trivial)
      fun s₁ found y h₁ hy _ _ => ?_))
    refine hy.orThrow (fun _ _ _ => trivial) fun classFee _ => ?_
    refine Routine.wp_bind (Routine.wp_bind (hy.read (fun _ _ _ => trivial) fun s₂ y h₂ hy _ => ?_))
    refine Routine.wp_bind (hy.orThrow (fun _ _ _ => trivial) fun school _ => ?_)
    refine Routine.wp_bind (hy.throwIf (fun _ _ _ => trivial) fun _ => ?_)
    refine hy.orThrow (fun _ _ _ => trivial) fun subaccount _ => ?_
    refine Routine.wp_bind (Routine.wp_mono (fun target y hy => ?_) (fun _ _ h => h)
      (hy.resolveEnrollmentTarget hcall))
    obtain ⟨s₃, h₃, hy, haimed⟩ := hy
    have hclear := hclear.later ((h₁.trans h₂).trans h₃)
    cases hpending : target.pendingEnrollmentId with
    | none => exact hy.chargeFirstPayment hcall hclear haimed.child haimed.retry
    | some pendingEnrollmentId =>
      have hnamed := haimed.pending pendingEnrollmentId hpending
      refine Routine.wp_bind (Routine.wp_mono (fun pending z hz => ?_) (fun _ _ h => h)
        (hy.resolvePendingFirstPayment hnamed))
      cases pending with
      | some intent => exact Routine.wp_pure hz
      | none =>
        obtain ⟨s₄, h₄, hz⟩ := hz
        refine hz.chargeFirstPayment hcall (hclear.later h₄) (haimed.child.stable h₄.stable) ?_
        rintro id hid
        obtain rfl := Option.some.inj hid
        exact hnamed.stable h₄.stable

end KeyedCall

end Lopay
