import Lopay.Keys.Calls

/-!
# What a call with a key knows while others commit

Every database that the call has seen has come from the one it began on, and rows have gone
on to be about the same thing, with the key of the call still. `Aware` is that knowledge;
the rules below carry it through the Prisma calls, and `Minds` is what the call has to show
for its own commits.
-/

namespace Lopay

open Transactions Enrollment

/-! ### Later databases -/

theorem Db.Owns.stable {s t : Db} (hst : Stable s t) {u k : Id} (h : s.Owns u k) : t.Owns u k := by
  obtain ⟨plan, hplan, hu⟩ := h
  obtain ⟨row, hrow, -⟩ := hst.plan? hplan
  exact ⟨_, hrow, hu⟩

/-- A plan has one owner. -/
theorem Db.Owns.unique {db : Db} {u v k : Id} (hu : db.Owns u k) (hv : db.Owns v k) : u = v := by
  obtain ⟨plan, hplan, rfl⟩ := hu
  obtain ⟨plan', hplan', rfl⟩ := hv
  obtain rfl := Option.some.inj (hplan.symm.trans hplan')
  rfl

/-- A payment of a child of this user. -/
def Db.PaymentOf (db : Db) (userId k : Id) (p : Payment) : Prop :=
  db.payments.lookup k = some p ∧ db.Owns userId p.enrollmentId

/-- The payments of everybody but `userId` are the same. -/
def Spares (userId : Id) (s t : Db) : Prop :=
  ∀ v ≠ userId, ∀ k p, s.PaymentOf v k p ↔ t.PaymentOf v k p

namespace KeyedCall

variable {call : KeyedCall}

theorem Concerns.continues {plan : Plan} {row : ChildEnrollment} (hrow : plan.row.Continues row)
    (h : call.Concerns plan) : call.Concerns { plan with row } := by
  cases call with
  | submitInstallmentPayment => exact h
  | initiateFirstPayment env dto userId =>
    obtain ⟨hschool, hchild⟩ := h
    refine ⟨hrow.schoolId.trans hschool, ?_⟩
    cases hid : given dto.childId with
    | none =>
      rw [hid] at hchild
      exact hchild
    | some childId =>
      rw [hid] at hchild
      exact hrow.childId.trans hchild

theorem Names.stable {s t : Db} (hst : Stable s t) {k : Id} (h : call.Names s k) :
    call.Names t k := by
  obtain ⟨plan, hplan, hu, hconcerns⟩ := h
  obtain ⟨row, hrow, hc⟩ := hst.plan? hplan
  exact ⟨_, hrow, hu, hconcerns.continues hc⟩

theorem Names.owns {s : Db} {k : Id} (h : call.Names s k) : s.Owns call.userId k := by
  obtain ⟨plan, hplan, hu, -⟩ := h
  exact ⟨plan, hplan, hu⟩

/-- A later database, in which the key has been still. -/
structure Later (call : KeyedCall) (s t : Db) : Prop where
  stable : Stable s t
  coherent : Coherent t
  still : call.KeyStill s t

theorem KeyStill.refl (s : Db) : call.KeyStill s s :=
  fun _ _ p _ hp hkey => Or.inr ⟨p, hp, hkey, rfl⟩

theorem KeyStill.trans {s t u : Db} (htu : Stable t u) (h : call.KeyStill s t)
    (h' : call.KeyStill t u) : call.KeyStill s u := by
  intro key k p hcall hp hkey
  rcases h' key k p hcall hp hkey with hnamed | ⟨q, hq, hqkey, hstatus⟩
  · exact Or.inl hnamed
  · rcases h key k q hcall hq hqkey with hnamed | ⟨r, hr, hrkey, hrstatus⟩
    · rw [← (htu.payment hq hp).enrollmentId] at hnamed
      exact Or.inl (hnamed.stable htu)
    · exact Or.inr ⟨r, hr, hrkey, hrstatus.trans hstatus⟩

theorem Later.refl {s : Db} (hs : Coherent s) : call.Later s s := ⟨.refl s, hs, .refl s⟩

theorem Later.trans {s t u : Db} (h : call.Later s t) (h' : call.Later t u) : call.Later s u :=
  ⟨h.stable.trans h'.stable, h'.coherent, h.still.trans h'.stable h'.still⟩

theorem leading {c₀ : Db} : Leading (call.Later c₀) call.Later :=
  ⟨fun _ _ _ => .trans, fun _ _ => .trans⟩

/-- What is in hand stays in hand. -/
theorem KeyInHand.later {s t : Db} (h : call.KeyInHand s) (hst : call.Later s t) :
    call.KeyInHand t := by
  intro key k p hcall hp hkey
  rcases hst.still key k p hcall hp hkey with hnamed | ⟨q, hq, hqkey, hstatus⟩
  · exact ⟨hnamed.owns, fun _ => hnamed⟩
  · obtain ⟨howns, hlive⟩ := h key k q hcall hq hqkey
    rw [(hst.stable.payment hq hp).enrollmentId, ← hstatus]
    exact ⟨howns.stable hst.stable, fun h => (hlive h).stable hst.stable⟩

/-- Every payment under the key is on the plan that the request names. -/
def Clear (call : KeyedCall) (db : Db) : Prop :=
  ∀ key k p, call.key? = some key → db.payments.lookup k = some p →
    p.idempotencyKey = some key → call.Names db p.enrollmentId

theorem Clear.later {s t : Db} (h : call.Clear s) (hst : call.Later s t) : call.Clear t := by
  intro key k p hcall hp hkey
  rcases hst.still key k p hcall hp hkey with hnamed | ⟨q, hq, hqkey, -⟩
  · exact hnamed
  · have hnamed := h key k q hcall hq hqkey
    rw [(hst.stable.payment hq hp).enrollmentId]
    exact hnamed.stable hst.stable

/-- Every payment that a commit of the call changes is on the plan that the request names, or
    is the caller's and loses the key. -/
def Minds (call : KeyedCall) (s t : Db) : Prop :=
  ∀ k p, t.payments.lookup k = some p → s.payments.lookup k = some p ∨
    call.Names t p.enrollmentId ∨ (t.Owns call.userId p.enrollmentId ∧ p.idempotencyKey = none)

theorem Minds.spares {s t : Db} (hst : Stable s t) (hs : Coherent s) (h : call.Minds s t) :
    Spares call.userId s t := by
  have hmine : ∀ p : Payment, call.Names t p.enrollmentId ∨
      (t.Owns call.userId p.enrollmentId ∧ p.idempotencyKey = none) →
      t.Owns call.userId p.enrollmentId := by
    rintro p (h | h)
    · exact h.owns
    · exact h.1
  intro v hv k p
  constructor
  · rintro ⟨hp, howns⟩
    obtain ⟨q, hq, hc⟩ := hst.payments k p hp
    have hafter : t.Owns v q.enrollmentId := by
      rw [hc.enrollmentId]
      exact howns.stable hst
    rcases h k q hq with hsame | hchanged
    · obtain rfl := Option.some.inj (hsame.symm.trans hp)
      exact ⟨hq, hafter⟩
    · exact absurd (hafter.unique (hmine q hchanged)) hv
  · rintro ⟨hp, howns⟩
    rcases h k p hp with hsame | hchanged
    · obtain ⟨e, he, -⟩ := hs.planOf hsame
      obtain ⟨plan, hplan⟩ := hs.plan?_isSome he
      have hbefore : s.Owns plan.parent.userId p.enrollmentId := ⟨plan, hplan, rfl⟩
      obtain rfl := (hbefore.stable hst).unique howns
      exact ⟨hsame, hbefore⟩
    · exact absurd (howns.unique (hmine p hchanged)) hv

theorem Minds.still {s t : Db} (h : call.Minds s t) : call.KeyStill s t := by
  intro key k p _ hp hkey
  rcases h k p hp with hsame | hnamed | ⟨-, hnone⟩
  · exact Or.inr ⟨p, hsame, hkey, rfl⟩
  · exact Or.inl hnamed
  · rw [hkey] at hnone
    cases hnone

/-! ### The contract of a call -/

/-- The others post, and keep the key still. -/
def besideCall (call : KeyedCall) (y : Context) (ws : List Write) : Prop :=
  (∃ kind, Posts Stable kind y.now ws) ∧ call.KeyStill y.now (store.applyAll ws y.now)

/-- A call posts. -/
def posting (y : Context) (ws : List Write) : Prop := ∃ kind, Posts Stable kind y.now ws

/-- A call leaves everybody else's payments alone, given that it posts. -/
abbrev sparing (call : KeyedCall) : Contract Db Write Answer :=
  counting call.besideCall posting fun y ws =>
    Spares call.userId y.now (store.applyAll ws y.now)

theorem besideCall.leap {y : Context} {ws : List Write} (h : call.besideCall y ws)
    (hnow : Coherent y.now) : Leap call.Later y.now (store.applyAll ws y.now) := by
  obtain ⟨⟨kind, hposts⟩, hstill⟩ := h
  obtain ⟨entry, hposting, hmade⟩ := id hposts
  have hafter := hposts.coherent (fun _ h => h) hnow
  exact ⟨⟨hposting.stable hmade, hafter, hstill⟩, .refl hafter⟩

theorem besideCall.steady {c₀ : Db} :
    Steady store call.besideCall (Ctx.Seeing (call.Later c₀) call.Later) :=
  Ctx.Seeing.steady leading fun _ _ hR h => besideCall.leap hR h.now.coherent

/-- A posting of the call that minds is sparing, and leads on. -/
theorem Minds.leap {y : Context} {ws : List Write} (hpost : posting y ws)
    (hs : Coherent y.now) (hminds : Stable y.now (store.applyAll ws y.now) →
      Coherent (store.applyAll ws y.now) → call.Minds y.now (store.applyAll ws y.now)) :
    Spares call.userId y.now (store.applyAll ws y.now) ∧
      Leap call.Later y.now (store.applyAll ws y.now) := by
  obtain ⟨kind, hposts⟩ := hpost
  obtain ⟨entry, hposting, hmade⟩ := id hposts
  have hafter := hposts.coherent (fun _ h => h) hs
  have hstable := hposting.stable hmade
  have h := hminds hstable hafter
  exact ⟨h.spares hstable hs, ⟨hstable, hafter, h.still⟩, .refl hafter⟩

/-! ### Rules for the Prisma calls -/

/-- The call has the open transaction `tx`, and what is committed now has come from `c`. -/
structure Aware (call : KeyedCall) (c₀ c : Db) (tx : Option (List Write)) (x : Context) : Prop where
  seeing : x.Seeing (call.Later c₀) call.Later
  since : call.Later c x.now
  begun : x.tx = tx

namespace Aware

variable {c₀ c s : Db} {tx : Option (List Write)} {ws : List Write} {x y : Context} {α β : Type}
  {ok : α → Context → Prop} {err : Err → Context → Prop}

theorem view (h : Aware call c₀ c tx x) : x.view store = store.applyAll (tx.getD []) x.now := by
  rw [Ctx.view, Ctx.pending, h.begun]

/-- What is true of an earlier database is as good. -/
theorem weaken (h : Aware call c₀ s tx x) (hc : call.Later c s) : Aware call c₀ c tx x :=
  ⟨h.seeing, hc.trans h.since, h.begun⟩

/-- Count from now on. -/
theorem fresh (h : Aware call c₀ c tx x) : Aware call c₀ x.now tx x :=
  ⟨h.seeing, .refl h.since.coherent, h.begun⟩

theorem drift (h : Aware call c₀ c tx x) (hd : Drift store call.besideCall x y) :
    Aware call c₀ c tx y := by
  induction hd with
  | refl => exact h
  | @step z ws _ _ hR _ ih =>
    refine ⟨besideCall.steady.see hR ih.seeing, ?_, ?_⟩
    · rw [Ctx.see_now]
      exact ih.since.trans (besideCall.leap hR ih.since.coherent).1
    · rw [Ctx.see_tx]
      exact ih.begun

/-- A step that commits nothing. -/
theorem moved (h : Aware call c₀ c tx x) (hnow : y.now = x.now) (hpast : y.past = x.past)
    {tx' : Option (List Write)} (htx : y.tx = tx') : Aware call c₀ c tx' y :=
  ⟨h.seeing.moved hnow hpast, by rw [hnow]; exact h.since, htx⟩

theorem wrote_inside (h : Aware call c₀ c (some ws) x) (v : List Write) :
    Aware call c₀ c (some (ws ++ v)) (x.wrote store v) := by
  have hw : x.wrote store v = { x with tx := some (ws ++ v), ran := x.ran + 1 } := by
    unfold Ctx.wrote
    rw [h.begun]
  rw [hw]
  exact h.moved (y := { x with tx := some (ws ++ v), ran := x.ran + 1 }) rfl rfl rfl

theorem wrote_nil (h : Aware call c₀ c tx x) : Aware call c₀ c tx (x.wrote store []) := by
  cases tx with
  | none =>
    have hw : x.wrote store [] = { x with tx := none, ran := x.ran + 1 } := by
      unfold Ctx.wrote
      rw [h.begun]
      rfl
    rw [hw]
    exact h.moved (y := { x with tx := none, ran := x.ran + 1 }) rfl rfl rfl
  | some ws =>
    have hw := h.wrote_inside []
    rw [List.append_nil] at hw
    exact hw

theorem failed (h : Aware call c₀ c tx x) : Aware call c₀ c tx x.failed :=
  h.moved (y := x.failed) rfl rfl h.begun

theorem ask (hx : Aware call c₀ c tx x) {request : Call} {ok : Answer request → Context → Prop}
    (h : ∀ a y, Aware call c₀ c tx y → ⟨request, a⟩ ∈ y.log → (∀ s ∈ x.seen, s ∈ y.seen) →
      ok a y) : (Lopay.ask request).wp store call.sparing ok err x := by
  apply Routine.wp_ask
  intro y hd
  refine ⟨trivial, fun a _ => h a _ ?_ List.mem_cons_self fun s hs => hd.seen_subset s hs⟩
  exact (hx.drift hd).moved (y := y.answered request a) rfl rfl (hx.drift hd).begun

/-- A read: from here on the call counts from the database it has read. -/
theorem read (hx : Aware call c₀ c tx x) {q : Db → α} (herr : ∀ e y, Aware call c₀ c tx y → err e y)
    (h : ∀ s y, call.Later c s → Aware call c₀ s tx y → s ∈ y.seen →
      ok (q (store.applyAll (tx.getD []) s)) y) :
    (Lopay.read q).wp store call.sparing ok err x := by
  apply Routine.wp_query
  intro y hd
  have hy := hx.drift hd
  refine ⟨fun _ => herr _ _ hy.failed, ?_⟩
  rw [hy.view]
  apply h y.now _ hy.since hy.fresh.wrote_nil
  rw [Ctx.seen, Ctx.wrote_now, Ctx.released_nil]
  exact List.mem_cons_self

theorem findFirst (hx : Aware call c₀ c tx x) {q : Db → List α} {ok : Option α → Context → Prop}
    (herr : ∀ e y, Aware call c₀ c tx y → err e y)
    (h : ∀ s o y, call.Later c s → Aware call c₀ s tx y → s ∈ y.seen →
      (∀ a ∈ o, a ∈ q (store.applyAll (tx.getD []) s)) → ok o y) :
    (Lopay.findFirst q).wp store call.sparing ok err x := by
  refine Routine.wp_bind (hx.read herr fun s y hs hy hseen => ?_)
  refine Routine.wp_bind (hy.ask fun order z hz _ hkept => ?_)
  refine Routine.wp_pure (h s _ z hs hz (hkept s hseen) fun a ha => ?_)
  exact mem_of_mem_arrange (List.mem_of_head? ha)

theorem orThrow (hx : Aware call c₀ c tx x) {o : Option α} {e : Err}
    (herr : ∀ e y, Aware call c₀ c tx y → err e y) (h : ∀ a, o = some a → ok a x) :
    (Routine.orThrow o e : Action α).wp store call.sparing ok err x :=
  Routine.wp_orThrow (fun _ => herr e x hx) h

theorem throwIf (hx : Aware call c₀ c tx x) {p : Prop} [Decidable p] {e : Err}
    {ok : Unit → Context → Prop} (herr : ∀ e y, Aware call c₀ c tx y → err e y) (h : ¬ p → ok () x) :
    (Routine.throwIf p e : Action Unit).wp store call.sparing ok err x :=
  Routine.wp_throwIf (fun _ => herr e x hx) h

/-- A statement of an open transaction. -/
theorem inside (hx : Aware call c₀ c (some ws) x) {f : Db → Except Err (α × List Write)}
    (herr : ∀ e y, (∃ ws, Aware call c₀ c (some ws) y) → err e y)
    (h : ∀ s a v y, call.Later c s → f (store.applyAll ws s) = .ok (a, v) →
      Aware call c₀ s (some (ws ++ v)) y → ok a y) :
    (Lopay.statement f).wp store call.sparing ok err x := by
  apply Routine.wp_exec
  intro y hd
  have hy := hx.drift hd
  rw [hy.view]
  refine ⟨fun _ => herr _ _ ⟨ws, hy.failed⟩, fun _ _ => herr _ _ ⟨ws, hy.wrote_nil⟩,
    fun a v hf => ⟨fun hne => ?_, fun _ => h y.now a v _ hy.since hf (hy.fresh.wrote_inside v)⟩⟩
  rw [Ctx.released, hy.begun] at hne
  exact absurd rfl hne

/-- A statement that is committed at once. -/
theorem outside (hx : Aware call c₀ c none x) {f : Db → Except Err (α × List Write)}
    (herr : ∀ e y, Aware call c₀ c none y → err e y)
    (h : ∀ s a ws, call.Later c s → f s = .ok (a, ws) →
      (Stable s (store.applyAll ws s) → Coherent (store.applyAll ws s) →
        call.Minds s (store.applyAll ws s)) ∧
      ∀ y, call.Later s (store.applyAll ws s) →
        Aware call c₀ (store.applyAll ws s) none y → y.log = x.log → ok a y) :
    (Lopay.statement f).wp store call.sparing ok err x := by
  apply Routine.wp_exec
  intro y hd
  have hy := hx.drift hd
  have hview : y.view store = y.now := hy.view
  rw [hview]
  refine ⟨fun _ => herr _ _ hy.failed, fun _ _ => herr _ _ hy.wrote_nil, fun a ws hf => ?_⟩
  obtain ⟨hminds, hok⟩ := h y.now a ws hy.since hf
  rw [Ctx.released_outside hy.begun]
  refine ⟨fun _ hpost => (Minds.leap hpost hy.since.coherent hminds).1, fun hpost => ?_⟩
  have hleap : ws ≠ [] → Leap call.Later y.now (store.applyAll ws y.now) :=
    fun hne => (Minds.leap (hpost hne) hy.since.coherent hminds).2
  have hlater : call.Later y.now (store.applyAll ws y.now) := by
    by_cases hws : ws = []
    · subst hws
      exact .refl hy.since.coherent
    · exact (hleap hws).1
  have hnow : (y.wrote store ws).now = store.applyAll ws y.now := by
    rw [Ctx.wrote_now, Ctx.released_outside hy.begun]
  refine hok _ hlater ⟨?_, ?_, ?_⟩ (by rw [Ctx.wrote_log, hd.log_eq])
  · apply besideCall.steady.wrote hy.seeing
    rw [Ctx.released_outside hy.begun]
    exact fun hne => hy.seeing.see leading fun _ => hleap hne
  · rw [hnow]
    exact .refl hlater.coherent
  · rw [Ctx.wrote_tx, hy.begun]
    rfl

/-- A transaction whose writes mind. -/
theorem transaction (hx : Aware call c₀ c none x) {body : Action α}
    (ok : α → Context → Prop) (err : Err → Context → Prop)
    (herr : ∀ e y, Aware call c₀ c none y → err e y)
    (hbody : ∀ y, Aware call c₀ c (some []) y → body.wp store call.sparing
      (fun a z => ∃ s ws, call.Later c s ∧ Aware call c₀ s (some ws) z ∧ ∀ t, call.Later s t →
        (Stable t (store.applyAll ws t) → Coherent (store.applyAll ws t) →
          call.Minds t (store.applyAll ws t)) ∧
        ∀ y, call.Later t (store.applyAll ws t) →
          Aware call c₀ (store.applyAll ws t) none y → store.applyAll ws t ∈ y.seen → ok a y)
      (fun _ z => ∃ ws, Aware call c₀ c (some ws) z) y) :
    (Lopay.transaction body).wp store call.sparing ok err x := by
  apply Routine.wp_transaction
  intro y hd
  have hopened : Aware call c₀ c (some []) y.opened :=
    (hx.drift hd).moved (y := y.opened) rfl rfl rfl
  refine Routine.wp_mono ?_ ?_ (hbody y.opened hopened)
  · rintro a z ⟨s, ws, hs, hz, hcommit⟩ u hu
    have hknown := hz.drift hu
    have hpending : u.pending = ws := by rw [Ctx.pending, hknown.begun]; rfl
    obtain ⟨hminds, hok⟩ := hcommit u.now hknown.since
    rw [hpending]
    refine ⟨fun _ => ?_, fun _ hpost => (Minds.leap hpost hknown.since.coherent hminds).1,
      fun hpost => ?_⟩
    · exact herr _ _ ((hknown.weaken hs).moved (y := u.closed) rfl rfl rfl)
    have hleap : ws ≠ [] → Leap call.Later u.now (store.applyAll ws u.now) :=
      fun hne => (Minds.leap (hpost hne) hknown.since.coherent hminds).2
    have hlater : call.Later u.now (store.applyAll ws u.now) := by
      by_cases hws : ws = []
      · subst hws
        exact .refl hknown.since.coherent
      · exact (hleap hws).1
    have hnow : (u.closed.see store ws).now = store.applyAll ws u.now := Ctx.see_now store _ ws
    refine hok _ hlater ⟨?_, ?_, ?_⟩ ?_
    · exact (hknown.seeing.moved (y := u.closed) rfl rfl).see leading hleap
    · rw [hnow]
      exact .refl hlater.coherent
    · rw [Ctx.see_tx]
      rfl
    · rw [← hnow]
      exact List.mem_cons_self
  · rintro e z ⟨ws, hz⟩ u hu
    exact herr e _ ((hz.drift hu).moved (y := u.closed) rfl rfl rfl)

end Aware

end KeyedCall

end Lopay
