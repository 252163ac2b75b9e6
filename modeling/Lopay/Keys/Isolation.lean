import Lopay.Keys.Charges
import Lopay.Transactions.Possible

/-!
# Idempotency keys and other users

A call with its key in hand, beside any jobs that leave the key still, answers with a payment
on the plan that its request names and changes no payment of anybody else; and a call that
runs alone does so for every course of events exactly if it has its key in hand.
-/

namespace Lopay

open Transactions Enrollment

namespace KeyedCall

variable {call : KeyedCall} {db c₀ c : Db} {x : Context}

def program (call : KeyedCall) : Prog Db Write Answer (Except Err KeyedReply) := call.action.run

/-! ### What a call begins with -/

/-- The key as the request gives it. -/
def idempotencyKey : KeyedCall → Option String
  | submitInstallmentPayment _ _ _ _ idempotencyKey => idempotencyKey
  | initiateFirstPayment _ dto _ => dto.idempotencyKey

/-- The answer when the payment under the key is live. -/
def replay : KeyedCall → PaymentOfPlan → KeyedReply
  | submitInstallmentPayment .., existing =>
    .submitted (installmentReply existing.row existing.plan)
  | initiateFirstPayment .., existing => .initiated (.replay (intentReply existing.row))

theorem given_idempotencyKey : given call.idempotencyKey = call.key? := by
  cases call <;> rfl

/-- A call looks at the receipt path and at its key before anything else. -/
theorem action_eq (call : KeyedCall) : ∃ rest : Option PaymentOfPlan → Action KeyedReply,
    call.action = (do
      assertOwnedReceiptPath call.receiptUrl call.userId
      let replayed ← replayIntent call.idempotencyKey
      rest replayed) ∧ ∀ existing, rest (some existing) = pure (call.replay existing) := by
  cases call with
  | submitInstallmentPayment enrollmentId amountPaid user receiptUrl idempotencyKey =>
    simp only [action, Enrollment.submitInstallmentPayment, map_bind, userId, KeyedCall.receiptUrl,
      KeyedCall.idempotencyKey]
    exact ⟨_, rfl, fun _ => rfl⟩
  | initiateFirstPayment env dto userId =>
    simp only [action, Enrollment.initiateFirstPayment, map_bind, KeyedCall.userId,
      KeyedCall.receiptUrl, KeyedCall.idempotencyKey]
    exact ⟨_, rfl, fun _ => rfl⟩

/-- A request with somebody else's receipt is refused at once. -/
theorem refused (h : ¬ call.Admitted) :
    call.program = .ret (.error (.badRequest "Invalid receipt path")) := by
  obtain ⟨rest, haction, -⟩ := call.action_eq
  have hpath : ownsReceiptPath call.receiptUrl call.userId = false := by
    simpa [Admitted] using h
  unfold program
  rw [haction, assertOwnedReceiptPath, Routine.throwIf, if_pos hpath]
  rfl

/-! ### With the key in hand -/

/-- Every payment under the key is one of the caller's. -/
structure Held (call : KeyedCall) (db : Db) : Prop where
  coherent : Coherent db
  owns : ∀ key k p, call.key? = some key → db.payments.lookup k = some p →
    p.idempotencyKey = some key → db.Owns call.userId p.enrollmentId

theorem Held.forgetting (h : call.Held db) : db.forgetting call = db := by
  have hmine : ∀ r ∈ db.payments.entries, ¬ (call.key?.isSome ∧ r.2.idempotencyKey = call.key? ∧
      (db.plan? r.2.enrollmentId).map (·.parent.userId) ≠ some call.userId) := by
    rintro ⟨k, p⟩ hr ⟨hsome, hkey, htheirs⟩
    obtain ⟨key, hcall⟩ := Option.isSome_iff_exists.mp hsome
    obtain ⟨plan, hplan, hu⟩ := h.owns key k p hcall (AList.mem_lookup_iff.mpr hr)
      (hkey.trans hcall)
    apply htheirs
    rw [hplan, ← hu]
    rfl
  have hrows : (db.forgetting call).payments = db.payments := by
    apply AList.ext
    refine (List.map_congr_left fun r hr => ?_).trans (List.map_id db.payments.entries)
    rw [if_neg (hmine r hr)]
    rfl
  calc db.forgetting call = { db with payments := (db.forgetting call).payments } := rfl
    _ = db := by rw [hrows]

/-- The others keep the key still. -/
theorem Held.still (y : Context) (ws : List Write) (hR : call.besideCall y ws)
    (h : call.Held y.now) : call.Held (store.applyAll ws y.now) := by
  obtain ⟨⟨kind, hposts⟩, hstill⟩ := hR
  obtain ⟨entry, hposting, hmade⟩ := id hposts
  have hstable := hposting.stable hmade
  refine ⟨hposts.coherent (fun _ h => h) h.coherent, fun key k p hcall hp hkey => ?_⟩
  rcases hstill key k p hcall hp hkey with hnamed | ⟨q, hq, hqkey, -⟩
  · exact hnamed.owns
  · rw [(hstable.payment hq hp).enrollmentId]
    exact (h.owns key k q hcall hq hqkey).stable hstable

/-- What the call commits alters nobody else's payment. -/
theorem Held.spared (y : Context) (ws : List Write) (hpost : posting y ws)
    (hspares : Spares call.userId y.now (store.applyAll ws y.now)) (h : call.Held y.now) :
    call.Held (store.applyAll ws y.now) := by
  obtain ⟨kind, hposts⟩ := hpost
  have hafter := hposts.coherent (fun _ h => h) h.coherent
  refine ⟨hafter, fun key k p hcall hp hkey => ?_⟩
  obtain ⟨e, he, -⟩ := hafter.planOf hp
  obtain ⟨plan, hplan⟩ := hafter.plan?_isSome he
  by_cases hmine : plan.parent.userId = call.userId
  · exact ⟨plan, hplan, hmine⟩
  · obtain ⟨hold, howns⟩ := (hspares _ hmine k p).mpr ⟨hp, plan, hplan, rfl⟩
    exact absurd (howns.unique (h.owns key k p hcall hold hkey)) hmine

/-- The contract of a call beside the others. -/
def isolating (call : KeyedCall) : Contract Db Write Answer :=
  .plain call.besideCall fun y ws =>
    posting y ws ∧ Spares call.userId y.now (store.applyAll ws y.now)

/-- The call has answered with a payment on the plan that its request names, and nothing that
    it has seen would have been different without the payments of others under its key. -/
structure Confined (call : KeyedCall) (r : Except Err KeyedReply) (y : Context) : Prop where
  answers : ∀ reply, r = .ok reply → call.Answers reply y
  forgetting : call.Admitted → ∀ s ∈ y.seen, s.forgetting call = s

theorem posts (call : KeyedCall) (hx : Rests (fun _ => Coherent) false x) :
    call.action.wp store (.plain call.besideCall posting) (fun _ => Rests (fun _ => Coherent) false)
      (fun _ => Rests (fun _ => Coherent) false) x := by
  cases call with
  | submitInstallmentPayment enrollmentId amountPaid user receiptUrl idempotencyKey =>
    exact wp_map (fun _ _ h => h) (submitInstallmentPayment_posts postingSession (postingOwes _)
      (postingOwes _) hx)
  | initiateFirstPayment env dto userId =>
    have hT : ChargeTerms (.plain (besideCall (.initiateFirstPayment env dto userId)) posting)
        Stable dto.idempotencyKey (fun _ => Coherent) (fun _ => Coherent) (fun _ _ => Coherent)
        (fun _ _ => Coherent) :=
      ChargeTerms.plain postingSession (fun _ _ _ _ h => h) (fun _ _ => trivial)
        fun kind _ => postingOwes kind
    exact wp_map (fun _ _ h => h.1) (initiateFirstPayment_posts hT rfl hx)

theorem spares (hx : Aware call c₀ c none x) (hhand : call.Admitted → call.KeyInHand c) :
    call.action.wp store call.sparing (fun reply y => call.Answers reply y) (fun _ _ => True) x := by
  have haction : ∀ called : KeyedCall, call = called → called.action.wp store call.sparing
      (fun reply y => call.Answers reply y) (fun _ _ => True) x := by
    intro called hcall
    cases called with
    | submitInstallmentPayment enrollmentId amountPaid user receiptUrl idempotencyKey =>
      exact wp_map (fun _ _ h => h) (submitInstallmentPayment_confined hcall hx hhand)
    | initiateFirstPayment env dto userId =>
      exact wp_map (fun _ _ h => h) (initiateFirstPayment_confined hcall hx hhand)
  exact haction call rfl

/-- A call that starts with its key in hand. -/
theorem program_confined (hdb : Coherent db) (hhand : call.Admitted → call.KeyInHand db) :
    call.program.wp store call.isolating call.Confined (.init db) := by
  have hx : Aware call db db none (.init db) := by
    refine ⟨⟨fun s hs => ?_⟩, .refl hdb, rfl⟩
    obtain rfl := List.mem_singleton.mp hs
    exact ⟨.refl hdb, .refl hdb⟩
  have hboth := Prog.wp_both (call.posts hx.rests) (spares hx hhand)
  by_cases hadmitted : call.Admitted
  · have hheld : call.Held db := ⟨hdb, fun key k p hcall hp hkey =>
      (hhand hadmitted key k p hcall hp hkey).1⟩
    have hseen : ∀ s ∈ (Ctx.init db : Context).seen, call.Held s := by
      intro s hs
      obtain rfl := List.mem_singleton.mp hs
      exact hheld
    refine Prog.wp_mono ?_ (Prog.wp_steady (Steady.always Held.still)
      (fun y ws h hy => Ctx.all_seen_see hy (Held.spared y ws h.1 h.2)) hboth hseen)
    rintro r y ⟨⟨-, hr⟩, hseen⟩
    refine ⟨fun reply hreply => ?_, fun _ s hs => (hseen s hs).forgetting⟩
    subst hreply
    exact hr
  · refine Prog.wp_mono ?_ hboth
    rintro r y ⟨-, hr⟩
    refine ⟨fun reply hreply => ?_, fun h => absurd h hadmitted⟩
    subst hreply
    exact hr

/-! ### Alone -/

/-- With nobody beside it the call answers with a payment on the plan that its request names,
    alters nobody else's payment, and returns what it would if no payment of another user
    carried its key. -/
structure Private (call : KeyedCall) (db : Db) (ch : Nat → Choice Answer) : Prop where
  answers : ∀ reply, (call.program.alone store ch (.init db)).1 = .ok reply →
    call.Answers reply (call.program.alone store ch (.init db)).2
  spares : ∀ c ∈ call.program.commits store ch (.init db),
    Spares call.userId c.1 (store.applyAll c.2 c.1)
  forgetting : (call.program.alone store ch (.init (db.forgetting call))).1 =
    (call.program.alone store ch (.init db)).1

theorem Private.of_keyInHand (hdb : Coherent db) (hhand : call.Admitted → call.KeyInHand db)
    (ch : Nat → Choice Answer) : call.Private db ch := by
  have hwp := program_confined hdb hhand
  have htotal : call.isolating.Total := Contract.plain_total _ _
  constructor
  · exact (Prog.alone_invariant (I := fun _ => True) htotal hwp trivial
      fun _ _ _ _ _ _ => trivial).2.answers
  · rintro ⟨s, ws⟩ hc
    cases ws with
    | nil => exact fun _ _ _ _ => Iff.rfl
    | cons w ws =>
      obtain ⟨y, rfl, -, hspares⟩ := Prog.alone_guarantees htotal hwp _ hc (List.cons_ne_nil w ws)
      exact hspares
  · by_cases hadmitted : call.Admitted
    · have hheld : call.Held db := ⟨hdb, fun key k p hcall hp hkey =>
        (hhand hadmitted key k p hcall hp hkey).1⟩
      rw [hheld.forgetting]
    · rw [refused hadmitted]
      rfl

theorem can_updatePayments {id : Id} {filter : Payment → Bool} {data : Payment → Payment}
    {p : Payment} {ok : Nat → Context → Prop} (hp : (x.view store).payments.lookup id = some p)
    (hfilter : filter p = true) (h : ok 1 (x.wrote store [.putPayment id (data p)])) :
    (updatePayments id filter data).can store ok x := by
  apply Routine.can_exec (a := 1) _ h
  simp only [hp, hfilter, if_true]

/-- A live payment under the key is what the call answers with. -/
theorem can_replay {key : String} {existing : PaymentOfPlan} (hadmitted : call.Admitted)
    (hcall : call.key? = some key) (hfound : db.paymentByIdempotencyKey? key = some existing)
    (hlive : isReplayableIntent existing.row.status = true) :
    call.action.can store (fun reply y => reply = call.replay existing ∧ y.seen = [db])
      (.init db) := by
  obtain ⟨rest, haction, hrest⟩ := call.action_eq
  rw [haction]
  refine Routine.can_bind (Routine.can_throwIf ?_ (Routine.can_bind ?_))
  · rw [Bool.not_eq_false]
    exact hadmitted
  unfold replayIntent
  rw [given_idempotencyKey, hcall]
  refine Routine.can_bind (Routine.can_query ?_)
  simp only [Ctx.view, Ctx.pending, Ctx.init, Option.getD_none, Store.applyAll_nil, hfound, hlive,
    if_true]
  refine Routine.can_pure ?_
  rw [hrest]
  exact Routine.can_pure ⟨rfl, rfl⟩

/-- A settled payment under the key loses it. -/
theorem can_release {key : String} {existing : PaymentOfPlan} (d : Choice Answer)
    (hadmitted : call.Admitted) (hcall : call.key? = some key)
    (hfound : db.paymentByIdempotencyKey? key = some existing)
    (hsettled : isReplayableIntent existing.row.status = false) :
    call.program.can store (fun _ y => y.now.payments.lookup existing.id =
      some { existing.row with idempotencyKey := none }) (.init db) := by
  obtain ⟨hrow, -, -⟩ := Db.paymentByIdempotencyKey?_eq_some hfound
  obtain ⟨rest, haction, -⟩ := call.action_eq
  unfold program
  rw [haction]
  refine Routine.can_run_bind (Routine.can_throwIf ?_ (Routine.can_run_bind ?_))
  · rw [Bool.not_eq_false]
    exact hadmitted
  unfold replayIntent
  rw [given_idempotencyKey, hcall]
  refine Routine.can_bind (Routine.can_query ?_)
  simp only [Ctx.view, Ctx.pending, Ctx.init, Option.getD_none, Store.applyAll_nil, hfound, hsettled,
    Bool.false_eq_true, if_false]
  refine Routine.can_bind (can_updatePayments hrow (decide_eq_true rfl) (Routine.can_pure ?_))
  refine Prog.can_mono ?_ (Prog.can_idle d)
  rintro _ y hy
  rw [hy]
  exact AList.lookup_insert _

/-- What the call answers with about the payment under its key is about no other payment. -/
theorem Describes.enrollmentId {call : KeyedCall} {log : Exchanges} {existing : PaymentOfPlan}
    {k : Id} {p : Payment} (hdb : Coherent db) (hp : db.payments.lookup k = some p)
    (hrow : db.payments.lookup existing.id = some existing.row) (hkeyed : call.Keyed existing.row)
    (h : (call.replay existing).Describes call log db k p) :
    p.enrollmentId = existing.row.enrollmentId := by
  cases call with
  | submitInstallmentPayment =>
    obtain ⟨plan, -, hreply⟩ := h
    have hsame : existing.row = p := congrArg InstallmentReply.payment hreply
    rw [hsame]
  | initiateFirstPayment =>
    obtain ⟨hintent, hidentified⟩ := h
    obtain rfl : k = existing.id := by
      rcases hidentified with ⟨key, hcall, hkey⟩ | hreference
      · obtain ⟨key', hcall', hkey'⟩ := hkeyed
        obtain rfl := Option.some.inj (hcall.symm.trans hcall')
        exact hdb.one_key k existing.id p existing.row key hp hrow hkey hkey'
      · obtain ⟨reference, hgiven⟩ := Option.isSome_iff_exists.mp hreference
        have hsame : existing.row.paystackReference = p.paystackReference :=
          congrArg IntentReply.reference hintent
        exact hdb.one_reference k existing.id p existing.row reference hp hrow (given_eq_some hgiven)
          (hsame.trans (given_eq_some hgiven))
    obtain rfl := Option.some.inj (hp.symm.trans hrow)
    rfl

/-- A call that is private whatever happens has its key in hand. -/
theorem keyInHand_of_private (hdb : Coherent db) (hadmitted : call.Admitted)
    (h : ∀ ch, call.Private db ch) : call.KeyInHand db := by
  intro key k p hcall hp hkey
  obtain ⟨existing, hfound⟩ := Option.ne_none_iff_exists'.mp (hdb.paymentByIdempotencyKey? hp hkey)
  obtain ⟨hrow, hholds, -⟩ := Db.paymentByIdempotencyKey?_eq_some hfound
  obtain rfl := hdb.one_key k existing.id p existing.row key hp hrow hkey hholds
  obtain rfl := Option.some.inj (hp.symm.trans hrow)
  cases hlive : isReplayableIntent existing.row.status with
  | true =>
    -- The call answers with this payment, so it is on the plan that the request names.
    suffices hnamed : call.Names db existing.row.enrollmentId from ⟨hnamed.owns, fun _ => hnamed⟩
    obtain ⟨ch, reply, hreply, rfl, hseen⟩ :=
      Prog.alone_of_can (smoothly "" 0) (can_replay hadmitted hcall hfound hlive)
    obtain ⟨t, ht, k, p, hlookup, hnamed, hdescribes⟩ := (h ch).answers _ hreply
    obtain rfl : t = db := by
      rw [show call.program = call.action.run from rfl, hseen] at ht
      exact List.mem_singleton.mp ht
    rw [← Describes.enrollmentId hdb hlookup hrow ⟨key, hcall, hholds⟩ hdescribes]
    exact hnamed
  | false =>
    refine ⟨?_, fun h => nomatch h⟩
    -- Otherwise the release of the key would alter a payment of its owner.
    by_contra htheirs
    obtain ⟨e, he, -⟩ := hdb.planOf hrow
    obtain ⟨plan, hplan⟩ := hdb.plan?_isSome he
    have hne : plan.parent.userId ≠ call.userId := fun hu => htheirs ⟨plan, hplan, hu⟩
    obtain ⟨ch, hreleased⟩ := Prog.alone_of_can (smoothly "" 0)
      (can_release (smoothly "" 0) hadmitted hcall hfound hlive)
    have hspares : Spares call.userId db (call.program.alone store ch (.init db)).2.now :=
      Prog.commits_relate (x := .init db) (fun _ _ _ _ _ => Iff.rfl)
        (fun _ _ _ h h' v hv k p => (h v hv k p).trans (h' v hv k p)) (h ch).spares
    obtain ⟨hkept, -⟩ := (hspares _ hne _ _).mp ⟨hrow, plan, hplan, rfl⟩
    have hsame := Option.some.inj (hreleased.symm.trans hkept)
    rw [← hsame] at hholds
    cases hholds

end KeyedCall

/-! ### Beside others -/

/-- Something that a user or the service starts: a job, or a call with a key. -/
inductive Errand where
  | job (job : Job)
  | keyed (call : KeyedCall)

namespace Errand

def program : Errand → Prog Db Write Answer (Except Err Reply ⊕ Except Err KeyedReply)
  | job j => Sum.inl <$> j.program
  | keyed call => Sum.inr <$> call.program

def contract : Errand → Contract Db Write Answer
  | job _ => beside Stable (fun _ => True) fun _ => True
  | keyed call => call.isolating

/-- How a call ends; nothing is said about a job. -/
def Ends : Errand → Except Err Reply ⊕ Except Err KeyedReply → Context → Prop
  | keyed call, .inr r, y => call.Confined r y
  | _, _, _ => True

end Errand

/-- The committed database and all that has been started. -/
abbrev Counter := Sys Errand Db Write Answer (Except Err Reply ⊕ Except Err KeyedReply)

/-- A call starts with its key in hand, and while it runs the others keep the key still. -/
def keysInHand (s : Counter) : Event Errand Answer → Counter → Prop
  | .spawn (.keyed call), _ => call.Admitted → call.KeyInHand s.store
  | .spawn (.job _), _ => True
  | .move pid _, s' => ∀ i q call, s.procs[i]? = some q → i ≠ pid → q.job = .keyed call →
      q.prog.finished = false → call.KeyStill s.store s'.store

namespace Errand

theorem contract_posts {e : Errand} {y : Context} {ws : List Write}
    (h : e.contract.guarantee y ws) : KeyedCall.posting y ws := by
  cases e with
  | job j =>
    obtain ⟨kind, -, hposts⟩ := h
    exact ⟨kind, hposts⟩
  | keyed call => exact h.1

theorem discipline : Discipline store program keysInHand contract Ends Coherent := by
  constructor
  · intro s s' e hguard hs
    cases e with
    | job j =>
      refine Prog.wp_bind.mpr (Prog.wp_mono ?_ (Job.wp Moves.any j (fun _ _ => trivial) hs))
      exact fun _ _ _ => trivial
    | keyed call => exact Prog.wp_bind.mpr (KeyedCall.program_confined hs hguard)
  · intro s s' pid ch p c _ _ _
    cases p.job <;> trivial
  · intro s s' pid ch p _ _ _
    cases p.job <;> trivial
  · intro s s' pid ch p ws _ _ _ _ _
    cases p.job <;> trivial
  · intro s s' pid ch p ws _ _ _ hnow hstore hguarantee hs
    obtain ⟨kind, hposts⟩ := contract_posts hguarantee
    rw [hnow] at hposts
    rw [hstore]
    exact hposts.coherent (fun _ h => h) hs
  · intro s s' pid ch p i q ws hguard _ hq hne hrun _ hnow hqnow hstore hguarantee _
    obtain ⟨kind, hposts⟩ := contract_posts hguarantee
    rw [hnow] at hposts
    cases hjob : q.job with
    | job j =>
      refine ⟨kind, trivial, ?_⟩
      rw [hqnow]
      exact hposts
    | keyed call =>
      have hstill := hguard i q call hq hne hjob hrun
      rw [hstore] at hstill
      constructor
      · refine ⟨kind, ?_⟩
        rw [hqnow]
        exact hposts
      · rw [hqnow]
        exact hstill

variable {s s' : Counter}

/-- Every call that has ended is confined. -/
theorem confined (hs : Sys.Reach store program keysInHand Coherent s)
    {p : Proc Errand Db Write Answer (Except Err Reply ⊕ Except Err KeyedReply)} (hp : p ∈ s.procs)
    {call : KeyedCall} (hjob : p.job = .keyed call) {r : Except Err KeyedReply}
    (hr : p.prog.result? = some (.inr r)) : call.Confined r p.ctx := by
  have hwp := ((hs.good discipline fun _ h => h).procs p hp).wp
  cases hprog : p.prog with
  | ret a =>
    rw [hprog] at hr hwp
    obtain rfl := Option.some.inj hr
    rw [hjob] at hwp
    exact hwp
  | _ =>
    rw [hprog] at hr
    cases hr

/-- A call that moves alters nobody else's payment. -/
theorem spares (hs : Sys.Reach store program keysInHand Coherent s) {pid : Nat}
    {ch : Choice Answer} (hstep : s.step store program (.move pid ch) = some s')
    (hguard : keysInHand s (.move pid ch) s')
    {p : Proc Errand Db Write Answer (Except Err Reply ⊕ Except Err KeyedReply)}
    (hp : s.procs[pid]? = some p) {call : KeyedCall} (hjob : p.job = .keyed call) :
    Spares call.userId s.store s'.store := by
  rcases (hs.good discipline fun _ h => h).committed discipline hstep hguard with hsame | hmoved
  · rw [hsame]
    exact fun _ _ _ _ => Iff.rfl
  · obtain ⟨_, _, q, ws, heq, hq, -, hnow, hguarantee, hstore⟩ := hmoved
    cases heq
    obtain rfl := Option.some.inj (hp.symm.trans hq)
    rw [hjob] at hguarantee
    rw [hstore, ← hnow]
    exact hguarantee.2

end Errand

open KeyedCall in
/-- A call that starts with its key in hand, beside others that keep the key still, answers with
    a payment on the plan that its request names, alters nobody else's payment, and nothing that
    it sees would be different without the payments of others under its key. Alone, a call
    does so for every course of events if and only if it has its key in hand. -/
theorem keyed_calls_private (call : KeyedCall) :
    (∀ s : Counter, Sys.Reach store Errand.program keysInHand Coherent s →
      (∀ p ∈ s.procs, p.job = .keyed call → ∀ r, p.prog.result? = some (.inr r) →
        call.Confined r p.ctx) ∧
      ∀ pid ch s' p, s.step store Errand.program (.move pid ch) = some s' →
        keysInHand s (.move pid ch) s' → s.procs[pid]? = some p → p.job = .keyed call →
        Spares call.userId s.store s'.store) ∧
    ∀ db : Db, Coherent db →
      ((call.Admitted → call.KeyInHand db) ↔ ∀ ch, call.Private db ch) := by
  refine ⟨fun s hs => ⟨fun p hp hjob r hr => Errand.confined hs hp hjob hr, ?_⟩, ?_⟩
  · intro pid ch s' p hstep hguard hp hjob
    exact Errand.spares hs hstep hguard hp hjob
  · intro db hdb
    constructor
    · exact fun hhand ch => .of_keyInHand hdb hhand ch
    · exact fun hprivate hadmitted => keyInHand_of_private hdb hadmitted hprivate

/-! ### Two runs -/

/-- Process `pid` runs `e` for `n` steps with nobody in between. -/
def attending (pid : Nat) (e : Errand) (seed : String) (n : Nat) : List (Event Errand Answer) :=
  .spawn e :: (List.range n).map fun i => .move pid (smoothly seed i)

def parentCall : KeyedCall :=
  .initiateFirstPayment environment (enrollment (some "key")) "parent"

/-- The parent opens a card charge under the key, and then `call` is made. -/
def keyUsedAgain (call : KeyedCall) : List (Event Errand Answer) :=
  attending 0 (.keyed parentCall) "a" 18 ++ attending 1 (.keyed call) "b" 1

/-- Nobody else runs, and who starts has its key in hand. -/
def orderly (s : Counter) : Event Errand Answer → Counter → Bool
  | .spawn (.keyed call), _ => decide (call.KeyInHand s.store)
  | .spawn (.job _), _ => true
  | .move pid _, _ => (s.procs.eraseIdx pid).all fun q => q.prog.finished

theorem orderly_keysInHand (s : Counter) (e : Event Errand Answer) (s' : Counter)
    (h : orderly s e s' = true) : keysInHand s e s' := by
  cases e with
  | spawn e =>
    cases e with
    | job j => trivial
    | keyed call => exact fun _ => of_decide_eq_true h
  | move pid ch =>
    intro i q call hq hne hjob hrun
    have hfin := List.all_eq_true.mp h q (List.mem_eraseIdx_iff_getElem?.mpr ⟨i, hne, hq⟩)
    rw [hrun] at hfin
    cases hfin

/-- The call of a process that has answered, its answer and what surrounded it. -/
def answeredCall? (pid : Nat) (s : Counter) : Option (KeyedCall × KeyedReply × Context) :=
  match s.procs[pid]? with
  | some ⟨.keyed call, .ret (.inr (.ok reply)), y⟩ => some (call, reply, y)
  | _ => none

theorem answeredCall?_eq_some {pid : Nat} {s : Counter} {call : KeyedCall} {reply : KeyedReply}
    {y : Context} (h : answeredCall? pid s = some (call, reply, y)) :
    ∃ p ∈ s.procs, p.job = .keyed call ∧ p.prog.result? = some (.inr (.ok reply)) ∧ p.ctx = y := by
  unfold answeredCall? at h
  split at h
  · next hp =>
    cases h
    exact ⟨_, List.mem_of_getElem? hp, rfl, rfl, rfl⟩
  · cases h

/-- The same parent asks again. -/
theorem keyed_calls_private_keyUsedAgain :
    (∃ s p call reply, Sys.exec store Errand.program orderly (keyUsedAgain parentCall)
        (.init oneFamily) = some s ∧ p ∈ s.procs ∧ p.job = .keyed call ∧
      p.prog.result? = some (.inr (.ok reply)) ∧ call.Confined (.ok reply) p.ctx) ∧
    ((parentCall.Admitted → parentCall.KeyInHand oneFamily) ↔
      ∀ ch, parentCall.Private oneFamily ch) := by
  constructor
  · have hruns : ((Sys.exec store Errand.program orderly (keyUsedAgain parentCall)
        (.init oneFamily)).bind (answeredCall? 1)).isSome = true := by
      decide +kernel
    obtain ⟨⟨call, reply, y⟩, hanswered⟩ := Option.isSome_iff_exists.mp hruns
    obtain ⟨s, hs, hanswered⟩ := Option.bind_eq_some_iff.mp hanswered
    obtain ⟨p, hp, hjob, hr, -⟩ := answeredCall?_eq_some hanswered
    have hreach := Sys.reach_of_exec orderly_keysInHand (.init oneFamily_opening.coherent) hs
    exact ⟨s, p, call, reply, hs, hp, hjob, hr,
      ((keyed_calls_private call).1 s hreach).1 p hp hjob _ hr⟩
  · exact (keyed_calls_private parentCall).2 oneFamily oneFamily_opening.coherent

/-- A stranger submits an installment under the key. -/
def strangerCall : KeyedCall :=
  .submitInstallmentPayment "plan" 100 ⟨"stranger", .PARENT, none⟩ none (some "key")

/-- The stranger is answered with the payment of the parent. -/
theorem keyed_calls_private_needs_key_in_hand :
    ¬ ∀ s : Counter, Sys.Reach store Errand.program (fun _ _ _ => True) Opening s →
      ∀ p ∈ s.procs, ∀ call, p.job = .keyed call → ∀ reply,
        p.prog.result? = some (.inr (.ok reply)) → call.Answers reply p.ctx := by
  intro hlaw
  -- No plan that the call has seen is one of a child of the caller.
  have hruns : ((Sys.exec store Errand.program (fun _ _ _ => true) (keyUsedAgain strangerCall)
      (.init oneFamily)).any fun s => (answeredCall? 1 s).any fun (call, _, y) =>
        y.seen.all fun db => db.payments.rows.all fun r =>
          ¬ db.Owns call.userId r.2.enrollmentId) = true := by
    decide +kernel
  obtain ⟨s, hs, hany⟩ := (Option.any_eq_true _ _).mp hruns
  obtain ⟨⟨call, reply, y⟩, hanswered, hseen⟩ := (Option.any_eq_true _ _).mp hany
  obtain ⟨p, hp, hjob, hr, rfl⟩ := answeredCall?_eq_some hanswered
  have hreach : Sys.Reach store Errand.program (fun _ _ _ => True) Opening s :=
    Sys.reach_of_exec (fun _ _ _ _ => trivial) (.init oneFamily_opening) hs
  obtain ⟨db, hdb, k, q, hq, hnamed, -⟩ := hlaw s hreach p hp call hjob reply hr
  have htheirs := List.all_eq_true.mp (List.all_eq_true.mp hseen db hdb) (k, q) (Table.mem_rows.mpr hq)
  exact of_decide_eq_true htheirs hnamed.owns

end Lopay
