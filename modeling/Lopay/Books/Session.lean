import Lopay.Books.Preservation

/-!
# What a service method knows while others commit

A running method knows something about the committed database and goes on to know it:
outside a transaction because every commit of the others respects it, inside one also
because of the rows it has locked. `Knows` is that judgement. The rules below say how
each Prisma call extends it, and `Owes` what a method has to show for its own commits.
-/

namespace Lopay

open Transactions

/-- Exchanges with the outside world, newest first. -/
abbrev Exchanges := List (Sigma Answer)

/-! ### What locks protect -/

theorem agree_apply {k : Lock} {s t : Db} (w : Write) (h : agree k s t) :
    agree k (w.apply s) (w.apply t) := by
  cases k with
  | enrollment k =>
    cases w with
    | putEnrollment k' r =>
      simp only [agree, Write.apply, Table.lookup_insert_ite] at h ⊢
      rw [h]
    | deleteEnrollment k' r =>
      simp only [agree, Write.apply, Table.lookup_erase_ite] at h ⊢
      rw [h]
    | _ => exact h
  | payment k =>
    cases w with
    | putPayment k' r =>
      simp only [agree, Write.apply, Table.lookup_insert_ite] at h ⊢
      rw [h]
    | deletePayment k' r =>
      simp only [agree, Write.apply, Table.lookup_erase_ite] at h ⊢
      rw [h]
    | _ => exact h
  | invite k =>
    cases w with
    | putInvite k' r =>
      simp only [agree, Write.apply, Table.lookup_insert_ite] at h ⊢
      rw [h]
    | _ => exact h
  | webhookEvent k =>
    cases w with
    | putWebhookEvent k' r =>
      simp only [agree, Write.apply, Table.lookup_insert_ite] at h ⊢
      rw [h]
    | deleteWebhookEvent k' =>
      simp only [agree, Write.apply, Table.lookup_erase_ite] at h ⊢
      rw [h]
    | _ => exact h
  | idempotencyKey _ | paystackReference _ =>
    cases w with
    | putPayment k' row =>
      intro j p hp hv
      simp only [Write.apply, Table.lookup_insert_ite] at hp ⊢
      split at hp
      · next hj => rw [if_pos hj, hp]
      · next hj =>
        rw [if_neg hj]
        exact h j p hp hv
    | deletePayment k' row =>
      intro j p hp hv
      simp only [Write.apply, Table.lookup_erase_ite] at hp ⊢
      split at hp
      · cases hp
      · next hj =>
        rw [if_neg hj]
        exact h j p hp hv
    | _ => exact h
  | _ => trivial

theorem agree_applyAll {k : Lock} {s t : Db} (ws : List Write) (h : agree k s t) :
    agree k (store.applyAll ws s) (store.applyAll ws t) := by
  induction ws generalizing s t with
  | nil => exact h
  | cons w ws ih => exact ih (agree_apply w h)

/-- Others turn `s` into `t` while the locks of `ws` are held. -/
structure Beside (E : Db → Db → Prop) (ws : List Write) (s t : Db) : Prop where
  env : E s t
  agree : ∀ k ∈ store.locksOf ws, agree k s t
  quiet : ∀ eid, Lock.enrollment eid ∈ store.locksOf ws → Quiet eid s t

namespace Beside

variable {E : Db → Db → Prop} {ws ws' : List Write} {s t : Db}

/-- More locks leave less room. -/
theorem weaken (h : Beside E (ws ++ ws') s t) : Beside E ws s t where
  env := h.env
  agree := fun k hk => h.agree k (by rw [Store.locksOf_append]; exact List.mem_append_left _ hk)
  quiet := fun k hk => h.quiet k (by rw [Store.locksOf_append]; exact List.mem_append_left _ hk)

/-- A locked payment looks the same through any uncommitted writes. -/
theorem payment (h : Beside E ws s t) {k : Id} (hk : Lock.payment k ∈ store.locksOf ws)
    (seen : List Write) : (store.applyAll seen t).payments.lookup k =
      (store.applyAll seen s).payments.lookup k :=
  agree_applyAll seen (h.agree _ hk)

theorem enrollment (h : Beside E ws s t) {k : Id} (hk : Lock.enrollment k ∈ store.locksOf ws)
    (seen : List Write) : (store.applyAll seen t).enrollments.lookup k =
      (store.applyAll seen s).enrollments.lookup k :=
  agree_applyAll seen (h.agree _ hk)

end Beside

/-! ### Sessions -/

/-- The terms on which a method runs: between its steps the committed database moves
    along `E` by postings, `I` relates what it has exchanged to the database, and it may
    make every request but a charge freely. -/
structure Session (K : Contract Db Write Answer) (E : Db → Db → Prop)
    (I : Exchanges → Db → Prop) : Prop where
  refl : ∀ s, E s s
  trans : ∀ s t u, E s t → E t u → E s u
  stable : ∀ s t, E s t → Stable s t
  coherent : ∀ l s, I l s → Coherent s
  rely : ∀ y ws, K.rely y ws → I y.log y.now → E y.now (store.applyAll ws y.now) ∧
    (∃ kind, Posts Stable kind y.now ws) ∧ I y.log (store.applyAll ws y.now)
  answers : ∀ y c a, (∀ params, c ≠ .initializeTransaction params) → K.answers y c a →
    I y.log y.now → I (⟨c, a⟩ :: y.log) y.now
  asks : ∀ y c, (∀ params, c ≠ .initializeTransaction params) → I y.log y.now → K.asks y c

/-- A method that keeps `I` may commit postings of this kind. -/
def Owes (K : Contract Db Write Answer) (E : Db → Db → Prop) (I : Exchanges → Db → Prop)
    (kind : Kind) : Prop :=
  ∀ y ws, I y.log y.now → Posts E kind y.now ws → K.admits y ws →
    K.guarantee y ws ∧ I y.log (store.applyAll ws y.now)

/-- The entry puts anew rows of one school only. -/
structure Entry.Within (entry : Entry) (schoolId : Id) (s : Db) : Prop where
  payment : ∀ k q, entry.payment = some (k, q) →
    ∃ p, s.payments.lookup k = some p ∧ p.schoolId = schoolId
  plan : ∀ k e', entry.plan = some (k, e') →
    ∃ e, s.enrollments.lookup k = some e ∧ e.schoolId = schoolId

/-- The writes `ws`, committed on `s`, make an entry of this kind on rows of one school. -/
def PostsWithin (E : Db → Db → Prop) (kind : Kind) (schoolId : Id) (s : Db) (ws : List Write) :
    Prop :=
  ∃ entry, Posting E s kind entry ∧ entry.Made s (store.applyAll ws s) (store.locksOf ws) ∧
    entry.Within schoolId s

/-- A method that keeps `I` may commit postings of this kind on rows of one school. -/
def OwesWithin (K : Contract Db Write Answer) (E : Db → Db → Prop) (I : Exchanges → Db → Prop)
    (kind : Kind) (schoolId : Id) : Prop :=
  ∀ y ws, I y.log y.now → PostsWithin E kind schoolId y.now ws → K.admits y ws →
    K.guarantee y ws ∧ I y.log (store.applyAll ws y.now)

theorem Owes.within {K : Contract Db Write Answer} {E : Db → Db → Prop} {I : Exchanges → Db → Prop}
    {kind : Kind} (h : Owes K E I kind) (schoolId : Id) : OwesWithin K E I kind schoolId := by
  rintro y ws hI ⟨entry, hposting, hmade, -⟩
  exact h y ws hI ⟨entry, hposting, hmade⟩

/-- A payment and its plan are of one school. -/
theorem Coherent.within {s : Db} (hs : Coherent s) {k schoolId : Id} {p q : Payment}
    {e' : ChildEnrollment} {audit : Option AuditEntry} (hp : s.payments.lookup k = some p)
    (hschool : p.schoolId = schoolId) :
    Entry.Within ⟨some (k, q), some (p.enrollmentId, e'), audit⟩ schoolId s where
  payment := by
    intro k' q' hk
    obtain ⟨rfl, -⟩ := Prod.mk.inj (Option.some.inj hk)
    exact ⟨p, hp, hschool⟩
  plan := by
    intro k' f hk
    obtain ⟨rfl, -⟩ := Prod.mk.inj (Option.some.inj hk)
    obtain ⟨e, he, hsame, -⟩ := hs.planOf hp
    exact ⟨e, he, hsame.symm.trans hschool⟩

/-- Inside a transaction or outside of any, with nothing known beyond `I`. -/
def Rests (I : Exchanges → Db → Prop) (inside : Bool) (x : Context) : Prop :=
  x.tx.isSome = inside ∧ I x.log x.now

/-- The method has the open transaction `tx` and knows `P` of the committed database for
    as long as it has. -/
structure Knows (E : Db → Db → Prop) (I : Exchanges → Db → Prop) (tx : Option (List Write))
    (P : Db → Prop) (x : Context) : Prop where
  begun : x.tx = tx
  inv : I x.log x.now
  holds : P x.now
  keeps : ∀ s t, Beside E (tx.getD []) s t → P s → P t

section Rules

variable {K : Contract Db Write Answer} {E : Db → Db → Prop} {I : Exchanges → Db → Prop}
  {tx : Option (List Write)} {ws : List Write} {P Q : Db → Prop} {x y : Context} {α : Type}
  {kind : Kind}

namespace Knows

theorem pending (h : Knows E I tx P x) : x.pending = tx.getD [] := by
  rw [Ctx.pending, h.begun]

theorem view (h : Knows E I tx P x) : x.view store = store.applyAll (tx.getD []) x.now := by
  rw [Ctx.view, h.pending]

theorem rests (h : Knows E I tx P x) : Rests I tx.isSome x := ⟨by rw [h.begun], h.inv⟩

/-- One commit of somebody else. -/
theorem see (hS : Session K E I) (h : Knows E I tx P x) (hR : K.rely x ws)
    (hfree : ∀ k ∈ store.locksOf ws, k ∉ x.locks store) :
    Knows E I tx P (x.see store ws) := by
  obtain ⟨henv, ⟨kind, entry, hposting, hmade⟩, hinv⟩ := hS.rely x ws hR h.inv
  have hlocks : x.locks store = store.locksOf (tx.getD []) := by rw [Ctx.locks, h.pending]
  refine ⟨by rw [Ctx.see_tx, h.begun], by rw [Ctx.see_log, Ctx.see_now]; exact hinv, ?_, h.keeps⟩
  rw [Ctx.see_now]
  refine h.keeps _ _ ⟨henv, ?_, ?_⟩ h.holds
  · intro k hk
    refine store_frame.applyAll _ fun hmem => hfree k hmem ?_
    rw [hlocks]
    exact hk
  · intro eid hk
    refine hposting.quiet (hS.coherent _ _ h.inv) hmade fun hmem => hfree _ hmem ?_
    rw [hlocks]
    exact hk

theorem drift (hS : Session K E I) (h : Knows E I tx P x) (hd : Drift store K.rely x y) :
    Knows E I tx P y := by
  induction hd with
  | refl => exact h
  | step ws _ _ hR hfree ih => exact ih.see hS hR hfree

theorem coherent (hS : Session K E I) (h : Knows E I tx P x) : Coherent x.now :=
  hS.coherent _ _ h.inv

/-- Add what is true now and stays true. -/
theorem also (h : Knows E I tx P x) (hQ : Q x.now)
    (hkeep : ∀ s t, Beside E (tx.getD []) s t → Q s → Q t) :
    Knows E I tx (fun s => P s ∧ Q s) x where
  begun := h.begun
  inv := h.inv
  holds := ⟨h.holds, hQ⟩
  keeps := fun s t hb hPQ => ⟨h.keeps s t hb hPQ.1, hkeep s t hb hPQ.2⟩

/-- Add that `Q` was true of a database from which the others have come to this one. -/
theorem since (hS : Session K E I) (h : Knows E I tx P x) (hQ : Q x.now) :
    Knows E I tx (fun s => P s ∧ ∃ c, E c s ∧ Coherent c ∧ Q c) x := by
  refine h.also ⟨x.now, hS.refl _, h.coherent hS, hQ⟩ ?_
  rintro s t hb ⟨c, hc, hcoh, hq⟩
  exact ⟨c, hS.trans _ _ _ hc hb.env, hcoh, hq⟩

/-- A step that writes nothing. -/
theorem moved (h : Knows E I tx P x) (htx : y.tx = x.tx) (hlog : y.log = x.log)
    (hnow : y.now = x.now) : Knows E I tx P y where
  begun := htx.trans h.begun
  inv := by rw [hlog, hnow]; exact h.inv
  holds := by rw [hnow]; exact h.holds
  keeps := h.keeps

theorem wrote_nil (h : Knows E I tx P x) : Knows E I tx P (x.wrote store []) := by
  apply h.moved
  · rw [Ctx.wrote_tx]
    cases x.tx with
    | none => rfl
    | some ws => rw [Option.map_some, List.append_nil]
  · exact Ctx.wrote_log store x []
  · rw [Ctx.wrote_now, Ctx.released_nil, Store.applyAll_nil]

theorem failed (h : Knows E I tx P x) : Knows E I tx P x.failed := h.moved rfl rfl rfl

theorem answered (hS : Session K E I) (h : Knows E I tx P x) {c : Call} {a : Answer c}
    (hc : ∀ params, c ≠ .initializeTransaction params) (ha : K.answers x c a) :
    Knows E I tx P (x.answered c a) where
  begun := h.begun
  inv := hS.answers x c a hc ha h.inv
  holds := h.holds
  keeps := h.keeps

/-- Writes inside a transaction, and what their locks let the method go on to know. -/
theorem wrote (h : Knows E I (some ws) P x) {v : List Write} (hQ : Q x.now)
    (hkeep : ∀ s t, Beside E (ws ++ v) s t → Q s → Q t) :
    Knows E I (some (ws ++ v)) (fun s => P s ∧ Q s) (x.wrote store v) := by
  have htx := h.begun
  have hw : x.wrote store v = { x with tx := some (ws ++ v), ran := x.ran + 1 } := by
    unfold Ctx.wrote
    rw [htx]
  rw [hw]
  refine ⟨rfl, h.inv, ⟨h.holds, hQ⟩, ?_⟩
  rintro s t hb ⟨hp, hq⟩
  exact ⟨h.keeps s t hb.weaken hp, hkeep s t hb hq⟩

end Knows

theorem Rests.knows {inside : Bool} (h : Rests I inside x) :
    Knows E I x.tx (fun _ => True) x := ⟨rfl, h.2, trivial, fun _ _ _ _ => trivial⟩

theorem Rests.outside (h : Rests I false x) : Knows E I none (fun _ => True) x where
  begun := Option.isSome_eq_false_iff.mp h.1 |> Option.isNone_iff_eq_none.mp
  inv := h.2
  holds := trivial
  keeps := fun _ _ _ _ => trivial

theorem Rests.drift {inside : Bool} (hS : Session K E I) (h : Rests I inside x)
    (hd : Drift store K.rely x y) : Rests I inside y := by
  have hy := (h.knows (E := E)).drift hS hd
  exact ⟨by rw [hd.tx_eq]; exact h.1, hy.inv⟩

/-! ### Rules for the Prisma calls -/

theorem wp_statement_counted {f : Db → Except Err (α × List Write)} {ok : α → Context → Prop}
    {err : Err → Context → Prop}
    (h : (statement f).wp store K (fun a y => y.ran = x.ran + 1 → ok a y) err x) :
    (statement f).wp store K ok err x :=
  Routine.wp_exec_counted h

theorem wp_read_counted {q : Db → α} {ok : α → Context → Prop} {err : Err → Context → Prop}
    (h : (read q).wp store K (fun a y => y.ran = x.ran + 1 → ok a y) err x) :
    (read q).wp store K ok err x :=
  wp_statement_counted h

namespace Knows

variable {ok : α → Context → Prop}

theorem ask (hS : Session K E I) (hx : Knows E I tx P x) {c : Call}
    {ok : Answer c → Context → Prop} (hc : ∀ params, c ≠ .initializeTransaction params)
    (h : ∀ a y, Knows E I tx P y → ok a y) :
    (Lopay.ask c).wp store K ok (fun _ => Rests I tx.isSome) x := by
  refine Routine.wp_ask fun y hd => ?_
  have hy := hx.drift hS hd
  exact ⟨hS.asks y c hc hy.inv, fun a ha => h a _ (hy.answered hS hc ha)⟩

/-- A read outside any lock tells what was true of some database on the way. -/
theorem read (hS : Session K E I) (hx : Knows E I tx P x) {q : Db → α}
    (h : ∀ v y, Knows E I tx (fun s => P s ∧ ∃ c, E c s ∧ Coherent c ∧
      q (store.applyAll (tx.getD []) c) = v) y → ok v y) :
    (Lopay.read q).wp store K ok (fun _ => Rests I tx.isSome) x := by
  refine Routine.wp_query fun y hd => ?_
  have hy := hx.drift hS hd
  refine ⟨fun _ => hy.failed.rests, h _ _ ?_⟩
  rw [hy.view]
  exact (hy.since hS (Q := fun c => q (store.applyAll (tx.getD []) c) =
    q (store.applyAll (tx.getD []) y.now)) rfl).wrote_nil

/-- Outside a transaction what is read is true right then. -/
theorem read_now (hS : Session K E I) (hx : Knows E I none P x) {q : Db → α}
    (h : ∀ y, Knows E I none (fun s => P s ∧ ∃ c, E c s ∧ Coherent c ∧ q c = q y.now) y →
      ok (q y.now) y) :
    (Lopay.read q).wp store K ok (fun _ => Rests I false) x := by
  refine Routine.wp_query fun y hd => ?_
  have hy := hx.drift hS hd
  have hview : y.view store = y.now := hy.view
  have hnow : (y.wrote store []).now = y.now := by
    rw [Ctx.wrote_now, Ctx.released_nil, Store.applyAll_nil]
  refine ⟨fun _ => hy.failed.rests, ?_⟩
  rw [hview, ← hnow]
  refine h _ ?_
  rw [hnow]
  exact (hy.since hS (Q := fun c => q c = q y.now) rfl).wrote_nil

/-- A read of something that the held locks protect. -/
theorem read_locked (hS : Session K E I) (hx : Knows E I tx P x) {q : Db → α}
    {Q : α → Db → Prop} (hQ : ∀ s, P s → Q (q (store.applyAll (tx.getD []) s)) s)
    (hkeep : ∀ v s t, Beside E (tx.getD []) s t → Q v s → Q v t)
    (h : ∀ v y, Knows E I tx (fun s => P s ∧ Q v s) y → ok v y) :
    (Lopay.read q).wp store K ok (fun _ => Rests I tx.isSome) x := by
  refine Routine.wp_query fun y hd => ?_
  have hy := hx.drift hS hd
  refine ⟨fun _ => hy.failed.rests, h _ _ ?_⟩
  rw [hy.view]
  exact (hy.also (hQ y.now hy.holds) (hkeep _)).wrote_nil

theorem orThrow (hx : Knows E I tx P x) {o : Option α} {e : Err}
    (h : ∀ a, o = some a → ok a x) :
    (Routine.orThrow o e : Action α).wp store K ok (fun _ => Rests I tx.isSome) x :=
  Routine.wp_orThrow (fun _ => hx.rests) h

theorem throwIf (hx : Knows E I tx P x) {c : Prop} [Decidable c] {e : Err}
    {ok : Unit → Context → Prop} (h : ¬ c → ok () x) :
    (Routine.throwIf c e : Action Unit).wp store K ok (fun _ => Rests I tx.isSome) x :=
  Routine.wp_throwIf (fun _ => hx.rests) h

theorem findOrThrow (hS : Session K E I) (hx : Knows E I tx P x) {q : Db → Option α}
    (h : ∀ v y, Knows E I tx (fun s => P s ∧ ∃ c, E c s ∧ Coherent c ∧
      q (store.applyAll (tx.getD []) c) = some v) y → ok v y) :
    (Lopay.findOrThrow q).wp store K ok (fun _ => Rests I tx.isSome) x := by
  refine Routine.wp_bind (hx.read hS fun found y hy => ?_)
  refine hy.orThrow fun v hv => ?_
  subst hv
  exact h v y hy

/-- The same, where what was known held of that database too. -/
theorem findOrThrow_known (hS : Session K E I) (hx : Knows E I tx P x) {q : Db → Option α}
    (h : ∀ v y, Knows E I tx (fun s => P s ∧ ∃ c, E c s ∧ Coherent c ∧ P c ∧
      q (store.applyAll (tx.getD []) c) = some v) y → ok v y) :
    (Lopay.findOrThrow q).wp store K ok (fun _ => Rests I tx.isSome) x := by
  refine Routine.wp_bind (Routine.wp_query fun y hd => ?_)
  have hy := hx.drift hS hd
  refine ⟨fun _ => hy.failed.rests, ?_⟩
  have hread := (hy.since hS (Q := fun c => P c ∧ q (store.applyAll (tx.getD []) c) =
    q (store.applyAll (tx.getD []) y.now)) ⟨hy.holds, rfl⟩).wrote_nil
  rw [hy.view]
  refine Routine.wp_orThrow (fun _ => hread.rests) fun v hv => ?_
  rw [hv] at hread
  exact h v _ hread

/-- The same, with what is read fixed as the row of the database right then. -/
theorem findOrThrow_now (hS : Session K E I) (hx : Knows E I tx P x) {q : Db → Option α}
    (h : ∀ v y, y.ran = x.ran + 1 → q (store.applyAll (tx.getD []) y.now) = some v →
      Knows E I tx P y → ok v y) :
    (Lopay.findOrThrow q).wp store K ok (fun _ => Rests I tx.isSome) x := by
  refine Routine.wp_bind (Routine.wp_query fun y hd => ?_)
  have hy := hx.drift hS hd
  refine ⟨fun _ => hy.failed.rests, ?_⟩
  rw [hy.view]
  refine Routine.wp_orThrow (fun _ => hy.wrote_nil.rests) fun v hv => h v _ ?_ ?_ hy.wrote_nil
  · rw [Ctx.wrote_ran, hd.ran_eq]
  · rw [Ctx.wrote_now, Ctx.released_nil, Store.applyAll_nil]
    exact hv

theorem findFirst (hS : Session K E I) (hx : Knows E I tx P x) {q : Db → List α}
    {ok : Option α → Context → Prop} (h : ∀ o y, Knows E I tx (fun s => P s ∧ ∃ c, E c s ∧
      Coherent c ∧ ∀ v ∈ o, v ∈ q (store.applyAll (tx.getD []) c)) y → ok o y) :
    (Lopay.findFirst q).wp store K ok (fun _ => Rests I tx.isSome) x := by
  refine Routine.wp_bind (hx.read hS fun found y hy => ?_)
  refine Routine.wp_bind (hy.ask hS (fun _ hc => nomatch hc) fun order z hz => ?_)
  refine Routine.wp_pure (h _ z { hz with holds := ?_, keeps := ?_ })
  · obtain ⟨hp, c, hc, hcoh, rfl⟩ := hz.holds
    exact ⟨hp, c, hc, hcoh, fun v hv => mem_of_mem_arrange (List.mem_of_head? hv)⟩
  · rintro s t hb ⟨hp, c, hc, hrest⟩
    exact ⟨hx.keeps s t hb hp, c, hS.trans _ _ _ hc hb.env, hrest⟩

theorem createNotification (hS : Session K E I) (hx : Knows E I tx P x) {n : Notification}
    {ok : Unit → Context → Prop} (h : ∀ y, Knows E I tx P y → ok () y) :
    (Lopay.createNotification n).wp store K ok (fun _ => Rests I tx.isSome) x := by
  refine Routine.wp_bind (hx.ask hS (fun _ hc => nomatch hc) fun delivered y hy => ?_)
  exact hy.throwIf fun _ => h y hy

theorem createNotifications (hS : Session K E I) (hx : Knows E I tx P x)
    {ns : List Notification} {ok : Unit → Context → Prop}
    (h : ∀ y, Knows E I tx P y → ok () y) :
    (Lopay.createNotifications ns).wp store K ok (fun _ => Rests I tx.isSome) x := by
  refine Routine.wp_bind (Routine.wp_mapM hx (fun n _ y hy => ?_) fun delivered y hy => ?_)
  · exact hy.ask hS (fun _ hc => nomatch hc) fun _ z hz => hz
  · exact hy.throwIf fun _ => h y hy

theorem emitChanges (hS : Session K E I) (hx : Knows E I tx P x) {targets : ChangeTargets}
    {ok : Unit → Context → Prop} (h : ∀ y, Knows E I tx P y → ok () y) :
    (Lopay.emitChanges targets).wp store K ok (fun _ => Rests I tx.isSome) x := by
  refine Routine.wp_bind (hx.ask hS (fun _ hc => nomatch hc) fun _ y hy => ?_)
  refine Routine.wp_bind (hy.ask hS (fun _ hc => nomatch hc) fun _ z hz => ?_)
  exact Routine.wp_pure (h z hz)

/-! ### Inside a transaction -/

theorem statement (hS : Session K E I) (hx : Knows E I (some ws) P x)
    {f : Db → Except Err (α × List Write)}
    (h : ∀ a ws' y, Drift store K.rely x y → Knows E I (some ws) P y →
      f (store.applyAll ws y.now) = .ok (a, ws') → ok a (y.wrote store ws')) :
    (Lopay.statement f).wp store K ok (fun _ => Rests I true) x := by
  refine Routine.wp_exec fun y hd => ?_
  have hy := hx.drift hS hd
  refine ⟨fun _ => hy.failed.rests, fun _ _ => hy.wrote_nil.rests, fun a ws' hf =>
    ⟨?_, fun _ => ?_⟩⟩
  · intro hne
    refine absurd ?_ hne
    unfold Ctx.released
    rw [hy.begun]
  · rw [hy.view] at hf
    exact h a ws' y hd hy hf

/-- A write that depends on nothing. -/
theorem log (hS : Session K E I) (hx : Knows E I (some ws) P x) {w : Write}
    {ok : Unit → Context → Prop}
    (h : ∀ y, Knows E I (some (ws ++ [w])) P y → ok () y) :
    (Lopay.statement fun _ => .ok ((), [w])).wp store K ok (fun _ => Rests I true) x := by
  refine hx.statement hS fun a ws' y _ hy hf => ?_
  obtain ⟨rfl, rfl⟩ := Prod.mk.inj (Except.ok.inj hf)
  have hz := hy.wrote (Q := fun _ => True) (v := [w]) trivial (fun _ _ _ _ => trivial)
  exact h _ { hz with holds := hz.holds.1, keeps := fun s t hb hp => hy.keeps s t hb.weaken hp }

/-- Of an audit row only what it is about is of interest. -/
theorem record (hS : Session K E I) (hx : Knows E I (some ws) P x) {a : AuditEntry}
    {ok : Unit → Context → Prop}
    (h : ∀ b y, b.IsAbout a.action a.entityId →
      Knows E I (some (ws ++ [.audit b])) P y → ok () y) :
    (Lopay.record a).wp store K ok (fun _ => Rests I true) x :=
  hx.log hS fun y hy => h a y ⟨rfl, rfl⟩ hy

theorem insertNotification (hS : Session K E I) (hx : Knows E I (some ws) P x)
    {n : Notification} {ok : Unit → Context → Prop}
    (h : ∀ y, Knows E I (some (ws ++ [.notification n])) P y → ok () y) :
    (Lopay.insertNotification n).wp store K ok (fun _ => Rests I true) x := hx.log hS h

theorem updatePayments (hS : Session K E I) (hx : Knows E I (some ws) P x) {id : Id}
    {filter : Payment → Bool} {data : Payment → Payment} {ok : Nat → Context → Prop}
    (hmiss : ∀ u, Drift store K.rely x u →
      (∀ p, (store.applyAll ws u.now).payments.lookup id = some p → ¬ filter p = true) →
      Knows E I (some ws) P (u.wrote store []) → ok 0 (u.wrote store []))
    (hhit : ∀ p y, filter p = true → Knows E I (some (ws ++ [.putPayment id (data p)]))
      (fun s => P s ∧ (store.applyAll ws s).payments.lookup id = some p) y → ok 1 y) :
    (Lopay.updatePayments id filter data).wp store K ok (fun _ => Rests I true) x := by
  refine Routine.wp_exec fun y hd => ?_
  have hy := hx.drift hS hd
  have hreleased : ∀ ws', y.released ws' = [] := by
    intro ws'
    unfold Ctx.released
    rw [hy.begun]
  have hview : y.view store = store.applyAll ws y.now := hy.view
  refine ⟨fun _ => hy.failed.rests, fun _ _ => hy.wrote_nil.rests, fun a ws' hf =>
    ⟨?_, fun _ => ?_⟩⟩
  · exact fun hne => absurd (hreleased ws') hne
  rw [hview] at hf
  split at hf
  · next p hp =>
    split at hf
    · next hfilter =>
      obtain ⟨rfl, rfl⟩ := Prod.mk.inj (Except.ok.inj hf)
      refine hhit p _ hfilter (hy.wrote hp fun s t hb hs => ?_)
      rw [hb.payment (by simp [Write.locks]) ws]
      exact hs
    · next hfilter =>
      obtain ⟨rfl, rfl⟩ := Prod.mk.inj (Except.ok.inj hf)
      refine hmiss y hd (fun q hq => ?_) hy.wrote_nil
      obtain rfl := Option.some.inj (hp.symm.trans hq)
      exact hfilter
  · next hnone =>
    obtain ⟨rfl, rfl⟩ := Prod.mk.inj (Except.ok.inj hf)
    refine hmiss y hd (fun q hq => ?_) hy.wrote_nil
    rw [hq] at hnone
    cases hnone

theorem updateEnrollments (hS : Session K E I) (hx : Knows E I (some ws) P x) {id : Id}
    {filter : ChildEnrollment → Bool} {data : ChildEnrollment → ChildEnrollment}
    {ok : Nat → Context → Prop} (hmiss : ∀ y, Knows E I (some ws) P y → ok 0 y)
    (hhit : ∀ e y, filter e = true → Knows E I (some (ws ++ [.putEnrollment id (data e)]))
      (fun s => P s ∧ (store.applyAll ws s).enrollments.lookup id = some e) y → ok 1 y) :
    (Lopay.updateEnrollments id filter data).wp store K ok (fun _ => Rests I true) x := by
  refine hx.statement hS fun a ws' y _ hy hf => ?_
  split at hf
  · next e he =>
    split at hf
    · next hfilter =>
      obtain ⟨rfl, rfl⟩ := Prod.mk.inj (Except.ok.inj hf)
      refine hhit e _ hfilter (hy.wrote he fun s t hb hs => ?_)
      rw [hb.enrollment (by simp [Write.locks]) ws]
      exact hs
    · obtain ⟨rfl, rfl⟩ := Prod.mk.inj (Except.ok.inj hf)
      exact hmiss _ hy.wrote_nil
  · obtain ⟨rfl, rfl⟩ := Prod.mk.inj (Except.ok.inj hf)
    exact hmiss _ hy.wrote_nil

/-- The row is the one that the others have left, at the moment of the update. -/
theorem updateEnrollment_left (hS : Session K E I) (hx : Knows E I (some ws) P x) {id : Id}
    {data : ChildEnrollment → ChildEnrollment} {ok : ChildEnrollment → Context → Prop}
    (h : ∀ e u y, Drift store K.rely x u →
      (store.applyAll ws u.now).enrollments.lookup id = some e →
      Knows E I (some (ws ++ [.putEnrollment id (data e)]))
        (fun s => P s ∧ (store.applyAll ws s).enrollments.lookup id = some e) y → ok (data e) y) :
    (Lopay.updateEnrollment id data).wp store K ok (fun _ => Rests I true) x := by
  refine hx.statement hS fun a ws' y hd hy hf => ?_
  split at hf
  · next e he =>
    obtain ⟨rfl, rfl⟩ := Prod.mk.inj (Except.ok.inj hf)
    refine h e y _ hd he (hy.wrote he fun s t hb hs => ?_)
    rw [hb.enrollment (by simp [Write.locks]) ws]
    exact hs
  · cases hf

theorem updateEnrollment (hS : Session K E I) (hx : Knows E I (some ws) P x) {id : Id}
    {data : ChildEnrollment → ChildEnrollment} {ok : ChildEnrollment → Context → Prop}
    (h : ∀ e y, Knows E I (some (ws ++ [.putEnrollment id (data e)]))
      (fun s => P s ∧ (store.applyAll ws s).enrollments.lookup id = some e) y → ok (data e) y) :
    (Lopay.updateEnrollment id data).wp store K ok (fun _ => Rests I true) x :=
  hx.updateEnrollment_left hS fun e _ y _ _ hy => h e y hy

/-- An update under a condition: either it ran, or nothing was written. -/
theorem updateEnrollmentIf (hS : Session K E I) (hx : Knows E I (some ws) P x) {c : Prop}
    [Decidable c] {id : Id} {data : ChildEnrollment → ChildEnrollment}
    {ok : Unit → Context → Prop}
    (h : ∀ w y, Knows E I (some (ws ++ w)) (fun s => P s ∧
      ((c ∧ ∃ e, w = [.putEnrollment id (data e)] ∧
        (store.applyAll ws s).enrollments.lookup id = some e) ∨ (¬ c ∧ w = []))) y → ok () y) :
    (Routine.onlyIf c (do
      let _ ← Lopay.updateEnrollment id data)).wp store K ok (fun _ => Rests I true) x := by
  refine Routine.wp_onlyIf (fun hc => ?_) (fun hc => ?_)
  · refine Routine.wp_bind (hx.updateEnrollment hS fun e y hy => ?_)
    refine Routine.wp_pure (h [.putEnrollment id (data e)] y { hy with holds := ?_, keeps := ?_ })
    · exact ⟨hy.holds.1, Or.inl ⟨hc, e, rfl, hy.holds.2⟩⟩
    · rintro s t hb ⟨hp, ⟨-, e', hw, hlook⟩ | ⟨hno, -⟩⟩
      · refine ⟨hx.keeps s t hb.weaken hp, Or.inl ⟨hc, e', hw, ?_⟩⟩
        rw [hb.enrollment (by simp [Write.locks]) ws]
        exact hlook
      · exact absurd hc hno
  · refine h [] x ?_
    rw [List.append_nil]
    exact hx.also (Or.inr ⟨hc, rfl⟩) (fun _ _ _ _ => Or.inr ⟨hc, rfl⟩)

theorem lockEnrollment (hS : Session K E I) (hx : Knows E I (some ws) P x) {id : Id}
    {ok : Option ChildEnrollment → Context → Prop}
    (h : ∀ o y, Knows E I (some (ws ++ [.lockEnrollment id]))
      (fun s => P s ∧ (store.applyAll ws s).enrollments.lookup id = o) y → ok o y) :
    (Lopay.lockEnrollment id).wp store K ok (fun _ => Rests I true) x := by
  refine hx.statement hS fun a ws' y _ hy hf => ?_
  obtain ⟨rfl, rfl⟩ := Prod.mk.inj (Except.ok.inj hf)
  refine h _ _ (hy.wrote rfl fun s t hb hs => ?_)
  rw [hb.enrollment (by simp [Write.locks]) ws]
  exact hs

/-- A new payment: its key is free and stays so, and so do its values under the unique
    indexes. -/
theorem createPayment (hS : Session K E I) (hx : Knows E I (some ws) P x) {id : Id}
    {row : Payment} {ok : Unit → Context → Prop}
    (h : ∀ y, Knows E I (some (ws ++ [.putPayment id row])) (fun s => P s ∧
      (store.applyAll ws s).payments.lookup id = none ∧
      (∀ k q r, (store.applyAll ws s).payments.lookup k = some q → q.paystackReference = some r →
        row.paystackReference ≠ some r) ∧
      ∀ k q key, (store.applyAll ws s).payments.lookup k = some q →
        q.idempotencyKey = some key → row.idempotencyKey ≠ some key) y → ok () y) :
    (Lopay.createPayment id row).wp store K ok (fun _ => Rests I true) x := by
  refine hx.statement hS fun a ws' y _ hy hf => ?_
  split at hf
  · cases hf
  next hfresh =>
  split at hf
  · cases hf
  split at hf
  · cases hf
  next hkey =>
  split at hf
  · cases hf
  next href =>
  obtain ⟨-, rfl⟩ := Prod.mk.inj (Except.ok.inj hf)
  refine h _ (hy.wrote ⟨Option.not_isSome_iff_eq_none.mp hfresh, ?_, ?_⟩
    fun s t hb hs => ⟨?_, ?_, ?_⟩)
  · intro k q r hq hr heq
    refine href ⟨by rw [heq]; rfl, List.any_eq_true.mpr ⟨(k, q), Table.mem_rows.mpr hq, ?_⟩⟩
    rw [hr, heq]
    exact decide_eq_true rfl
  · intro k q key hq hkey' heq
    refine hkey ⟨by rw [heq]; rfl, List.any_eq_true.mpr ⟨(k, q), Table.mem_rows.mpr hq, ?_⟩⟩
    rw [hkey', heq]
    exact decide_eq_true rfl
  · rw [hb.payment (by simp [Write.locks]) ws]
    exact hs.1
  · intro k q r hq hr heq
    have hkept : agree (.paystackReference r) (store.applyAll ws s) (store.applyAll ws t) :=
      agree_applyAll ws (hb.agree _ (by simp [Write.locks, heq]))
    exact hs.2.1 k q r (hkept k q hq hr) hr heq
  · intro k q key hq hkey' heq
    have hkept : agree (.idempotencyKey key) (store.applyAll ws s) (store.applyAll ws t) :=
      agree_applyAll ws (hb.agree _ (by simp [Write.locks, heq]))
    exact hs.2.2 k q key (hkept k q hq hkey') hkey' heq

/-- A new enrollment, as the first write of its transaction. -/
theorem createEnrollment (hS : Session K E I) (hx : Knows E I (some []) P x) {id : Id}
    {row : ChildEnrollment} {ok : Unit → Context → Prop}
    (h : ∀ y, Knows E I (some [.putEnrollment id row]) (fun s => P s ∧
      s.enrollments.lookup id = none ∧ (∃ c, s.children.lookup row.childId = some c) ∧
      ∃ school, s.schools.lookup row.schoolId = some school) y → ok () y) :
    (Lopay.createEnrollment id row).wp store K ok (fun _ => Rests I true) x := by
  refine hx.statement hS fun a ws' y _ hy hf => ?_
  rw [Store.applyAll_nil] at hf
  split at hf
  · cases hf
  next hfresh =>
  split at hf
  · cases hf
  next hexists =>
  split at hf
  · cases hf
  split at hf
  · cases hf
  obtain ⟨-, rfl⟩ := Prod.mk.inj (Except.ok.inj hf)
  rw [not_or, Option.isNone_iff_eq_none, Option.isNone_iff_eq_none] at hexists
  refine h _ (hy.wrote ⟨Option.not_isSome_iff_eq_none.mp hfresh,
    Option.ne_none_iff_exists'.mp hexists.1, Option.ne_none_iff_exists'.mp hexists.2⟩ ?_)
  rintro s t hb ⟨hnone, ⟨c, hc⟩, hschool⟩
  have hst := hS.stable _ _ hb.env
  refine ⟨?_, ⟨c, hst.children _ _ hc⟩, by rw [hst.schools]; exact hschool⟩
  rw [← hnone]
  exact hb.agree (.enrollment id) (by simp [Write.locks])

end Knows

/-! ### Commits -/

/-- Ready to commit: whatever the others still do, what is pending may be committed, and
    afterwards `ok` holds. -/
def Commits (K : Contract Db Write Answer) (I : Exchanges → Db → Prop) (ok : Context → Prop)
    (z : Context) : Prop :=
  ∀ u, Drift store K.rely z u → I u.log u.now ∧
    (u.pending ≠ [] → K.admits u u.pending → K.guarantee u u.pending) ∧
    ((u.pending ≠ [] → K.admits u u.pending) → ok (u.closed.see store u.pending))

namespace Knows

theorem transaction (hS : Session K E I) (hx : Knows E I none P x) {body : Action α}
    {ok : α → Context → Prop}
    (hbody : ∀ y, Drift store K.rely x y → Knows E I (some []) P y.opened →
      body.wp store K (fun a => Commits K I (ok a)) (fun _ => Rests I true) y.opened) :
    (Lopay.transaction body).wp store K ok (fun _ => Rests I false) x := by
  refine Routine.wp_transaction fun y hd => ?_
  have hy := hx.drift hS hd
  have hopened : Knows E I (some []) P y.opened := ⟨rfl, hy.inv, hy.holds, hy.keeps⟩
  refine Routine.wp_mono (fun a z hz u hu => ?_) (fun e z hz u hu => ?_) (hbody y hd hopened)
  · obtain ⟨hinv, hG, hok⟩ := hz u hu
    exact ⟨fun _ => ⟨rfl, hinv⟩, hG, hok⟩
  · exact ⟨rfl, (hz.drift hS hu).2⟩

/-- A commit that is owed in whatever way, before something that knows it. -/
theorem commits_owed (hS : Session K E I) (hx : Knows E I (some ws) P x) {ok : Context → Prop}
    (howed : ∀ u, P u.now → I u.log u.now → K.admits u ws →
      K.guarantee u ws ∧ I u.log (store.applyAll ws u.now))
    (hok : ∀ u, Drift store K.rely x u → P u.now → (ws ≠ [] → K.admits u ws) →
      Rests I false (u.closed.see store ws) → ok (u.closed.see store ws)) : Commits K I ok x := by
  intro u hu
  have hknows := hx.drift hS hu
  have hpending : u.pending = ws := hknows.pending
  rw [hpending]
  refine ⟨hknows.inv, fun _ ha => (howed u hknows.holds hknows.inv ha).1,
    fun ha => hok u hu hknows.holds ha ⟨?_, ?_⟩⟩
  · rw [Ctx.see_tx]
    rfl
  · rw [Ctx.see_log, Ctx.see_now]
    by_cases hws : ws = []
    · rw [hws]
      exact hknows.inv
    · exact (howed u hknows.holds hknows.inv (ha hws)).2

theorem commits (hS : Session K E I) (hx : Knows E I (some ws) P x) {E' : Db → Db → Prop}
    (howes : Owes K E' I kind) {ok : Context → Prop}
    (hpost : ∀ s, P s → Coherent s → Posts E' kind s ws)
    (hok : ∀ u, Drift store K.rely x u → P u.now → Rests I false (u.closed.see store ws) →
      ok (u.closed.see store ws)) : Commits K I ok x :=
  hx.commits_owed hS (fun u hP hI ha => howes u ws hI (hpost u.now hP (hS.coherent _ _ hI)) ha)
    fun u hu hP _ => hok u hu hP

theorem commits_within (hS : Session K E I) (hx : Knows E I (some ws) P x) {E' : Db → Db → Prop}
    {schoolId : Id} (howes : OwesWithin K E' I kind schoolId) {ok : Context → Prop}
    (hpost : ∀ s, P s → Coherent s → PostsWithin E' kind schoolId s ws)
    (hok : ∀ u, Drift store K.rely x u → P u.now → Rests I false (u.closed.see store ws) →
      ok (u.closed.see store ws)) : Commits K I ok x :=
  hx.commits_owed hS (fun u hP hI ha => howes u ws hI (hpost u.now hP (hS.coherent _ _ hI)) ha)
    fun u hu hP _ => hok u hu hP

theorem commits_nothing (hS : Session K E I) (hx : Knows E I (some []) P x)
    {ok : Context → Prop} (hok : ∀ u, Drift store K.rely x u → Knows E I none P u.closed →
      ok u.closed) : Commits K I ok x := by
  intro u hu
  have hknows := hx.drift hS hu
  have hpending : u.pending = [] := hknows.pending
  rw [hpending, Ctx.see_nil]
  exact ⟨hknows.inv, fun h => absurd rfl h, fun _ =>
    hok u hu ⟨rfl, hknows.inv, hknows.holds, hknows.keeps⟩⟩

/-- A statement outside a transaction commits at once. -/
theorem autocommit (hS : Session K E I) (hx : Knows E I none P x) (howes : Owes K E I kind)
    {f : Db → Except Err (α × List Write)} {ok : α → Context → Prop}
    (hpost : ∀ s a ws, P s → Coherent s → f s = .ok (a, ws) → ws = [] ∨ Posts E kind s ws)
    (hok : ∀ a u ws, Drift store K.rely x u → P u.now → f u.now = .ok (a, ws) →
      Rests I false (u.wrote store ws) → ok a (u.wrote store ws)) :
    (Lopay.statement f).wp store K ok (fun _ => Rests I false) x := by
  refine Routine.wp_exec fun y hd => ?_
  have hy := hx.drift hS hd
  refine ⟨fun _ => hy.failed.rests, fun _ _ => hy.wrote_nil.rests, fun a ws hf => ?_⟩
  have hview : y.view store = y.now := hy.view
  have hreleased : y.released ws = ws := by
    unfold Ctx.released
    rw [hy.begun]
  rw [hview] at hf
  rw [hreleased]
  by_cases hws : ws = []
  · subst hws
    exact ⟨fun h => absurd rfl h, fun _ => hok a y [] hd hy.holds hf hy.wrote_nil.rests⟩
  · have hposts := (hpost y.now a ws hy.holds (hy.coherent hS) hf).resolve_left hws
    have howed := howes y ws hy.inv hposts
    refine ⟨fun _ ha => (howed ha).1, fun ha => hok a y ws hd hy.holds hf ⟨?_, ?_⟩⟩
    · rw [Ctx.wrote_tx, hy.begun]
      rfl
    · rw [Ctx.wrote_log, Ctx.wrote_now, hreleased]
      exact (howed (ha hws)).2

end Knows

/-! ### Facts that outlive the method's own commits -/

/-- What every later database keeps may join the invariant. -/
theorem Session.and (hS : Session K E I) (hQ : ∀ s t, Stable s t → Q s → Q t) :
    Session K E (fun l s => I l s ∧ Q s) where
  refl := hS.refl
  trans := hS.trans
  stable := hS.stable
  coherent := fun l s h => hS.coherent l s h.1
  rely := by
    rintro y ws hR ⟨hI, hq⟩
    obtain ⟨hE, hposts, hinv⟩ := hS.rely y ws hR hI
    exact ⟨hE, hposts, hinv, hQ _ _ (hS.stable _ _ hE) hq⟩
  answers := fun y c a hc ha h => ⟨hS.answers y c a hc ha h.1, h.2⟩
  asks := fun y c hc h => hS.asks y c hc h.1

theorem Owes.and (howes : Owes K E I kind) (hQ : ∀ s t, Stable s t → Q s → Q t) :
    Owes K E (fun l s => I l s ∧ Q s) kind := by
  rintro y ws ⟨hI, hq⟩ hposts hadmits
  obtain ⟨hG, hinv⟩ := howes y ws hI hposts hadmits
  obtain ⟨entry, hposting, hmade⟩ := hposts
  exact ⟨hG, hinv, hQ _ _ (hposting.stable hmade) hq⟩

theorem Rests.imp {inside : Bool} {J : Exchanges → Db → Prop} (h : Rests I inside x)
    (hIJ : ∀ l s, I l s → J l s) : Rests J inside x := ⟨h.1, hIJ _ _ h.2⟩

theorem Rests.and {inside : Bool} (h : Rests I inside x) (hq : Q x.now) :
    Rests (fun l s => I l s ∧ Q s) inside x := ⟨h.1, h.2, hq⟩

theorem Rests.left {inside : Bool} (h : Rests (fun l s => I l s ∧ Q s) inside x) :
    Rests I inside x := ⟨h.1, h.2.1⟩

end Rules

end Lopay
