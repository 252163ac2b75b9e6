import Lopay.Invites.Bonds
import Lopay.Invites.Tokens
import Lopay.Transactions.Alone

/-!
# Whole operations on invites

Each operation by itself keeps the correspondence between claimed invites and migrated
plans. Most do so statement by statement; a claim and a release break it inside their
transaction and restore it before they commit, and the sweep relies on having read what it
writes.
-/

namespace Lopay

open Transactions

theorem Corresponds.keepsBonds {v : Db} {ws : List Write} (h : KeepsBonds v ws)
    (hv : Corresponds v) : Corresponds (store.applyAll ws v) := hv.bonded h

namespace Invites

section Alone

variable {I : Db → Prop} {s v : Db} {x : Context} {α : Type}

/-- A statement inside a transaction that writes neither invite nor plan nor payment. -/
theorem alone_aside {f : Db → Except Err (α × List Write)} {ok : α → Context → Prop}
    (h : x.Inside store s v) (hf : ∀ a ws, f v = .ok (a, ws) → ∀ w ∈ ws, w.Aside)
    (hok : ∀ a v' y, y.Inside store s v' → Bonded v v' → ok a y) :
    (statement f).alone store I ok x := by
  apply Routine.alone_inside_exec h
  intro a ws hws y hy
  have hbonds : KeepsBonds v ws := AdmitsStill.still v ws (still_asides (hf a ws hws))
  exact hok a _ y hy hbonds

theorem alone_findOrThrow {q : Db → Option α} {ok : α → Context → Prop}
    (h : x.Inside store s v) (hok : ∀ a y, q v = some a → y.Inside store s v → ok a y) :
    (findOrThrow q).alone store I ok x := by
  apply Routine.wp_bind
  apply Routine.alone_inside_query h
  intro y hy
  apply Routine.alone_orThrow
  intro a ha
  exact hok a y ha hy

theorem record_alone {entry : AuditEntry} {ok : Unit → Context → Prop} (h : x.Inside store s v)
    (hok : ∀ y, y.Inside store s (Write.apply (.audit entry) v) → ok () y) :
    (record entry).alone store I ok x := by
  unfold record statement
  apply Routine.alone_inside_exec h
  intro _ ws hws y hy
  simp only [Except.ok.injEq, Prod.mk.injEq] at hws
  obtain ⟨-, rfl⟩ := hws
  exact hok y hy

theorem assertOwnsSchool_alone {actor : AuthUser} {ok : OwnedSchool → Context → Prop}
    (h : x.Outside s) (hok : ∀ school y, y.Outside s → ok school y) :
    (assertOwnsSchool actor).alone store I ok x := by
  unfold assertOwnsSchool
  apply Routine.wp_bind
  apply Routine.alone_orThrow
  intro schoolId _
  apply Routine.wp_bind
  apply Routine.alone_throwIf
  intro _
  apply Routine.wp_bind
  apply Routine.alone_outside_query h
  intro y hy
  apply Routine.wp_bind
  apply Routine.alone_orThrow
  intro school _
  exact hok _ y hy

theorem updateInvites_alone {id : Id} {filter : EnrollmentInvite → Bool}
    {data : EnrollmentInvite → EnrollmentInvite} {ok : Nat → Context → Prop}
    (h : x.Inside store s v) (hnone : ∀ y, y.Inside store s v → ok 0 y)
    (hsome : ∀ i y, v.invites.lookup id = some i → filter i = true →
      y.Inside store s (Write.apply (.putInvite id (data i)) v) → ok 1 y) :
    (updateInvites id filter data).alone store I ok x := by
  apply Routine.alone_inside_exec h
  intro n ws hf y hy
  rcases updateInvites_writes hf with ⟨rfl, rfl⟩ | ⟨rfl, i, hi, hfilter, rfl⟩
  · exact hnone y hy
  · exact hsome i y hi hfilter hy

/-! ### A claim -/

theorem resolveParent_alone {userId : Id} {ok : Id → Context → Prop} (h : x.Inside store s v)
    (hok : ∀ id v' y, y.Inside store s v' → Bonded v v' → ok id y) :
    (resolveParent userId).alone store I ok x := by
  unfold resolveParent
  apply Routine.wp_bind
  apply alone_findOrThrow h
  intro account y _ hy
  apply Routine.wp_bind
  apply Routine.alone_inside_ask hy
  intro id y hy
  apply Routine.wp_bind
  apply alone_aside hy
  · grind [Write.Aside]
  intro _ v' y hy hbonds
  apply Routine.wp_bind
  apply alone_findOrThrow hy
  intro r y _ hy
  exact hok _ v' y hy hbonds

theorem resolveChild_alone {parentId : Id} {invite : EnrollmentInvite} {ok : Id → Context → Prop}
    (h : x.Inside store s v) (hok : ∀ id v' y, y.Inside store s v' → Bonded v v' → ok id y) :
    (resolveChild parentId invite).alone store I ok x := by
  unfold resolveChild
  apply Routine.wp_bind
  apply Routine.alone_inside_ask h
  intro id y hy
  apply Routine.wp_bind
  apply alone_aside hy
  · grind [Write.Aside]
  intro _ v' y hy hbonds
  apply Routine.wp_bind
  apply alone_findOrThrow hy
  intro r y _ hy
  exact hok _ v' y hy hbonds

theorem createEnrollment_alone {k : Id} {row : ChildEnrollment} {ok : Unit → Context → Prop}
    (h : x.Inside store s v)
    (hok : ∀ y, v.origin k = none →
      (∀ id, row.enrollmentInviteId = some id → ∀ k', v.origin k' ≠ some (some id)) →
      y.Inside store s (Write.apply (.putEnrollment k row) v) → ok () y) :
    (createEnrollment k row).alone store I ok x := by
  apply Routine.alone_inside_exec h
  intro a ws hf y hy
  split at hf
  · cases hf
  next hnew =>
  split at hf
  · cases hf
  split at hf
  · cases hf
  split at hf
  · cases hf
  next hfree =>
  simp only [Except.ok.injEq, Prod.mk.injEq] at hf
  obtain ⟨-, rfl⟩ := hf
  refine hok y ?_ ?_ hy
  · simpa [Db.origin] using hnew
  · intro id hid k' hk'
    obtain ⟨e, he, hinvite⟩ := Option.map_eq_some_iff.mp hk'
    apply hfree
    rw [hid]
    exact ⟨rfl, List.any_eq_true.mpr ⟨(k', e), Table.mem_rows.mpr he, decide_eq_true hinvite⟩⟩

theorem createPayment_alone {m : Id} {row : Payment} {ok : Unit → Context → Prop}
    (h : x.Inside store s v)
    (hok : ∀ y, v.entry m = none →
      y.Inside store s (Write.apply (.putPayment m row) v) → ok () y) :
    (createPayment m row).alone store I ok x := by
  apply Routine.alone_inside_exec h
  intro a ws hf y hy
  split at hf
  · cases hf
  next hnew =>
  split at hf
  · cases hf
  split at hf
  · cases hf
  split at hf
  · cases hf
  simp only [Except.ok.injEq, Prod.mk.injEq] at hf
  obtain ⟨-, rfl⟩ := hf
  refine hok y ?_ hy
  simpa [Db.entry] using hnew

/-- A new plan of the invite, with its one migrated payment. -/
structure Opened (inviteId : Id) (v v' : Db) : Prop where
  claimed : v'.claimed = v.claimed
  plan : ∃ k m, v.origin k = none ∧ v.entry m = none ∧
    v'.origin = Function.update v.origin k (some (some inviteId)) ∧
    v'.entry = Function.update v.entry m (some (k, .MIGRATED_PAYMENT))

/-- What is written for a claim. -/
theorem recordMigratedEnrollment_writes {inviteId : Id} {invite : EnrollmentInvite}
    {childId parentUserId : Id} {actor : AuditActor}
    {ok : Ledger.MigratedEnrollment → Context → Prop} (h : x.Inside store s v)
    (hok : ∀ r k m now entry y, v.origin k = none → (∀ k', v.origin k' ≠ some (some inviteId)) →
      v.entry m = none → y.Inside store s (store.applyAll
        [.putEnrollment k (Ledger.migratedEnrollment inviteId invite childId),
          .putPayment m (Ledger.migratedPayment k invite now), .audit entry] v) → ok r y) :
    (Ledger.recordMigratedEnrollment inviteId invite childId parentUserId actor).alone store I ok
      x := by
  unfold Ledger.recordMigratedEnrollment
  apply Routine.wp_bind
  apply Routine.alone_inside_ask h
  intro k y hy
  apply Routine.wp_bind
  apply Routine.alone_rethrow
  apply createEnrollment_alone hy
  intro y hplan hfree hy
  apply Routine.wp_bind
  apply Routine.alone_inside_ask hy
  intro m y hy
  apply Routine.wp_bind
  apply Routine.alone_inside_ask hy
  intro now y hy
  apply Routine.wp_bind
  apply createPayment_alone hy
  intro y hpayment hy
  apply Routine.wp_bind
  apply record_alone hy
  intro y hy
  exact hok _ k m now _ y hplan (hfree inviteId rfl) hpayment hy

theorem recordMigratedEnrollment_alone {inviteId : Id} {invite : EnrollmentInvite}
    {childId parentUserId : Id} {actor : AuditActor}
    {ok : Ledger.MigratedEnrollment → Context → Prop} (h : x.Inside store s v)
    (hok : ∀ r v' y, y.Inside store s v' → Opened inviteId v v' → ok r y) :
    (Ledger.recordMigratedEnrollment inviteId invite childId parentUserId actor).alone store I ok
      x := by
  apply recordMigratedEnrollment_writes h
  intro r k m now entry y hplan _ hpayment hy
  apply hok r _ y hy
  refine ⟨rfl, k, m, hplan, hpayment, ?_, ?_⟩
  · exact origin_putEnrollment v k _
  · exact entry_putPayment _ m _

theorem claimTransaction_alone {found : FoundInvite} {phoneMatched : Option Bool} {user : AuthUser}
    (hnow : x.now = s) (hs : Corresponds s) :
    (claimTransaction found phoneMatched user).alone store Corresponds
      (fun _ y => ∃ t, y.Outside t ∧ Corresponds t) x := by
  unfold claimTransaction
  apply Routine.alone_rethrow
  apply Routine.alone_transaction hnow
  intro y hy
  apply Routine.wp_bind
  apply Routine.alone_inside_ask hy
  intro now y hy
  apply Routine.wp_bind
  apply Routine.alone_inside_ask hy
  intro claimedAt y hy
  apply Routine.wp_bind
  apply updateInvites_alone hy
  · intro y hy
    apply Routine.wp_bind
    apply Routine.alone_throwIf
    exact fun h => absurd rfl h
  intro i y hi hguard hy
  obtain ⟨-, hpending, -⟩ := of_decide_eq_true hguard
  apply Routine.wp_bind
  apply Routine.alone_throwIf
  intro _
  apply Routine.wp_bind
  apply resolveParent_alone hy
  intro parentId v₁ y hy hparent
  apply Routine.wp_bind
  apply resolveChild_alone hy
  intro childId v₂ y hy hchild
  apply recordMigratedEnrollment_alone hy
  intro r v₃ y hy hopened
  have hclaimed : Corresponds v₃ := by
    have hbonds := hparent.trans hchild
    obtain ⟨k, m, hplan, hpayment, horigin, hentry⟩ := hopened.plan
    rw [hbonds.origin] at hplan horigin
    rw [hbonds.entry] at hpayment hentry
    have hfree : s.claimed found.id = false := by simp [Db.claimed, hi, hpending]
    refine hs.claim hfree hplan hpayment ?_ horigin hentry
    rw [hopened.claimed, hbonds.claimed, claimed_putInvite]
    simp
  exact ⟨v₃, hy, hclaimed, fun u hu => ⟨v₃, hu, hclaimed⟩⟩

theorem claim_alone {env : InviteEnvironment} {rawToken : Option String} {user : AuthUser}
    (hx : x.Outside s) (hs : Corresponds s) :
    (claim env rawToken user).alone store Corresponds (fun _ _ => True) x := by
  unfold claim
  have hhere : Corresponds x.now ∧ Corresponds (x.view store) := by
    rw [hx.now, hx.view]
    exact ⟨hs, hs⟩
  have hlookup : Routine.Keeps KeepsBonds (findByToken env rawToken) := inferInstance
  apply hlookup.alone_followed (fun _ _ => Corresponds.keepsBonds) hhere
  intro found y hy
  have hmatch : Routine.Keeps KeepsBonds (claimantPhoneMatches found.row user.userId) :=
    inferInstance
  apply hmatch.alone_followed (fun _ _ => Corresponds.keepsBonds) hy
  intro phoneMatched y hy
  have hfirst : Routine.Keeps KeepsBonds
      (assertNotAlreadyMigrated found.row.schoolId found.row.studentName) := inferInstance
  apply hfirst.alone_followed (fun _ _ => Corresponds.keepsBonds) hy
  intro _ y hy
  refine Routine.Keeps.alone_followed (P := KeepsBonds) inferInstance
    (fun _ _ => Corresponds.keepsBonds) hy fun school y hy => ?_
  refine Routine.Keeps.alone_followed (P := KeepsBonds) inferInstance
    (fun _ _ => Corresponds.keepsBonds) hy fun school y hy => ?_
  apply Routine.wp_bind
  refine Routine.wp_mono (fun result z hz => ?_) (fun _ _ h => h) (claimTransaction_alone rfl hy.1)
  obtain ⟨t, hz, ht⟩ := hz
  exact Routine.Keeps.alone_last (P := KeepsBonds) inferInstance
    (fun _ _ => Corresponds.keepsBonds) hz ht

/-! ### A release -/

theorem lookup_deletePayments (rows : List (Id × Payment)) (v : Db) (m : Id) :
    (store.applyAll (rows.map fun r => .deletePayment r.1 r.2) v).payments.lookup m =
      if m ∈ rows.map (·.1) then none else v.payments.lookup m := by
  induction rows generalizing v with
  | nil => simp
  | cons r rows ih =>
    rw [List.map_cons, Store.applyAll_cons, ih]
    simp only [store_apply, Write.apply, Table.lookup_erase_ite, List.map_cons, List.mem_cons]
    by_cases hm : m ∈ rows.map (·.1)
    · simp [hm]
    · by_cases hr : m = r.1
      · simp [hr]
      · simp [hm, hr]

theorem deletePayments_spares (rows : List (Id × Payment)) (v : Db) :
    (store.applyAll (rows.map fun r => .deletePayment r.1 r.2) v).invites = v.invites ∧
      (store.applyAll (rows.map fun r => .deletePayment r.1 r.2) v).enrollments =
        v.enrollments ∧
      (store.applyAll (rows.map fun r => .deletePayment r.1 r.2) v).children = v.children := by
  induction rows generalizing v with
  | nil => exact ⟨rfl, rfl, rfl⟩
  | cons r rows ih => exact ih _

/-- The payments of a plan are gone. -/
theorem lookup_deletePaymentsOf (k : Id) (v : Db) (m : Id) :
    (store.applyAll ((v.paymentsOf k fun _ => true).map fun r => .deletePayment r.1 r.2)
      v).payments.lookup m = (v.payments.lookup m).filter fun p => p.enrollmentId ≠ k := by
  rw [lookup_deletePayments]
  have hmem : m ∈ (v.paymentsOf k fun _ => true).map (·.1) ↔
      ∃ p, v.payments.lookup m = some p ∧ p.enrollmentId = k := by
    simp only [Db.paymentsOf, List.mem_map, List.mem_filter]
    constructor
    · rintro ⟨r, ⟨hr, hk⟩, rfl⟩
      exact ⟨r.2, Table.mem_rows.mp hr, by simpa using hk⟩
    · rintro ⟨p, hp, hk⟩
      exact ⟨(m, p), ⟨Table.mem_rows.mpr hp, by simpa using hk⟩, rfl⟩
  cases hp : v.payments.lookup m with
  | none =>
    split <;> rfl
  | some p =>
    simp only [hmem, hp, Option.some.injEq, exists_eq_left']
    by_cases hk : p.enrollmentId = k
    · simp [hk, Option.filter]
    · simp [hk, Option.filter]

theorem entry_deletePayments (k : Id) (v : Db) (m : Id) :
    (store.applyAll ((v.paymentsOf k fun _ => true).map fun r => .deletePayment r.1 r.2) v).entry m =
      (v.entry m).filter fun p => p.1 ≠ k := by
  rw [Db.entry, Db.entry, lookup_deletePaymentsOf]
  cases hp : v.payments.lookup m with
  | none => rfl
  | some p =>
    by_cases hk : p.enrollmentId = k
    · simp [hk, Option.filter]
    · simp [hk, Option.filter]

/-- The plan is gone with its payments. -/
structure Removed (k : Id) (v v' : Db) : Prop where
  claimed : v'.claimed = v.claimed
  origin : v'.origin = Function.update v.origin k none
  entry : ∀ m, v'.entry m = (v.entry m).filter fun p => p.1 ≠ k

theorem origin_deleteEnrollment (v : Db) (k : Id) (e : ChildEnrollment) :
    (Write.apply (.deleteEnrollment k e) v).origin = Function.update v.origin k none := by
  funext k'
  simp only [Db.origin, Write.apply, Table.lookup_erase_ite]
  by_cases h : k' = k
  · subst h
    simp
  · simp [h, Db.origin]

theorem deletePayments_alone {k : Id} {ok : Nat → Context → Prop} (h : x.Inside store s v)
    (hok : ∀ n y, y.Inside store s (store.applyAll
      ((v.paymentsOf k fun _ => true).map fun r => .deletePayment r.1 r.2) v) → ok n y) :
    (deletePayments k).alone store I ok x := by
  unfold deletePayments statement
  apply Routine.alone_inside_exec h
  intro n ws hws y hy
  simp only [Except.ok.injEq, Prod.mk.injEq] at hws
  obtain ⟨-, rfl⟩ := hws
  exact hok n y hy

theorem deleteEnrollment_alone {k : Id} {ok : Unit → Context → Prop} (h : x.Inside store s v)
    (hok : ∀ e y, y.Inside store s (Write.apply (.deleteEnrollment k e) v) → ok () y) :
    (deleteEnrollment k).alone store I ok x := by
  apply Routine.alone_inside_exec h
  intro _ ws hws y hy
  split at hws
  · next e he =>
    split at hws
    · cases hws
    · simp only [Except.ok.injEq, Prod.mk.injEq] at hws
      obtain ⟨-, rfl⟩ := hws
      exact hok e y hy
  · cases hws

theorem deleteChild_alone {childId : Id} {ok : Unit → Context → Prop} (h : x.Inside store s v)
    (hok : ∀ c y, y.Inside store s (Write.apply (.deleteChild childId c) v) → ok () y) :
    (deleteChild childId).alone store I ok x := by
  apply Routine.alone_inside_exec h
  intro _ ws hws y hy
  split at hws
  · next c hc =>
    split at hws
    · cases hws
    · simp only [Except.ok.injEq, Prod.mk.injEq] at hws
      obtain ⟨-, rfl⟩ := hws
      exact hok c y hy
  · cases hws

/-- What is written for a release. -/
theorem releaseMigratedEnrollment_writes {k childId inviteId schoolId : Id} {actor : AuditActor}
    {reason : Option String} {ok : Nat → Context → Prop} (h : x.Inside store s v)
    (hok : ∀ n e c entry y, y.Inside store s (store.applyAll
      [.deleteEnrollment k e, .deleteChild childId c, .audit entry]
      (store.applyAll ((v.paymentsOf k fun _ => true).map fun r => .deletePayment r.1 r.2) v)) →
      ok n y) :
    (Ledger.releaseMigratedEnrollment k childId inviteId schoolId actor reason).alone store I ok
      x := by
  unfold Ledger.releaseMigratedEnrollment
  apply Routine.wp_bind
  apply Routine.alone_inside_query h
  intro y hy
  apply Routine.wp_bind
  apply Routine.alone_orThrow
  rintro ⟨enrollment, payments⟩ _
  apply Routine.wp_bind
  apply Routine.alone_throwIf
  intro _
  apply Routine.wp_bind
  apply deletePayments_alone hy
  intro n y hy
  apply Routine.wp_bind
  apply deleteEnrollment_alone hy
  intro e y hy
  apply Routine.wp_bind
  apply deleteChild_alone hy
  intro c y hy
  apply Routine.wp_bind
  apply record_alone hy
  intro y hy
  exact hok n e c _ y hy

theorem releaseMigratedEnrollment_alone {k childId inviteId schoolId : Id} {actor : AuditActor}
    {reason : Option String} {ok : Nat → Context → Prop} (h : x.Inside store s v)
    (hok : ∀ n v' y, y.Inside store s v' → Removed k v v' → ok n y) :
    (Ledger.releaseMigratedEnrollment k childId inviteId schoolId actor reason).alone store I ok
      x := by
  apply releaseMigratedEnrollment_writes h
  intro n e c entry y hy
  apply hok n _ y hy
  obtain ⟨hinvites, henrollments, -⟩ := deletePayments_spares (v.paymentsOf k fun _ => true) v
  constructor
  · funext id
    rw [Db.claimed, Db.claimed, ← hinvites]
    rfl
  · refine (origin_deleteEnrollment _ k e).trans ?_
    congr 1
    funext k'
    rw [Db.origin, Db.origin, henrollments]
  · intro m
    exact entry_deletePayments k v m

theorem lookup_invited {inviteId k : Id} {e : ChildEnrollment}
    (h : s.invited inviteId = some (k, e)) : s.origin k = some (some inviteId) := by
  have hlookup : s.enrollments.lookup k = some e := Table.mem_rows.mp (List.mem_of_find?_eq_some h)
  have hinvite := List.find?_some h
  simp only [decide_eq_true_eq] at hinvite
  rw [Db.origin, hlookup, Option.map_some, hinvite]

theorem release_alone {inviteId : Id} {actor : AuthUser} {reason : Option String}
    (hx : x.Outside s) (hs : Corresponds s) :
    (release inviteId actor reason).alone store Corresponds (fun _ _ => True) x := by
  unfold release
  apply Routine.wp_bind
  apply assertOwnsSchool_alone hx
  intro school y hy
  apply Routine.wp_bind
  apply Routine.alone_outside_query hy
  intro y hy
  apply Routine.wp_bind
  apply Routine.alone_orThrow
  rintro ⟨invite, enrollment⟩ hfound
  apply Routine.wp_bind
  apply Routine.alone_orThrow
  rintro ⟨k, row⟩ hplan
  have horigin : s.origin k = some (some inviteId) := by
    obtain ⟨i, -, hi⟩ := Option.map_eq_some_iff.mp hfound
    obtain ⟨-, henrollment⟩ := Prod.mk.inj hi
    exact lookup_invited (henrollment.trans hplan)
  apply Routine.wp_bind
  apply Routine.alone_transaction hy.now
  intro y hy
  apply Routine.wp_bind
  apply Routine.alone_inside_ask hy
  intro now y hy
  apply Routine.wp_bind
  apply updateInvites_alone hy
  · intro y hy
    apply Routine.wp_bind
    apply Routine.alone_throwIf
    exact fun h => absurd rfl h
  intro i y hi _ hy
  apply Routine.wp_bind
  apply Routine.alone_throwIf
  intro _
  apply Routine.wp_bind
  apply releaseMigratedEnrollment_alone hy
  intro n v y hy hremoved
  have hreleased : Corresponds v := by
    refine hs.release horigin ?_ hremoved.origin hremoved.entry
    rw [hremoved.claimed, claimed_putInvite]
    simp
  refine ⟨v, hy, hreleased, fun u hu => ?_⟩
  cases given invite.claimedByUserId with
  | none =>
    exact Routine.Keeps.alone_last (P := KeepsBonds) inferInstance
      (fun _ _ => Corresponds.keepsBonds) hu hreleased
  | some userId =>
    exact Routine.Keeps.alone_last (P := KeepsBonds) inferInstance
      (fun _ _ => Corresponds.keepsBonds) hu hreleased

/-! ### The sweep -/

/-- Invites that are not claimed are retired. -/
theorem keepsBonds_retire {rows : List (Id × EnrollmentInvite)}
    (h : ∀ r ∈ rows, v.claimed r.1 = false) :
    KeepsBonds v (rows.map fun r => .putInvite r.1 { r.2 with status := .EXPIRED }) := by
  induction rows generalizing v with
  | nil => exact .refl v
  | cons r rows ih =>
    have hhead : KeepsBonds v [.putInvite r.1 { r.2 with status := .EXPIRED }] := by
      apply keepsBonds_putInvite
      rw [h r List.mem_cons_self]
      rfl
    refine hhead.trans (ih fun r' hr' => ?_)
    rw [hhead.claimed]
    exact h r' (List.mem_cons_of_mem r hr')

theorem expireInvites_alone {ids : List Id} {ok : Nat → Context → Prop} (hx : x.Outside s)
    (hs : Corresponds s) (hids : ∀ id ∈ ids, s.claimed id = false)
    (hok : ∀ n t y, y.Outside t → Corresponds t → ok n y) :
    (expireInvites ids).alone store Corresponds ok x := by
  unfold expireInvites statement
  apply Routine.alone_outside_exec hx
  intro n ws hws
  simp only [Except.ok.injEq, Prod.mk.injEq] at hws
  obtain ⟨-, rfl⟩ := hws
  have hlive : ∀ r ∈ s.invites.rows.filter (fun r => r.1 ∈ ids), s.claimed r.1 = false :=
    fun r hr => hids r.1 (of_decide_eq_true (List.mem_filter.mp hr).2)
  have hretired := hs.bonded (keepsBonds_retire hlive)
  exact ⟨hretired, fun y hy => hok n _ y hy hretired⟩

theorem expireStale_alone (hx : x.Outside s) (hs : Corresponds s) :
    expireStale.alone store Corresponds (fun _ _ => True) x := by
  unfold expireStale
  apply Routine.wp_bind
  apply Routine.alone_outside_ask hx
  intro now y hy
  apply Routine.wp_bind
  apply Routine.alone_outside_query hy
  intro y hy
  apply Routine.wp_bind
  apply Routine.alone_outside_ask hy
  intro order y hy
  apply Routine.wp_ite
  · exact fun _ => trivial
  intro _
  apply Routine.wp_bind
  apply expireInvites_alone hy hs
  · intro id hid
    obtain ⟨summary, hsummary, rfl⟩ := List.mem_map.mp hid
    obtain ⟨r, hr, rfl⟩ := List.mem_map.mp (mem_of_mem_arrange hsummary)
    obtain ⟨hmem, hdue⟩ := List.mem_filter.mp hr
    obtain ⟨hstatus, -⟩ := of_decide_eq_true hdue
    have hlive : r.2.status ≠ .CLAIMED := by
      intro h
      simp [h, EXPIRABLE_STATUSES] at hstatus
    have hlookup : s.invites.lookup r.1 = some r.2 := Table.mem_rows.mp hmem
    simp [Db.claimed, hlookup, hlive]
  · intro n t y hy ht
    exact Routine.Keeps.alone_last (P := KeepsBonds) inferInstance
      (fun _ _ => Corresponds.keepsBonds) hy ht

end Alone

end Invites

/-! ### Runs -/

/-- Every operation on invites keeps the correspondence. -/
theorem InviteJob.alone (env : InviteEnvironment) (j : InviteJob) {s : Db} {x : Context}
    (hx : x.Outside s) (hs : Corresponds s) :
    (j.action env).alone store Corresponds (fun _ _ => True) x := by
  cases j with
  | claim rawToken user => exact wp_map (fun _ _ h => h) (Invites.claim_alone hx hs)
  | release inviteId actor reason => exact wp_map (fun _ _ h => h) (Invites.release_alone hx hs)
  | expireStale => exact wp_map (fun _ _ h => h) (Invites.expireStale_alone hx hs)
  | preview rawToken =>
    have hlookup : Routine.Keeps KeepsBonds (Invites.preview env rawToken) := by
      unfold Invites.preview
      infer_instance
    exact wp_map (fun _ _ h => h) (hlookup.alone_last (fun _ _ => Corresponds.keepsBonds) hx hs)
  | create | dispute | revoke | reissue | amend =>
    exact Routine.Keeps.alone_last (P := KeepsBonds) .map (fun _ _ => Corresponds.keepsBonds) hx hs

/-- What the correspondence says of the rows. -/
structure OneToOne (db : Db) : Prop where
  claimed : ∀ id i, db.invites.lookup id = some i → (i.status = .CLAIMED ↔
    ∃! k, ∃ e, db.enrollments.lookup k = some e ∧ e.enrollmentInviteId = some id)
  invited : ∀ k e id, db.enrollments.lookup k = some e → e.enrollmentInviteId = some id →
    (∃ i, db.invites.lookup id = some i ∧ i.status = .CLAIMED) ∧
      ∃! m, ∃ p, db.payments.lookup m = some p ∧ p.enrollmentId = k ∧
        p.paymentType = .MIGRATED_PAYMENT
  uninvited : ∀ k e, db.enrollments.lookup k = some e → e.enrollmentInviteId = none →
    ∀ m p, db.payments.lookup m = some p → p.enrollmentId = k →
      p.paymentType ≠ .MIGRATED_PAYMENT

namespace Db

variable {db : Db}

theorem origin_eq_some {k : Id} {o : Option Id} : db.origin k = some o ↔
    ∃ e, db.enrollments.lookup k = some e ∧ e.enrollmentInviteId = o := by
  rw [origin, Option.map_eq_some_iff]

theorem entry_eq_some {m k : Id} {type : PaymentType} : db.entry m = some (k, type) ↔
    ∃ p, db.payments.lookup m = some p ∧ p.enrollmentId = k ∧ p.paymentType = type := by
  rw [entry, Option.map_eq_some_iff]
  simp only [Prod.mk.injEq]

theorem claimed_eq_true {id : Id} : db.claimed id = true ↔
    ∃ i, db.invites.lookup id = some i ∧ i.status = .CLAIMED := by
  rw [claimed, Option.any_eq_true]
  simp only [decide_eq_true_eq]

end Db

theorem Corresponds.oneToOne {db : Db} (h : Corresponds db) : OneToOne db where
  claimed := by
    intro id i hi
    simp only [← Db.origin_eq_some]
    constructor
    · intro hclaimed
      obtain ⟨k, hk⟩ := h.claimed id (Db.claimed_eq_true.mpr ⟨i, hi, hclaimed⟩)
      exact ⟨k, hk, fun k' hk' => h.unique k' k id hk' hk⟩
    · rintro ⟨k, hk, -⟩
      obtain ⟨i', hi', hclaimed⟩ := Db.claimed_eq_true.mp (h.invited k id hk)
      obtain rfl := Option.some.inj (hi.symm.trans hi')
      exact hclaimed
  invited := by
    intro k e id he hid
    have hk : db.origin k = some (some id) := Db.origin_eq_some.mpr ⟨e, he, hid⟩
    simp only [← Db.entry_eq_some]
    exact ⟨Db.claimed_eq_true.mp (h.invited k id hk), h.opened k id hk⟩
  uninvited := by
    intro k e he hnone m p hp hk htype
    have horigin : db.origin k = some none := Db.origin_eq_some.mpr ⟨e, he, hnone⟩
    exact h.uninvited k m horigin (Db.entry_eq_some.mpr ⟨p, hp, hk, htype⟩)

/-- In every run of whole operations an invite is CLAIMED if and only if exactly one plan
    carries its id; that plan has exactly one migrated payment, and a plan without an invite
    has none. -/
theorem claims_and_plans_correspond (env : InviteEnvironment) {s : Db}
    (hs : Serial store (fun j => (InviteJob.action env j).run) (fun _ _ _ => True) Corresponds s) :
    OneToOne s := by
  refine (Serial.alone_invariant (I := Corresponds) (fun _ h => h) ?_ hs).oneToOne
  exact fun j s h => j.alone env ⟨rfl, rfl⟩ h

theorem invitedInTime_corresponds : Corresponds invitedInTime := by
  have hclaimed : ∀ id, invitedInTime.claimed id = false := by
    intro id
    by_cases hid : id = "invite"
    · subst hid
      rfl
    · simp [Db.claimed, invitedInTime, hid]
  constructor
  · intro id hid
    rw [hclaimed] at hid
    cases hid
  all_goals
    intros
    contradiction

/-- The parent claims the invite, and the school takes it back. -/
def claimedAndReleased : List (InviteJob × (Nat → Choice Answer)) :=
  [(.claim (some firstLink) invitedParent, smoothly "a"),
    (.release "invite" schoolOwner none, smoothly "b")]

theorem claims_and_plans_correspond_released : ∃ s,
    execSerial store (fun j => (InviteJob.action inviteEnvironment j).run) (fun _ _ _ => true)
      claimedAndReleased invitedInTime = some s ∧
    ((s.invites.lookup "invite").any fun i => i.status = .REVOKED) = true ∧ OneToOne s := by
  have hruns : ((execSerial store (fun j => (InviteJob.action inviteEnvironment j).run)
      (fun _ _ _ => true) claimedAndReleased invitedInTime).any fun s =>
        (s.invites.lookup "invite").any fun i => i.status = .REVOKED) = true := by
    decide +kernel
  obtain ⟨s, hs, hreleased⟩ := (Option.any_eq_true _ _).mp hruns
  exact ⟨s, hs, hreleased, claims_and_plans_correspond inviteEnvironment
    (Serial.of_exec (fun _ _ _ _ => trivial) (.init invitedInTime_corresponds) hs)⟩

end Lopay
