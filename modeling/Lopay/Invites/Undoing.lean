import Lopay.Invites.Claims

/-!
# Claims that are taken back

A release removes the plan of a claim with its payments, and the child the plan is for.
Corrections of the plan in between make no difference, and everything else is as it was
before the claim. The child need not be one that the claim has added, though: a claim takes
the child of that name and class that the family has already, if there is one.
-/

namespace Lopay

open Transactions

/-! ### The tables of the families -/

/-- What the schema asks of parents, children, plans and payments. -/
structure Constrained (db : Db) : Prop where
  parented : db.Parented
  enrolled : db.payments.Forall fun _ p => ∃ e, db.enrollments.lookup p.enrollmentId = some e
  one_parent : ∀ k k' r r', db.parents.lookup k = some r → db.parents.lookup k' = some r' →
    r.userId = r'.userId → k = k'

/-- The user has a child of the name and class that the invite gives. -/
def Db.HasChild (db : Db) (userId : Id) (invite : EnrollmentInvite) : Prop :=
  ∃ k c r, db.children.lookup k = some c ∧ c.fullName = invite.studentName ∧
    c.className = invite.className ∧ db.parents.lookup c.parentId = some r ∧ r.userId = userId

/-- The same contents of the tables of children, plans and payments. -/
structure SameFamilies (s t : Db) : Prop where
  children : ∀ k, t.children.lookup k = s.children.lookup k
  enrollments : ∀ k, t.enrollments.lookup k = s.enrollments.lookup k
  payments : ∀ k, t.payments.lookup k = s.payments.lookup k

/-- The tables have not been written, nor has that of the parents. -/
structure Kin (s t : Db) : Prop where
  parents : t.parents = s.parents
  children : t.children = s.children
  enrollments : t.enrollments = s.enrollments
  payments : t.payments = s.payments

theorem Kin.trans {s t u : Db} (h : Kin s t) (h' : Kin t u) : Kin s u where
  parents := h'.parents.trans h.parents
  children := h'.children.trans h.children
  enrollments := h'.enrollments.trans h.enrollments
  payments := h'.payments.trans h.payments

theorem Constrained.kin {s t : Db} (h : Constrained s) (hst : Kin s t) : Constrained t := by
  obtain ⟨hparents, hchildren, henrollments, hpayments⟩ := hst
  constructor
  · intro k c hc
    rw [hchildren] at hc
    rw [hparents]
    exact h.parented k c hc
  · intro k p hp
    rw [hpayments] at hp
    rw [henrollments]
    exact h.enrolled k p hp
  · rw [hparents]
    exact h.one_parent

theorem Kin.sameFamilies {s t u : Db} (h : Kin t u) : SameFamilies s u ↔ SameFamilies s t := by
  constructor
  · rintro ⟨hchildren, henrollments, hpayments⟩
    rw [h.children] at hchildren
    rw [h.enrollments] at henrollments
    rw [h.payments] at hpayments
    exact ⟨hchildren, henrollments, hpayments⟩
  · rintro ⟨hchildren, henrollments, hpayments⟩
    rw [← h.children] at hchildren
    rw [← h.enrollments] at henrollments
    rw [← h.payments] at hpayments
    exact ⟨hchildren, henrollments, hpayments⟩

theorem Kin.hasChild {s t : Db} (h : Kin s t) {userId : Id} {invite : EnrollmentInvite} :
    t.HasChild userId invite ↔ s.HasChild userId invite := by
  rw [Db.HasChild, Db.HasChild, h.children, h.parents]

/-- A statement that writes none of the tables. -/
def KeepsKin (v : Db) (ws : List Write) : Prop := Kin v (store.applyAll ws v)

instance : AdmitsNothing KeepsKin := ⟨fun _ => ⟨rfl, rfl, rfl, rfl⟩⟩

instance (id : Id) (filter : EnrollmentInvite → Bool) (data : EnrollmentInvite → EnrollmentInvite) :
    Routine.Keeps KeepsKin (updateInvites id filter data) := by
  apply Routine.Keeps.exec admits_nil
  intro v a ws hf
  rcases Invites.updateInvites_writes hf with ⟨-, rfl⟩ | ⟨-, i, -, -, rfl⟩
  · exact admits_nil v
  · exact ⟨rfl, rfl, rfl, rfl⟩

section Carries

variable {D : Db → Prop} {x : Context} {α β : Type} {m : Action α} [Routine.Keeps KeepsKin m]

/-- What the tables decide is carried past a part that writes none of them. -/
theorem kin_last (hD : ∀ v w, D v → Kin v w → D w) (hx : D x.now ∧ D (x.view store)) :
    m.alone store (fun _ => True) (fun _ y => D y.now ∧ D (y.view store)) x :=
  Routine.Keeps.alone_carries (P := KeepsKin) inferInstance (fun v _ hkin hv => hD v _ hv hkin)
    (fun _ _ => trivial) hx.1 hx.2

theorem kin_followed {f : α → Action β} {ok : β → Context → Prop}
    (hD : ∀ v w, D v → Kin v w → D w) (hx : D x.now ∧ D (x.view store))
    (hf : ∀ a y, D y.now ∧ D (y.view store) → (f a).alone store (fun _ => True) ok y) :
    (m >>= f).alone store (fun _ => True) ok x :=
  Routine.wp_bind (Routine.wp_mono hf (fun _ _ h => h) (kin_last hD hx))

end Carries

/-! ### What a claim adds and a release removes -/

/-- `t` is `s` with the plan `k` of the invite, which is for the child `c`. -/
structure Planted (inviteId c k : Id) (s t : Db) : Prop where
  child : ∀ c', c' ≠ c → t.children.lookup c' = s.children.lookup c'
  others : ∀ k', k' ≠ k → t.enrollments.lookup k' = s.enrollments.lookup k'
  payments : ∀ m p, p.enrollmentId ≠ k →
    (t.payments.lookup m = some p ↔ s.payments.lookup m = some p)
  plan : ∃ e, t.enrollments.lookup k = some e ∧ e.childId = c
  origin : ∀ k', t.origin k' = some (some inviteId) ↔ k' = k
  new : s.enrollments.lookup k = none

/-- `t` is `s` without the plan `k`, its payments and the child `c`. -/
structure Uprooted (c k : Id) (s t : Db) : Prop where
  children : ∀ c', t.children.lookup c' = if c' = c then none else s.children.lookup c'
  enrollments : ∀ k', t.enrollments.lookup k' = if k' = k then none else s.enrollments.lookup k'
  payments : ∀ m p, t.payments.lookup m = some p ↔
    s.payments.lookup m = some p ∧ p.enrollmentId ≠ k

/-- What has been planted and uprooted is gone, and with it the child. -/
theorem Planted.uprooted {inviteId c k : Id} {s v w : Db} (hs : Constrained s)
    (hv : Planted inviteId c k s v) (hw : Uprooted c k v w) :
    SameFamilies s w ↔ s.children.lookup c = none := by
  constructor
  · intro h
    rw [← h.children c, hw.children, if_pos rfl]
  intro hnone
  constructor
  · intro c'
    rw [hw.children]
    split
    · next heq => rw [heq, hnone]
    · next hne => exact hv.child c' hne
  · intro k'
    rw [hw.enrollments]
    split
    · next heq => rw [heq, hv.new]
    · next hne => exact hv.others k' hne
  · intro m
    apply Option.ext
    intro p
    rw [hw.payments]
    constructor
    · rintro ⟨hp, hne⟩
      exact (hv.payments m p hne).mp hp
    · intro hp
      have hne : p.enrollmentId ≠ k := by
        rintro rfl
        obtain ⟨e, he⟩ := hs.enrolled m p hp
        rw [hv.new] at he
        cases he
      exact ⟨(hv.payments m p hne).mpr hp, hne⟩

/-- What the writes of a release leave. -/
theorem uprooted_release (c k : Id) (v : Db) (e : ChildEnrollment) (r : Child)
    (entry : AuditEntry) : Uprooted c k v (store.applyAll
      [.deleteEnrollment k e, .deleteChild c r, .audit entry]
      (store.applyAll ((v.paymentsOf k fun _ => true).map fun r => .deletePayment r.1 r.2) v)) := by
  obtain ⟨-, henrollments, hchildren⟩ :=
    Invites.deletePayments_spares (v.paymentsOf k fun _ => true) v
  constructor
  · intro c'
    rw [← hchildren]
    exact Table.lookup_erase_ite _ c c'
  · intro k'
    rw [← henrollments]
    exact Table.lookup_erase_ite _ k k'
  · intro m p
    have hgone := Invites.lookup_deletePaymentsOf k v m
    simp only [Store.applyAll_cons, Store.applyAll_nil, store_apply, Write.apply, hgone,
      Option.filter_eq_some_iff, decide_eq_true_eq]

namespace Planted

variable {inviteId c k : Id} {s v w : Db}

theorem kin (h : Planted inviteId c k s v) (hvw : Kin v w) : Planted inviteId c k s w where
  child := by
    rw [hvw.children]
    exact h.child
  others := by
    rw [hvw.enrollments]
    exact h.others
  payments := by
    rw [hvw.payments]
    exact h.payments
  plan := by
    rw [hvw.enrollments]
    exact h.plan
  origin := by
    simp only [Db.origin, hvw.enrollments]
    exact h.origin
  new := h.new

/-- A payment of the plan is restated. -/
theorem putPayment (h : Planted inviteId c k s v) {m : Id} {p p' : Payment}
    (hp : v.payments.lookup m = some p) (hon : p.enrollmentId = k) (hon' : p'.enrollmentId = k) :
    Planted inviteId c k s (Write.apply (.putPayment m p') v) where
  child := h.child
  others := h.others
  payments := by
    intro m' q hq
    rw [← h.payments m' q hq]
    simp only [Write.apply, Table.lookup_insert_ite]
    split
    · next heq =>
      subst heq
      simp only [hp, Option.some.injEq]
      constructor
      · rintro rfl
        exact absurd hon' hq
      · rintro rfl
        exact absurd hon hq
    · exact Iff.rfl
  plan := h.plan
  origin := h.origin
  new := h.new

/-- The plan itself is restated. -/
theorem putEnrollment (h : Planted inviteId c k s v) {e e' : ChildEnrollment}
    (he : v.enrollments.lookup k = some e) (hchild : e'.childId = e.childId)
    (hinvite : e'.enrollmentInviteId = e.enrollmentInviteId) :
    Planted inviteId c k s (Write.apply (.putEnrollment k e') v) where
  child := h.child
  others := by
    intro k' hk'
    rw [← h.others k' hk']
    exact AList.lookup_insert_ne hk'
  payments := h.payments
  plan := by
    obtain ⟨e₀, he₀, hc⟩ := h.plan
    obtain rfl := Option.some.inj (he.symm.trans he₀)
    exact ⟨e', AList.lookup_insert v.enrollments, hchild.trans hc⟩
  origin := by
    intro k'
    have hkept : KeepsBonds v [.putEnrollment k e'] := keepsBonds_putEnrollment he hinvite
    rw [← h.origin k', ← hkept.origin]
    rfl
  new := h.new

/-- What the writes of a claim leave. -/
theorem recorded {invite : EnrollmentInvite} {m : Id} {now : Int} {entry : AuditEntry}
    (hchild : ∀ c', c' ≠ c → v.children.lookup c' = s.children.lookup c')
    (hplans : v.enrollments = s.enrollments) (hpayments : v.payments = s.payments)
    (hplan : v.origin k = none) (hfree : ∀ k', v.origin k' ≠ some (some inviteId))
    (hpayment : v.entry m = none) :
    Planted inviteId c k s (store.applyAll
      [.putEnrollment k (Ledger.migratedEnrollment inviteId invite c),
        .putPayment m (Ledger.migratedPayment k invite now), .audit entry] v) where
  child := hchild
  others := by
    intro k' hk'
    rw [← hplans]
    exact AList.lookup_insert_ne hk'
  payments := by
    intro m' p hp
    rw [Db.entry, Option.map_eq_none_iff, hpayments] at hpayment
    simp only [Store.applyAll_cons, Store.applyAll_nil, store_apply, Write.apply,
      Table.lookup_insert_ite, hpayments]
    split
    · next heq =>
      subst heq
      rw [hpayment]
      constructor
      · intro hrow
        rw [← Option.some.inj hrow] at hp
        exact absurd rfl hp
      · intro hrow
        cases hrow
    · exact Iff.rfl
  plan := ⟨_, AList.lookup_insert v.enrollments, rfl⟩
  origin := by
    intro k'
    have horigin := origin_putEnrollment v k (Ledger.migratedEnrollment inviteId invite c)
    have hwritten : (Write.apply (.putEnrollment k (Ledger.migratedEnrollment inviteId invite c))
        v).origin k' = some (some inviteId) ↔ k' = k := by
      rw [horigin]
      by_cases heq : k' = k
      · subst heq
        simp [Ledger.migratedEnrollment]
      · rw [Function.update_of_ne heq]
        exact iff_of_false (hfree k') heq
    exact hwritten
  new := by
    rw [Db.origin, Option.map_eq_none_iff, hplans] at hplan
    exact hplan

end Planted

/-- `t` is `s` with the plan of the invite, on a child that is new unless the user had it. -/
def Grown (inviteId userId : Id) (invite : EnrollmentInvite) (s t : Db) : Prop :=
  ∃ c k, Planted inviteId c k s t ∧ (s.children.lookup c = none ↔ ¬ s.HasChild userId invite)

theorem Grown.kin {inviteId userId : Id} {invite : EnrollmentInvite} {s v w : Db}
    (h : Grown inviteId userId invite s v) (hvw : Kin v w) : Grown inviteId userId invite s w := by
  obtain ⟨c, k, hplanted, hnew⟩ := h
  exact ⟨c, k, hplanted.kin hvw, hnew⟩

namespace Invites

/-- The invite that the link belongs to. -/
def linked (env : InviteEnvironment) (rawToken : Option String) (db : Db) :
    Option (Id × EnrollmentInvite) :=
  (hashInviteToken env rawToken).bind fun tokenHash => inviteByToken tokenHash db

section Alone

variable {I : Db → Prop} {s v : Db} {x : Context}

/-! ### A claim -/

/-- The child that the invite is for, under this parent. -/
def identity (parentId : Id) (invite : EnrollmentInvite) : Child where
  parentId := parentId
  fullName := invite.studentName
  className := invite.className

/-- The parent that is found for the user has the children that the user has. -/
theorem hasChild_iff {userId id : Id} {row : Parent} {parents : Table Id Parent}
    (hs : Constrained v) (hkept : ∀ k r, v.parents.lookup k = some r → parents.lookup k = some r)
    (hnew : ∀ k r, parents.lookup k = some r → v.parents.lookup k = some r ∨
      ∀ k' r', v.parents.lookup k' = some r' → r'.userId ≠ userId)
    (hrow : parents.lookup id = some row) (huser : row.userId = userId) (invite : EnrollmentInvite) :
    v.HasChild userId invite ↔ ∃ k, v.children.lookup k = some (identity id invite) := by
  constructor
  · rintro ⟨k, c, r, hc, hname, hclass, hr, hr'⟩
    refine ⟨k, ?_⟩
    have hid : c.parentId = id := by
      rcases hnew id row hrow with hold | hnone
      · exact hs.one_parent _ _ r row hr hold (hr'.trans huser.symm)
      · exact absurd hr' (hnone _ r hr)
    rw [hc, ← hid]
    cases c
    simp_all [identity]
  · rintro ⟨k, hk⟩
    obtain ⟨r, hr⟩ := hs.parented k _ hk
    have hsame := (hkept id r hr).symm.trans hrow
    simp only [Option.some.injEq] at hsame
    exact ⟨k, _, r, hk, rfl, rfl, hr, by rw [hsame, huser]⟩

/-- A claim finds the parent of the user, or adds one. -/
theorem resolveParent_finds {userId : Id} {ok : Id → Context → Prop} (hs : Constrained v)
    (h : x.Inside store s v) (hok : ∀ id v' y, y.Inside store s v' →
      v'.children = v.children ∧ v'.enrollments = v.enrollments ∧ v'.payments = v.payments →
      (∀ invite, v.HasChild userId invite ↔ ∃ k, v.children.lookup k = some (identity id invite)) →
      ok id y) : (resolveParent userId).alone store I ok x := by
  unfold resolveParent
  apply Routine.wp_bind
  apply alone_findOrThrow h
  intro account y _ hy
  apply Routine.wp_bind
  apply Routine.alone_inside_ask hy
  intro id y hy
  apply Routine.wp_bind
  unfold createParentIfNew statement
  apply Routine.alone_inside_exec hy
  intro _ ws hws y hy
  apply Routine.wp_bind
  apply alone_findOrThrow hy
  rintro ⟨parentId, row⟩ y hrow hy
  have hmem := Table.mem_rows.mp (List.mem_of_find?_eq_some hrow)
  have huser := List.find?_some hrow
  simp only [decide_eq_true_eq] at huser
  split at hws
  · simp only [Except.ok.injEq, Prod.mk.injEq] at hws
    obtain ⟨-, rfl⟩ := hws
    apply hok parentId _ y hy ⟨rfl, rfl, rfl⟩
    exact hasChild_iff hs (fun _ _ h => h) (fun _ _ h => Or.inl h) hmem huser
  next hnew =>
  split at hws
  · cases hws
  simp only [Except.ok.injEq, Prod.mk.injEq] at hws
  obtain ⟨-, rfl⟩ := hws
  rw [not_or] at hnew
  obtain ⟨hid, hnone⟩ := hnew
  apply hok parentId _ y hy ⟨rfl, rfl, rfl⟩
  refine hasChild_iff hs (fun k r hr => ?_) (fun k r hr => Or.inr fun k' r' hr' heq => ?_) hmem huser
  · have hne : k ≠ id := by
      rintro rfl
      exact hid (Option.isSome_iff_exists.mpr ⟨r, hr⟩)
    exact (AList.lookup_insert_ne hne).trans hr
  · exact hnone (List.any_eq_true.mpr ⟨(k', r'), Table.mem_rows.mpr hr', decide_eq_true heq⟩)

/-- A claim finds the child the parent has, or adds it. -/
theorem resolveChild_finds {parentId : Id} {invite : EnrollmentInvite} {ok : Id → Context → Prop}
    (h : x.Inside store s v) (hok : ∀ c v' y, y.Inside store s v' →
      (∀ c', c' ≠ c → v'.children.lookup c' = v.children.lookup c') →
      v'.enrollments = v.enrollments ∧ v'.payments = v.payments →
      (v.children.lookup c = none ↔ ¬ ∃ k, v.children.lookup k = some (identity parentId invite)) →
      ok c y) : (resolveChild parentId invite).alone store I ok x := by
  unfold resolveChild
  apply Routine.wp_bind
  apply Routine.alone_inside_ask h
  intro id y hy
  apply Routine.wp_bind
  unfold createChildIfNew statement
  apply Routine.alone_inside_exec hy
  intro _ ws hws y hy
  apply Routine.wp_bind
  apply alone_findOrThrow hy
  rintro ⟨c, row⟩ y hrow hy
  have hmem := Table.mem_rows.mp (List.mem_of_find?_eq_some hrow)
  have hsame := List.find?_some hrow
  simp only [decide_eq_true_eq] at hsame
  subst hsame
  split at hws
  · -- The parent has the child.
    simp only [Except.ok.injEq, Prod.mk.injEq] at hws
    obtain ⟨-, rfl⟩ := hws
    apply hok c _ y hy (fun _ _ => rfl) ⟨rfl, rfl⟩
    constructor
    · intro hnone
      rw [Store.applyAll_nil, hnone] at hmem
      cases hmem
    · intro hnone
      exact absurd ⟨c, hmem⟩ hnone
  next hnew =>
  split at hws
  · cases hws
  simp only [Except.ok.injEq, Prod.mk.injEq] at hws
  obtain ⟨-, rfl⟩ := hws
  rw [not_or] at hnew
  obtain ⟨hid, hnone⟩ := hnew
  have hfree : ¬ ∃ k, v.children.lookup k = some (identity parentId invite) := by
    rintro ⟨k, hk⟩
    exact hnone (List.any_eq_true.mpr ⟨(k, _), Table.mem_rows.mpr hk, decide_eq_true rfl⟩)
  -- What is found is the row that has been added.
  rcases Table.lookup_insert_some hmem with ⟨rfl, -⟩ | ⟨-, hold⟩
  · apply hok c _ y hy (fun c' hc' => AList.lookup_insert_ne hc') ⟨rfl, rfl⟩
    exact ⟨fun _ => hfree, fun _ => by simpa using hid⟩
  · exact absurd ⟨c, hold⟩ hfree

theorem claimTransaction_grows {found : FoundInvite} {phoneMatched : Option Bool} {user : AuthUser}
    {base : Db} (hbase : Constrained base) (hkin : Kin base s) (hnow : x.now = s) :
    (claimTransaction found phoneMatched user).alone store (fun _ => True)
      (fun _ y => ∃ t, y.Outside t ∧ Grown found.id user.userId found.row base t) x := by
  unfold claimTransaction
  apply Routine.alone_rethrow
  apply Routine.alone_transaction hnow
  intro y hy
  apply Routine.wp_bind
  apply Routine.alone_inside_ask hy
  intro now y hy
  apply Routine.wp_bind
  apply Routine.alone_inside_ask hy
  intro claimedAt y hy
  apply Routine.wp_bind
  apply updateInvites_alone hy
  · intro y hy
    apply Routine.wp_bind
    apply Routine.alone_throwIf
    exact fun h => absurd rfl h
  intro i y hi _ hy
  have hclaimed (j : EnrollmentInvite) : Kin base (Write.apply (.putInvite found.id j) s) :=
    hkin.trans ⟨rfl, rfl, rfl, rfl⟩
  apply Routine.wp_bind
  apply Routine.alone_throwIf
  intro _
  apply Routine.wp_bind
  apply resolveParent_finds (hbase.kin (hclaimed _)) hy
  intro parentId v₁ y hy ⟨hchildren, henrollments, hpayments⟩ hhas
  rw [(hclaimed _).children] at hchildren
  rw [(hclaimed _).enrollments] at henrollments
  rw [(hclaimed _).payments] at hpayments
  apply Routine.wp_bind
  apply resolveChild_finds hy
  intro c v₂ y hy hothers ⟨henrollments', hpayments'⟩ hnew
  apply recordMigratedEnrollment_writes hy
  intro r k m now entry y hplan hfree hpayment hy
  refine ⟨_, hy, trivial, fun u hu => ⟨_, hu, c, k, Planted.recorded ?_ ?_ ?_ hplan hfree hpayment,
    ?_⟩⟩
  · intro c' hc'
    rw [hothers c' hc', hchildren]
  · exact henrollments'.trans henrollments
  · exact hpayments'.trans hpayments
  · rw [hchildren] at hnew
    rw [hnew, ← (hclaimed _).hasChild, hhas, (hclaimed _).children]

theorem findByToken_finds {env : InviteEnvironment} {rawToken : Option String}
    {ok : FoundInvite → Context → Prop} (h : x.Outside s)
    (hok : ∀ found y, (∃ i, linked env rawToken s = some (found.id, i) ∧
      found.row.studentName = i.studentName ∧ found.row.className = i.className) →
      Kin s y.now ∧ Kin s (y.view store) → ok found y) :
    (findByToken env rawToken).alone store (fun _ => True) ok x := by
  unfold findByToken
  apply Routine.wp_bind
  apply Routine.alone_orThrow
  intro tokenHash htoken
  apply Routine.wp_bind
  apply Routine.alone_outside_query h
  intro y hy
  apply Routine.wp_bind
  apply Routine.alone_orThrow
  rintro ⟨id, invite⟩ hfound
  have hlink : linked env rawToken s = some (id, invite) := by
    rw [linked, htoken]
    exact hfound
  apply Routine.wp_bind
  apply Routine.alone_outside_ask hy
  intro now y hy
  have hhere : Kin s y.now ∧ Kin s (y.view store) := by
    rw [hy.now, hy.view]
    exact ⟨⟨rfl, rfl, rfl, rfl⟩, ⟨rfl, rfl, rfl, rfl⟩⟩
  apply Routine.wp_ite
  · intro _
    apply kin_followed (fun _ _ h h' => h.trans h') hhere
    exact fun _ y hy => hok _ y ⟨invite, hlink, rfl, rfl⟩ hy
  · exact fun _ => hok _ y ⟨invite, hlink, rfl, rfl⟩ hhere

theorem claim_grows {env : InviteEnvironment} {rawToken : Option String} {user : AuthUser}
    {inviteId : Id} {invite : EnrollmentInvite} (hs : Constrained s)
    (hlink : linked env rawToken s = some (inviteId, invite)) (hx : x.Outside s) :
    (claim env rawToken user).alone store (fun _ => True)
      (fun _ y => Grown inviteId user.userId invite s y.now) x := by
  unfold claim
  apply Routine.wp_bind
  apply findByToken_finds hx
  intro found y ⟨i, hfound, hname, hclass⟩ hy
  obtain ⟨rfl, rfl⟩ := Prod.mk.inj (Option.some.inj (hfound.symm.trans hlink))
  -- Nothing is written before the transaction, and nothing after it.
  apply kin_followed (fun _ _ h h' => h.trans h') hy
  intro phoneMatched y hy
  apply kin_followed (fun _ _ h h' => h.trans h') hy
  intro _ y hy
  apply kin_followed (fun _ _ h h' => h.trans h') hy
  intro school y hy
  apply kin_followed (fun _ _ h h' => h.trans h') hy
  intro school y hy
  apply Routine.wp_bind
  refine Routine.wp_mono (fun result z ⟨t, hz, c, k, hplanted, hnew⟩ => ?_) (fun _ _ h => h)
    (claimTransaction_grows hs hy.1 rfl)
  have hgrown : Grown found.id user.userId i s t := by
    refine ⟨c, k, hplanted, ?_⟩
    rw [hnew, Db.HasChild, Db.HasChild, hname, hclass]
  have hhere : Grown found.id user.userId i s z.now ∧
      Grown found.id user.userId i s (z.view store) := by
    rw [hz.now, hz.view]
    exact ⟨hgrown, hgrown⟩
  refine Routine.wp_mono (fun _ _ h => h.1) (fun _ _ h => h) (kin_last ?_ hhere)
  exact fun _ _ h h' => h.kin h'

/-! ### A correction -/

theorem lockEnrollment_alone {k : Id} {ok : Option ChildEnrollment → Context → Prop}
    (h : x.Inside store s v) (hok : ∀ y, y.Inside store s v → ok (v.enrollments.lookup k) y) :
    (lockEnrollment k).alone store I ok x := by
  unfold lockEnrollment statement
  apply Routine.alone_inside_exec h
  intro _ ws hws y hy
  simp only [Except.ok.injEq, Prod.mk.injEq] at hws
  obtain ⟨rfl, rfl⟩ := hws
  exact hok y hy

theorem updatePayments_alone {m : Id} {filter : Payment → Bool} {data : Payment → Payment}
    {ok : Nat → Context → Prop} (h : x.Inside store s v)
    (hnone : ∀ y, y.Inside store s v → ok 0 y)
    (hsome : ∀ p y, v.payments.lookup m = some p →
      y.Inside store s (Write.apply (.putPayment m (data p)) v) → ok 1 y) :
    (updatePayments m filter data).alone store I ok x := by
  unfold updatePayments statement
  apply Routine.alone_inside_exec h
  intro _ ws hws y hy
  cases hp : v.payments.lookup m with
  | none =>
    simp only [hp, Except.ok.injEq, Prod.mk.injEq] at hws
    obtain ⟨rfl, rfl⟩ := hws
    exact hnone y hy
  | some p =>
    simp only [hp] at hws
    split at hws
    · simp only [Except.ok.injEq, Prod.mk.injEq] at hws
      obtain ⟨rfl, rfl⟩ := hws
      exact hsome p y hp hy
    · simp only [Except.ok.injEq, Prod.mk.injEq] at hws
      obtain ⟨rfl, rfl⟩ := hws
      exact hnone y hy

theorem updateEnrollment_alone {k : Id} {data : ChildEnrollment → ChildEnrollment}
    {ok : ChildEnrollment → Context → Prop} (h : x.Inside store s v)
    (hok : ∀ e y, v.enrollments.lookup k = some e →
      y.Inside store s (Write.apply (.putEnrollment k (data e)) v) → ok (data e) y) :
    (updateEnrollment k data).alone store I ok x := by
  unfold updateEnrollment statement
  apply Routine.alone_inside_exec h
  intro _ ws hws y hy
  cases he : v.enrollments.lookup k with
  | none =>
    simp only [he] at hws
    cases hws
  | some e =>
    simp only [he, Except.ok.injEq, Prod.mk.injEq] at hws
    obtain ⟨rfl, rfl⟩ := hws
    exact hok e y he hy

theorem restateInvite_alone {inviteId : Option Id} {amount : Int} {ok : Unit → Context → Prop}
    (h : x.Inside store s v) (hok : ∀ v' y, y.Inside store s v' → Kin v v' → ok () y) :
    (Ledger.restateInvite inviteId amount).alone store I ok x := by
  cases inviteId with
  | none => exact hok v x h ⟨rfl, rfl, rfl, rfl⟩
  | some id =>
    apply Routine.alone_inside_exec h
    intro _ ws hws y hy
    split at hws
    · simp only [Except.ok.injEq, Prod.mk.injEq] at hws
      obtain ⟨-, rfl⟩ := hws
      exact hok _ y hy ⟨rfl, rfl, rfl, rfl⟩
    · simp only [Except.ok.injEq, Prod.mk.injEq] at hws
      obtain ⟨-, rfl⟩ := hws
      exact hok _ y hy ⟨rfl, rfl, rfl, rfl⟩

section Correction

variable {inviteId c k schoolId : Id} {base : Db} {actor : AuditActor} {reason : Option String}

/-- A correction of the plan leaves it the plan of the invite. -/
theorem amendMigratedPayment_keeps {newAmount : Int} (hs : Planted inviteId c k base s)
    (hx : x.Outside s) : (Ledger.amendMigratedPayment k newAmount schoolId actor reason).alone store
      (Planted inviteId c k base) (fun _ _ => True) x := by
  unfold Ledger.amendMigratedPayment
  apply Routine.wp_bind
  apply Routine.alone_throwIf
  intro _
  apply Routine.wp_bind
  apply Routine.alone_outside_query hx
  intro y hy
  apply Routine.wp_bind
  apply Routine.alone_orThrow
  rintro ⟨plan, payments⟩ hfound
  apply Routine.wp_bind
  apply Routine.alone_outside_ask hy
  intro order y hy
  apply Routine.wp_bind
  apply Routine.alone_orThrow
  rintro ⟨m, migrated⟩ hmigrated
  -- The payment is one of the plan.
  have hpayment : s.payments.lookup m = some migrated ∧ migrated.enrollmentId = k := by
    obtain ⟨e, -, he⟩ := Option.map_eq_some_iff.mp hfound
    obtain ⟨-, rfl⟩ := Prod.mk.inj he
    have hmem := mem_of_mem_arrange (List.mem_of_mem_head? hmigrated)
    obtain ⟨hrow, hcond⟩ := List.mem_filter.mp hmem
    exact ⟨Table.mem_rows.mp hrow, (of_decide_eq_true hcond).1⟩
  obtain ⟨hm, hon⟩ := hpayment
  apply Routine.wp_bind
  apply Routine.alone_throwIf
  intro _
  apply Routine.wp_bind
  apply Routine.alone_throwIf
  intro _
  apply Routine.wp_bind
  apply Routine.alone_transaction hy.now
  intro y hy
  apply Routine.wp_bind
  apply lockEnrollment_alone hy
  intro y hy
  apply Routine.wp_bind
  apply Routine.alone_orThrow
  intro locked _
  apply Routine.wp_bind
  apply Routine.alone_inside_query hy
  intro y hy
  apply Routine.wp_bind
  apply Routine.alone_throwIf
  intro _
  apply Routine.wp_bind
  apply updatePayments_alone hy
  · intro y hy
    apply Routine.wp_bind
    apply Routine.alone_throwIf
    exact fun h => absurd rfl h
  intro p y hp hy
  obtain rfl := Option.some.inj (hm.symm.trans hp)
  apply Routine.wp_bind
  apply Routine.alone_throwIf
  intro _
  apply Routine.wp_bind
  apply updateEnrollment_alone hy
  intro e y he hy
  apply Routine.wp_bind
  apply restateInvite_alone hy
  intro v y hy hkin
  apply Routine.wp_bind
  apply record_alone hy
  intro y hy
  have hrestated : Planted inviteId c k base v := by
    refine Planted.kin ?_ hkin
    refine Planted.putEnrollment ?_ he rfl rfl
    exact hs.putPayment hm hon hon
  have hrecorded (entry : AuditEntry) : Planted inviteId c k base (Write.apply (.audit entry) v) :=
    hrestated.kin ⟨rfl, rfl, rfl, rfl⟩
  refine ⟨_, hy, hrecorded _, fun u hu => ?_⟩
  exact Routine.Keeps.alone_last (P := KeepsKin) inferInstance (fun _ _ h h' => h'.kin h) hu
    (hrecorded _)

theorem amend_keeps {amount : ℚ} {user : AuthUser} (hs : Planted inviteId c k base s)
    (hx : x.Outside s) : (amend inviteId amount reason user).alone store
      (Planted inviteId c k base) (fun _ _ => True) x := by
  unfold amend
  apply Routine.wp_bind
  apply assertOwnsSchool_alone hx
  intro school y hy
  apply Routine.wp_bind
  apply Routine.alone_outside_query hy
  intro y hy
  apply Routine.wp_bind
  apply Routine.alone_orThrow
  rintro ⟨invite, enrollment⟩ hfound
  apply Routine.wp_bind
  apply Routine.alone_orThrow
  rintro ⟨k', row⟩ hplan
  obtain ⟨i, -, hi⟩ := Option.map_eq_some_iff.mp hfound
  obtain ⟨-, henrollment⟩ := Prod.mk.inj hi
  obtain rfl := (hs.origin k').mp (lookup_invited (henrollment.trans hplan))
  exact amendMigratedPayment_keeps hs hy

/-! ### A release -/

theorem release_uproots {user : AuthUser} (hbase : Constrained base)
    (hs : Planted inviteId c k base s) (hx : x.Outside s) :
    (release inviteId user reason).alone store (fun _ => True)
      (fun _ y => SameFamilies base y.now ↔ base.children.lookup c = none) x := by
  unfold release
  apply Routine.wp_bind
  apply assertOwnsSchool_alone hx
  intro school y hy
  apply Routine.wp_bind
  apply Routine.alone_outside_query hy
  intro y hy
  apply Routine.wp_bind
  apply Routine.alone_orThrow
  rintro ⟨invite, enrollment⟩ hfound
  apply Routine.wp_bind
  apply Routine.alone_orThrow
  rintro ⟨k', row⟩ hplan
  -- The plan that is released is the one of the claim, and its child the child of the claim.
  obtain ⟨i, -, hi⟩ := Option.map_eq_some_iff.mp hfound
  obtain ⟨-, henrollment⟩ := Prod.mk.inj hi
  have hinvited := henrollment.trans hplan
  obtain rfl := (hs.origin k').mp (lookup_invited hinvited)
  have hrow : s.enrollments.lookup k' = some row :=
    Table.mem_rows.mp (List.mem_of_find?_eq_some hinvited)
  have hchild : row.childId = c := by
    obtain ⟨e, he, hc⟩ := hs.plan
    obtain rfl := Option.some.inj (hrow.symm.trans he)
    exact hc
  apply Routine.wp_bind
  apply Routine.alone_transaction hy.now
  intro y hy
  apply Routine.wp_bind
  apply Routine.alone_inside_ask hy
  intro now y hy
  apply Routine.wp_bind
  apply updateInvites_alone hy
  · intro y hy
    apply Routine.wp_bind
    apply Routine.alone_throwIf
    exact fun h => absurd rfl h
  intro i _ _ _ hy
  apply Routine.wp_bind
  apply Routine.alone_throwIf
  intro _
  apply Routine.wp_bind
  apply releaseMigratedEnrollment_writes hy
  intro n e r entry y hy
  rw [hchild] at hy
  have hreleased (j : EnrollmentInvite) : Planted inviteId c k' base
      (Write.apply (.putInvite inviteId j) s) := hs.kin ⟨rfl, rfl, rfl, rfl⟩
  have hundone (j : EnrollmentInvite) :=
    (hreleased j).uprooted hbase (uprooted_release c k' _ e r entry)
  refine ⟨_, hy, trivial, fun u hu => ?_⟩
  have hhere : (SameFamilies base u.now ↔ base.children.lookup c = none) ∧
      (SameFamilies base (u.view store) ↔ base.children.lookup c = none) := by
    rw [hu.now, hu.view]
    exact ⟨hundone _, hundone _⟩
  have hkept (v w : Db) (h : SameFamilies base v ↔ base.children.lookup c = none)
      (hvw : Kin v w) : SameFamilies base w ↔ base.children.lookup c = none := by
    rw [hvw.sameFamilies, h]
  cases given invite.claimedByUserId with
  | none => exact Routine.wp_mono (fun _ _ h => h.1) (fun _ _ h => h) (kin_last hkept hhere)
  | some userId => exact Routine.wp_mono (fun _ _ h => h.1) (fun _ _ h => h) (kin_last hkept hhere)

end Correction

end Alone

end Invites

/-! ### What a release undoes -/

/-- The method returns `a` when it runs by itself on `s`, and leaves `t`. -/
def Returns {α : Type} (m : Action α) (s : Db) (a : α) (t : Db) : Prop :=
  ∃ ch, (m.run.alone store ch (.init s)).1 = .ok a ∧ (m.run.alone store ch (.init s)).2.now = t

/-- Amendments of the invite lead from one database to another, however they end. -/
inductive Amended (inviteId : Id) (s : Db) : Db → Prop where
  | none : Amended inviteId s s
  | amend {t : Db} (amount : ℚ) (reason : Option String) (user : AuthUser)
      (ch : Nat → Choice Answer) : Amended inviteId s t →
      Amended inviteId s ((Invites.amend inviteId amount reason user).run.alone store ch (.init t)).2.now

theorem Returns.of_run {α : Type} {m : Action α} {s : Db} {ch : Nat → Choice Answer}
    (h : (m.run.alone store ch (.init s)).1.isOk = true) :
    ∃ a, Returns m s a (m.run.alone store ch (.init s)).2.now := by
  cases hr : (m.run.alone store ch (.init s)).1 with
  | ok a => exact ⟨a, ch, hr, rfl⟩
  | error e =>
    rw [hr] at h
    cases h

theorem Returns.post {α : Type} {m : Action α} {s t : Db} {a : α} {ok : α → Context → Prop}
    (h : Returns m s a t) (hm : m.alone store (fun _ => True) ok (.init s)) :
    ∃ y : Context, ok a y ∧ y.now = t := by
  obtain ⟨ch, hresult, hnow⟩ := h
  have hpost := Prog.alone_post ch (Contract.plain_total _ _) hm
  rw [hresult] at hpost
  exact ⟨_, hpost, hnow⟩

theorem Planted.amended {inviteId c k : Id} {s v w : Db} (hv : Planted inviteId c k s v)
    (h : Amended inviteId v w) : Planted inviteId c k s w := by
  induction h with
  | none => exact hv
  | amend amount reason user ch _ ih =>
    refine (Prog.alone_invariant (I := Planted inviteId c k s) (Contract.plain_total _ _)
      (Invites.amend_keeps ih ⟨rfl, rfl⟩) ih ?_).1
    exact fun _ _ _ _ hG _ => hG

/-- A claim and a release of the invite, with amendments of it between them, leave the tables
    of children, plans and payments as they were before the claim if and only if the family
    did not have the child already. -/
theorem release_undoes_claim (env : InviteEnvironment) {rawToken : Option String}
    {parent owner : AuthUser} {inviteId : Id} {invite : EnrollmentInvite} {reason : Option String}
    {s v v' w : Db} {claimed : Invites.Claimed} (hs : Constrained s)
    (hlink : Invites.linked env rawToken s = some (inviteId, invite))
    (hclaim : Returns (Invites.claim env rawToken parent) s claimed v)
    (hamended : Amended inviteId v v')
    (hrelease : Returns (Invites.release inviteId owner reason) v' () w) :
    SameFamilies s w ↔ ¬ s.HasChild parent.userId invite := by
  obtain ⟨y, ⟨c, k, hplanted, hnew⟩, rfl⟩ := hclaim.post (Invites.claim_grows hs hlink ⟨rfl, rfl⟩)
  obtain ⟨z, hundone, rfl⟩ :=
    hrelease.post (Invites.release_uproots hs (hplanted.amended hamended) ⟨rfl, rfl⟩)
  rw [hundone, hnew]

/-- The parent claims the invite, the school corrects the amount, and takes the claim back. -/
def takenBack (s : Db) : Option Db :=
  let claimed := (Invites.claim inviteEnvironment (some firstLink) invitedParent).run.alone store
    (smoothly "a") (.init s)
  let corrected := (Invites.amend "invite" 60000 none schoolOwner).run.alone store (smoothly "b")
    (.init claimed.2.now)
  let released := (Invites.release "invite" schoolOwner none).run.alone store (smoothly "c")
    (.init corrected.2.now)
  if claimed.1.isOk ∧ corrected.1.isOk ∧ released.1.isOk then some released.2.now else none

theorem returns_of_takenBack {s w : Db} (h : takenBack s = some w) : ∃ claimed v v',
    Returns (Invites.claim inviteEnvironment (some firstLink) invitedParent) s claimed v ∧
      Amended "invite" v v' ∧ Returns (Invites.release "invite" schoolOwner none) v' () w := by
  simp only [takenBack, Option.ite_none_right_eq_some, Option.some.injEq] at h
  obtain ⟨⟨hclaimed, -, hreleased⟩, rfl⟩ := h
  obtain ⟨claimed, hclaim⟩ := Returns.of_run hclaimed
  obtain ⟨_, hrelease⟩ := Returns.of_run hreleased
  exact ⟨claimed, _, _, hclaim, .amend 60000 none schoolOwner (smoothly "b") .none, hrelease⟩

theorem invitedInTime_constrained : Constrained invitedInTime where
  parented := oneFamily_opening.parented
  enrolled := fun k p h => by cases h
  one_parent := by
    intro k k' r r' hr hr' _
    obtain ⟨rfl, -⟩ := Prod.mk.inj (List.mem_singleton.mp (Table.mem_rows.mpr hr))
    obtain ⟨rfl, -⟩ := Prod.mk.inj (List.mem_singleton.mp (Table.mem_rows.mpr hr'))
    rfl

/-- The guardian has no child yet. -/
def childless : Db := { invitedInTime with children := ∅ }

theorem childless_constrained : Constrained childless where
  parented := fun k c h => by cases h
  enrolled := fun k p h => by cases h
  one_parent := invitedInTime_constrained.one_parent

theorem release_undoes_claim_childless : ∃ claimed v v' w,
    Returns (Invites.claim inviteEnvironment (some firstLink) invitedParent) childless claimed v ∧
      Amended "invite" v v' ∧ Returns (Invites.release "invite" schoolOwner none) v' () w ∧
      SameFamilies childless w := by
  have hruns : (takenBack childless).isSome = true := by decide +kernel
  obtain ⟨w, hw⟩ := Option.isSome_iff_exists.mp hruns
  obtain ⟨claimed, v, v', hclaim, hamended, hrelease⟩ := returns_of_takenBack hw
  refine ⟨claimed, v, v', w, hclaim, hamended, hrelease, ?_⟩
  apply (release_undoes_claim inviteEnvironment childless_constrained rfl hclaim hamended
    hrelease).mpr
  rintro ⟨k, c, r, hc, -⟩
  cases hc

/-- Ada was there before the claim, and is gone after the release. -/
theorem release_undoes_claim_needs_new_child : ¬ ∀ (s v v' w : Db) (claimed : Invites.Claimed),
    Constrained s →
    Returns (Invites.claim inviteEnvironment (some firstLink) invitedParent) s claimed v →
    Amended "invite" v v' → Returns (Invites.release "invite" schoolOwner none) v' () w →
    SameFamilies s w := by
  intro h
  have hruns : ((takenBack invitedInTime).any fun w => (w.children.lookup "child").isNone) =
      true := by
    decide +kernel
  obtain ⟨w, hw, hgone⟩ := (Option.any_eq_true _ _).mp hruns
  obtain ⟨claimed, v, v', hclaim, hamended, hrelease⟩ := returns_of_takenBack hw
  have hsame := (h _ _ _ _ _ invitedInTime_constrained hclaim hamended hrelease).children "child"
  rw [hsame] at hgone
  cases hgone

end Lopay
