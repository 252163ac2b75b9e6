import Lopay.Invites.Claims
import Lopay.Migrated.Keeping

/-!
# Booking a migrated plan

A claim, a release, a correction and the withdrawal of a confirmation each write several
tables in one transaction. What they lock is as they have found it until they commit; what they
have only read has led to what is there by then. Either way the figures stay together.
-/

namespace Lopay

open Transactions

/-! ### Rules for the Prisma calls -/

/-- The program has the open transaction `tx`, remembers `c`, and holds `P` under its locks. -/
abbrev Booking (c : Db) (tx : Option (List Write)) (P : Db → Prop) (x : Context) : Prop :=
  Holding store agree Informed c tx P x

namespace Booking

variable {c : Db} {tx : Option (List Write)} {ws : List Write} {P : Db → Prop} {x : Context}
  {α : Type} {ok : α → Context → Prop} {id : Id}

theorem ask {request : Call} {ok : Answer request → Context → Prop} (hx : Booking c tx P x)
    (h : ∀ a y, Booking c tx P y → ok a y) :
    (Lopay.ask request).wp store figuresContract ok (fun _ => Informed) x :=
  Holding.ask store_frame informed_steady hx h

/-- A read that is remembered. -/
theorem read {q : Db → α} (hx : Booking c tx P x)
    (h : ∀ s y, P s → Booking s tx P y → ok (q (store.applyAll (tx.getD []) s)) y) :
    (Lopay.read q).wp store figuresContract ok (fun _ => Informed) x :=
  Holding.read store_frame informed_steady hx (fun _ _ h => h.knows) h

/-- A read whose result does not matter. -/
theorem look {q : Db → α} (hx : Booking c tx P x) (h : ∀ a y, Booking c tx P y → ok a y) :
    (Lopay.read q).wp store figuresContract ok (fun _ => Informed) x :=
  Holding.look store_frame informed_steady hx (fun _ _ h => h.knows) h

theorem throwIf {p : Prop} [Decidable p] {e : Err} {ok : Unit → Context → Prop}
    (hx : Booking c tx P x) (h : ¬ p → ok () x) :
    (Routine.throwIf p e : Action Unit).wp store figuresContract ok (fun _ => Informed) x :=
  Routine.wp_throwIf (fun _ => hx.knows) h

theorem orThrow {o : Option α} {e : Err} (hx : Booking c tx P x) (h : ∀ a, o = some a → ok a x) :
    (Routine.orThrow o e : Action α).wp store figuresContract ok (fun _ => Informed) x :=
  Routine.wp_orThrow (fun _ => hx.knows) h

theorem findOrThrow {q : Db → Option α} (hx : Booking c tx P x)
    (h : ∀ a y, Booking c tx P y → ok a y) :
    (Lopay.findOrThrow q).wp store figuresContract ok (fun _ => Informed) x := by
  refine Routine.wp_bind (hx.look fun o y hy => ?_)
  exact hy.orThrow fun a _ => h a y hy

theorem findFirst {q : Db → List α} {ok : Option α → Context → Prop} (hx : Booking c tx P x)
    (h : ∀ o y, Booking c tx P y → ok o y) :
    (Lopay.findFirst q).wp store figuresContract ok (fun _ => Informed) x := by
  refine Routine.wp_bind (hx.look fun found y hy => ?_)
  refine Routine.wp_bind (hy.ask fun order y hy => ?_)
  exact Routine.wp_pure (h _ y hy)

theorem createNotification {n : Notification} {ok : Unit → Context → Prop}
    (hx : Booking c tx P x) (h : ∀ y, Booking c tx P y → ok () y) :
    (Lopay.createNotification n).wp store figuresContract ok (fun _ => Informed) x := by
  unfold Lopay.createNotification
  refine Routine.wp_bind (hx.ask fun delivered y hy => ?_)
  exact hy.throwIf fun _ => h y hy

/-- A statement that writes neither invite nor plan nor payment. -/
theorem aside {f : Db → Except Err (α × List Write)} (hx : Booking c (some ws) P x)
    (hf : ∀ v a us, f v = .ok (a, us) → ∀ w ∈ us, w.Aside)
    (h : ∀ a us y, (∀ w ∈ us, w.Aside) → Booking c (some (ws ++ us)) P y → ok a y) :
    (statement f).wp store figuresContract ok (fun _ => Informed) x := by
  refine Holding.inside store_frame informed_steady hx (fun _ _ h => h.knows) fun a us y hy hws => ?_
  exact h a us _ (hf _ a us hws) (hy.wrote_beside informed_steady us)

/-- An update of an invite, as the first statement that writes. -/
theorem updateInvites {filter : EnrollmentInvite → Bool}
    {data : EnrollmentInvite → EnrollmentInvite} {ok : Nat → Context → Prop}
    (hx : Booking c (some []) P x) (hnone : ∀ y, Booking c (some []) P y → ok 0 y)
    (hsome : ∀ i y, filter i = true →
      Booking c (some [.putInvite id (data i)])
        (fun s => P s ∧ s.invites.lookup id = some i) y → ok 1 y) :
    (Lopay.updateInvites id filter data).wp store figuresContract ok (fun _ => Informed) x := by
  refine Holding.inside store_frame informed_steady hx (fun _ _ h => h.knows) fun n us y hy hws => ?_
  rcases Invites.updateInvites_writes hws with ⟨rfl, rfl⟩ | ⟨rfl, i, hi, hfilter, rfl⟩
  · exact hnone _ (hy.wrote_nil informed_steady)
  · refine hsome i _ hfilter (hy.wrote informed_steady (Q := fun s => s.invites.lookup id = some i)
      hi fun s t hlocks hs => ?_)
    exact (hlocks (.invite id) List.mem_cons_self).trans hs

/-- An update of a payment, before any other payment is written. -/
theorem updatePayments {filter : Payment → Bool} {data : Payment → Payment}
    {ok : Nat → Context → Prop} (hx : Booking c (some ws) P x)
    (hview : ∀ s, (store.applyAll ws s).payments = s.payments)
    (hnone : ∀ y, Booking c (some ws) P y → ok 0 y)
    (hsome : ∀ p y, filter p = true →
      Booking c (some (ws ++ [.putPayment id (data p)]))
        (fun s => P s ∧ s.payments.lookup id = some p) y → ok 1 y) :
    (Lopay.updatePayments id filter data).wp store figuresContract ok (fun _ => Informed) x := by
  refine Holding.inside store_frame informed_steady hx (fun _ _ h => h.knows) fun n us y hy hws => ?_
  rw [hview] at hws
  cases hp : y.now.payments.lookup id with
  | none =>
    simp only [hp, Except.ok.injEq, Prod.mk.injEq] at hws
    obtain ⟨rfl, rfl⟩ := hws
    exact hnone _ (hy.wrote_nil informed_steady)
  | some p =>
    simp only [hp] at hws
    split at hws
    · next hfilter =>
      simp only [Except.ok.injEq, Prod.mk.injEq] at hws
      obtain ⟨rfl, rfl⟩ := hws
      refine hsome p _ hfilter (hy.wrote informed_steady
        (Q := fun s => s.payments.lookup id = some p) hp fun s t hlocks hs => ?_)
      refine (hlocks (.payment id) ?_).trans hs
      rw [Store.locksOf_append]
      exact List.mem_append_right _ List.mem_cons_self
    · simp only [Except.ok.injEq, Prod.mk.injEq] at hws
      obtain ⟨rfl, rfl⟩ := hws
      exact hnone _ (hy.wrote_nil informed_steady)

/-- An update of a plan, before any other plan is written. -/
theorem updateEnrollment {data : ChildEnrollment → ChildEnrollment}
    {ok : ChildEnrollment → Context → Prop} (hx : Booking c (some ws) P x)
    (hview : ∀ s, (store.applyAll ws s).enrollments = s.enrollments)
    (h : ∀ e y, Booking c (some (ws ++ [.putEnrollment id (data e)]))
      (fun s => P s ∧ s.enrollments.lookup id = some e) y → ok (data e) y) :
    (Lopay.updateEnrollment id data).wp store figuresContract ok (fun _ => Informed) x := by
  refine Holding.inside store_frame informed_steady hx (fun _ _ h => h.knows) fun n us y hy hws => ?_
  rw [hview] at hws
  cases he : y.now.enrollments.lookup id with
  | none => simp [he] at hws
  | some e =>
    simp only [he, Except.ok.injEq, Prod.mk.injEq] at hws
    obtain ⟨rfl, rfl⟩ := hws
    refine h e _ (hy.wrote informed_steady (Q := fun s => s.enrollments.lookup id = some e) he
      fun s t hlocks hs => ?_)
    refine (hlocks (.enrollment id) ?_).trans hs
    rw [Store.locksOf_append]
    exact List.mem_append_right _ List.mem_cons_self

theorem lockEnrollment {k : Id} {ok : Option ChildEnrollment → Context → Prop}
    (hx : Booking c (some []) P x) (h : ∀ r y, Booking c (some [.lockEnrollment k])
      (fun s => P s ∧ s.enrollments.lookup k = r) y → ok r y) :
    (Lopay.lockEnrollment k).wp store figuresContract ok (fun _ => Informed) x := by
  unfold Lopay.lockEnrollment statement
  refine Holding.inside store_frame informed_steady hx (fun _ _ h => h.knows) fun r us y hy hws => ?_
  simp only [Store.applyAll_nil, Except.ok.injEq, Prod.mk.injEq] at hws
  obtain ⟨rfl, rfl⟩ := hws
  refine h _ _ (hy.wrote informed_steady
    (Q := fun s => s.enrollments.lookup k = y.now.enrollments.lookup k) rfl fun s t hlocks hs => ?_)
  exact (hlocks (.enrollment k) List.mem_cons_self).trans hs

/-- The amount of an invite that is known to be there is restated. -/
theorem restateInvite {amountAlreadyPaid : Int} {ok : Unit → Context → Prop}
    (hx : Booking c (some ws) P x) (hview : ∀ s, (store.applyAll ws s).invites = s.invites)
    (hthere : ∀ s, InStep s → Onward c s → P s → ∃ i, s.invites.lookup id = some i)
    (h : ∀ i y, Booking c (some (ws ++ [.putInvite id { i with amountAlreadyPaid }]))
      (fun s => P s ∧ s.invites.lookup id = some i) y → ok () y) :
    (Ledger.restateInvite (some id) amountAlreadyPaid).wp store figuresContract ok
      (fun _ => Informed) x := by
  refine Holding.inside store_frame informed_steady hx (fun _ _ h => h.knows) fun _ us y hy hws => ?_
  obtain ⟨i, hi⟩ := hthere y.now hy.knows.now (hy.knows.since hy.remembers) hy.holds
  simp only [hview, hi, Except.ok.injEq, Prod.mk.injEq] at hws
  obtain ⟨-, rfl⟩ := hws
  refine h i _ (hy.wrote informed_steady (Q := fun s => s.invites.lookup id = some i) hi
    fun s t hlocks hs => ?_)
  refine (hlocks (.invite id) ?_).trans hs
  rw [Store.locksOf_append]
  exact List.mem_append_right _ List.mem_cons_self

/-- A second update of the plan that was written last, if there is cause. -/
theorem updateAgain {p : Prop} [Decidable p] {data : ChildEnrollment → ChildEnrollment}
    {e : ChildEnrollment} {ok : Unit → Context → Prop}
    (hx : Booking c (some (ws ++ [.putEnrollment id e])) P x)
    (h : ∀ e' vs y, e' = e ∧ vs = [] ∨ e' = data e ∧ vs = [.putEnrollment id (data e)] →
      Booking c (some (ws ++ [.putEnrollment id e] ++ vs)) P y → ok () y) :
    (Routine.onlyIf p (do let _ ← Lopay.updateEnrollment id data)).wp store figuresContract ok
      (fun _ => Informed) x := by
  refine Routine.wp_onlyIf (fun _ => Routine.wp_bind ?_) (fun _ => ?_)
  · refine Holding.inside store_frame informed_steady hx (fun _ _ h => h.knows)
      fun e' us y hy hws => ?_
    have hrow : (store.applyAll (ws ++ [.putEnrollment id e]) y.now).enrollments.lookup id =
        some e := by
      rw [Store.applyAll_append]
      exact AList.lookup_insert _
    simp only [hrow, Except.ok.injEq, Prod.mk.injEq] at hws
    obtain ⟨-, rfl⟩ := hws
    exact Routine.wp_pure (h _ _ _ (Or.inr ⟨rfl, rfl⟩) (hy.wrote_beside informed_steady _))
  · refine h e [] x (Or.inl ⟨rfl, rfl⟩) ?_
    rw [List.append_nil]
    exact hx

/-- A new plan, before any other is written. -/
theorem createEnrollment {row : ChildEnrollment} {ok : Unit → Context → Prop}
    {err : Err → Context → Prop} (hx : Booking c (some ws) P x)
    (hview : ∀ s, (store.applyAll ws s).enrollments = s.enrollments)
    (herr : ∀ e y, Booking c (some ws) P y → err e y)
    (h : ∀ y, Booking c (some (ws ++ [.putEnrollment id row]))
      (fun s => P s ∧ s.enrollments.lookup id = none) y → ok () y) :
    (Lopay.createEnrollment id row).wp store figuresContract ok err x := by
  refine Holding.inside store_frame informed_steady hx herr fun _ us y hy hws => ?_
  obtain ⟨hnew, rfl⟩ : (store.applyAll ws y.now).enrollments.lookup id = none ∧
      us = [.putEnrollment id row] := by
    grind [Option.isSome_iff_ne_none]
  rw [hview] at hnew
  refine h _ (hy.wrote informed_steady (Q := fun s => s.enrollments.lookup id = none) hnew
    fun s t hlocks hs => ?_)
  refine (hlocks (.enrollment id) ?_).trans hs
  rw [Store.locksOf_append]
  exact List.mem_append_right _ List.mem_cons_self

/-- A new payment, before any other is written. -/
theorem createPayment {row : Payment} {ok : Unit → Context → Prop} (hx : Booking c (some ws) P x)
    (hview : ∀ s, (store.applyAll ws s).payments = s.payments)
    (h : ∀ y, Booking c (some (ws ++ [.putPayment id row]))
      (fun s => P s ∧ s.payments.lookup id = none) y → ok () y) :
    (Lopay.createPayment id row).wp store figuresContract ok (fun _ => Informed) x := by
  refine Holding.inside store_frame informed_steady hx (fun _ _ h => h.knows) fun _ us y hy hws => ?_
  obtain ⟨hnew, rfl⟩ : (store.applyAll ws y.now).payments.lookup id = none ∧
      us = [.putPayment id row] := by
    grind [Option.isSome_iff_ne_none]
  rw [hview] at hnew
  refine h _ (hy.wrote informed_steady (Q := fun s => s.payments.lookup id = none) hnew
    fun s t hlocks hs => ?_)
  refine (hlocks (.payment id) ?_).trans hs
  rw [Store.locksOf_append]
  exact List.mem_append_right _ List.mem_cons_self

/-- The payments of a plan are deleted as they are found. -/
theorem deletePayments {k : Id} {ok : Nat → Context → Prop} (hx : Booking c (some ws) P x)
    (hview : ∀ s, (store.applyAll ws s).payments = s.payments)
    (h : ∀ s n y, InStep s → Onward c s → P s →
      Booking s (some (ws ++ (s.paymentsOf k fun _ => true).map fun r => .deletePayment r.1 r.2))
        (fun t => P t ∧ ∀ r ∈ s.paymentsOf k fun _ => true, t.payments.lookup r.1 = some r.2) y →
      ok n y) :
    (Lopay.deletePayments k).wp store figuresContract ok (fun _ => Informed) x := by
  unfold Lopay.deletePayments statement
  refine Holding.inside store_frame informed_steady hx (fun _ _ h => h.knows) fun n us y hy hws => ?_
  have hrows : (store.applyAll ws y.now).paymentsOf k (fun _ => true) =
      y.now.paymentsOf k fun _ => true := by
    rw [Db.paymentsOf, hview, Db.paymentsOf]
  simp only [hrows, Except.ok.injEq, Prod.mk.injEq] at hws
  obtain ⟨rfl, rfl⟩ := hws
  refine h y.now _ _ hy.knows.now (hy.knows.since hy.remembers) hy.holds
    (hy.fresh.wrote informed_steady ?_ ?_)
  · intro r hr
    exact Table.mem_rows.mp (List.mem_filter.mp hr).1
  · intro s t hlocks hs r hr
    refine (hlocks (.payment r.1) ?_).trans (hs r hr)
    rw [Store.locksOf_append]
    refine List.mem_append_right _ (List.mem_flatMap.mpr ⟨_, List.mem_map_of_mem hr, ?_⟩)
    exact List.mem_cons_self

theorem deleteEnrollment {k : Id} {ok : Unit → Context → Prop} (hx : Booking c (some ws) P x)
    (hview : ∀ s, (store.applyAll ws s).enrollments = s.enrollments)
    (h : ∀ e y, Booking c (some (ws ++ [.deleteEnrollment k e]))
      (fun s => P s ∧ s.enrollments.lookup k = some e) y → ok () y) :
    (Lopay.deleteEnrollment k).wp store figuresContract ok (fun _ => Informed) x := by
  refine Holding.inside store_frame informed_steady hx (fun _ _ h => h.knows) fun _ us y hy hws => ?_
  rw [hview] at hws
  obtain ⟨e, he, rfl⟩ : ∃ e, y.now.enrollments.lookup k = some e ∧ us = [.deleteEnrollment k e] := by
    grind
  refine h e _ (hy.wrote informed_steady (Q := fun s => s.enrollments.lookup k = some e) he
    fun s t hlocks hs => ?_)
  refine (hlocks (.enrollment k) ?_).trans hs
  rw [Store.locksOf_append]
  exact List.mem_append_right _ List.mem_cons_self

/-- A transaction whose commit keeps the figures together. -/
theorem transaction {body : Action α} (hx : Booking c none P x)
    (hok : ∀ a y, Informed y → y.tx = none → ok a y)
    (hbody : ∀ y, Booking c (some []) P y → body.wp store figuresContract
      (fun _ z => ∃ c ws Q, Booking c (some ws) Q z ∧ ∀ u, InStep u → Onward c u → InStep c →
        Q u → Together u (store.applyAll ws u))
      (fun _ => Informed) y) :
    (Lopay.transaction body).wp store figuresContract ok (fun _ => Informed) x := by
  refine Holding.transaction store_frame informed_steady hx (fun _ _ h _ => h) hok fun y hy => ?_
  refine Routine.wp_mono ?_ (fun _ _ h => h) (hbody y hy)
  rintro a z ⟨c', ws, Q, hz, hcommit⟩
  refine ⟨c', ws, Q, hz, fun u hu hseen hQ hnew => ?_⟩
  have htogether : keepingTogether u ws :=
    hcommit u.now hu.now (hu.since hseen) (hu.seen c' hseen).1 hQ
  exact ⟨htogether, hu.see htogether hnew⟩

end Booking

namespace Invites

variable {c : Db} {P : Db → Prop} {x : Context}

theorem assertOwnsSchool_booking {actor : AuthUser} {ok : OwnedSchool → Context → Prop}
    (hx : Booking c none P x) (hok : ∀ school y, Booking c none P y → ok school y) :
    (assertOwnsSchool actor).wp store figuresContract ok (fun _ => Informed) x := by
  unfold assertOwnsSchool
  refine Routine.wp_bind (hx.orThrow fun schoolId _ => ?_)
  refine Routine.wp_bind (hx.throwIf fun _ => ?_)
  refine Routine.wp_bind (hx.look fun found y hy => ?_)
  refine Routine.wp_bind (hy.orThrow fun school _ => ?_)
  exact Routine.wp_pure (hok _ y hy)

/-! ### A release -/

theorem planFrom_invited {inviteId k : Id} {e : ChildEnrollment} {db : Db}
    (h : db.invited inviteId = some (k, e)) : db.PlanFrom inviteId k e := by
  refine ⟨Table.mem_rows.mp (List.mem_of_find?_eq_some h), ?_⟩
  simpa using List.find?_some h

/-- What a release commits, on what it finds then. -/
theorem releaseStep {c u : Db} {inviteId k : Id} {i i' : EnrollmentInvite} {e e₁ : ChildEnrollment}
    {us : List Write} (hstep : InStep u) (honward : Onward c u) (hc : InStep c)
    (he₁ : c.PlanFrom inviteId k e₁) (hi : u.invites.lookup inviteId = some i)
    (he : u.enrollments.lookup k = some e)
    (hrows : ∀ r ∈ c.paymentsOf k fun _ => true, u.payments.lookup r.1 = some r.2)
    (hrevoked : i'.status = .REVOKED) (hfee : i'.totalSchoolFee = i.totalSchoolFee)
    (hamount : i'.amountAlreadyPaid = i.amountAlreadyPaid) (hus : ∀ w ∈ us, w.Aside) :
    ReleaseStep u (store.applyAll ([.putInvite inviteId i'] ++
      ((c.paymentsOf k fun _ => true).map fun r => .deletePayment r.1 r.2) ++
      [.deleteEnrollment k e] ++ us) u) inviteId k := by
  have hfrom : u.PlanFrom inviteId k e :=
    ⟨he, (honward.plans k e₁ e he₁.1 he).1.trans he₁.2⟩
  have hstill := still_asides (v := store.applyAll ([.putInvite inviteId i'] ++
    ((c.paymentsOf k fun _ => true).map fun r => .deletePayment r.1 r.2) ++
    [.deleteEnrollment k e]) u) hus
  have hspared := deletePayments_spares (c.paymentsOf k fun _ => true)
    (Write.apply (.putInvite inviteId i') u)
  rw [Store.applyAll_append]
  have hgone : ∀ m p, u.MigratedOn k m p → m ∈ (c.paymentsOf k fun _ => true).map (·.1) := by
    -- The one migrated payment of the plan was there when its payments were deleted.
    intro m p hp
    obtain ⟨m₁, p₁, hp₁⟩ := hc.payment inviteId k e₁ he₁
    have hmem : (m₁, p₁) ∈ c.paymentsOf k fun _ => true :=
      List.mem_filter.mpr ⟨Table.mem_rows.mpr hp₁.1, by simpa using hp₁.2.2⟩
    obtain rfl := hstep.one_payment k m₁ m p₁ p ⟨hrows _ hmem, hp₁.2⟩ hp
    exact List.mem_map_of_mem hmem
  constructor
  · refine ⟨i, i', e, hi, hfrom, hrevoked, hfee, hamount, fun j => ?_, fun j => ?_⟩
    · rw [hstill.invites, Store.applyAll_append, Store.applyAll_append]
      refine Eq.trans (congrArg (AList.lookup j) hspared.1) ?_
      exact Table.lookup_insert_ite u.invites inviteId j i'
    · rw [hstill.enrollments, Store.applyAll_append, Store.applyAll_append]
      refine Eq.trans (congrArg (fun plans => (plans.erase k).lookup j) hspared.2.1) ?_
      exact Table.lookup_erase_ite u.enrollments k j
  · intro m p hp
    rw [hstill.payments, Store.applyAll_append, Store.applyAll_append] at hp
    replace hp := (lookup_deletePayments _ _ m).symm.trans hp
    split at hp
    · cases hp
    · next hkept => exact ⟨hp, fun htype hk => hkept (hgone m p ⟨hp, htype, hk⟩)⟩
  · intro m p hp hk
    rw [hstill.payments, Store.applyAll_append, Store.applyAll_append]
    refine (lookup_deletePayments _ _ m).trans ?_
    rw [if_neg]
    · exact hp
    · intro hmem
      obtain ⟨r, hr, rfl⟩ := List.mem_map.mp hmem
      obtain rfl := Option.some.inj ((hrows r hr).symm.trans hp)
      exact hk (by simpa using (List.mem_filter.mp hr).2)

theorem release_booking {inviteId : Id} {actor : AuthUser} {reason : Option String}
    (hx : Booking c none (fun _ => True) x) :
    (release inviteId actor reason).wp store figuresContract (fun _ => Informed) (fun _ => Informed)
      x := by
  unfold release
  refine Routine.wp_bind (assertOwnsSchool_booking hx fun school y hy => ?_)
  refine Routine.wp_bind (hy.read fun s y _ hy => ?_)
  refine Routine.wp_bind (hy.orThrow fun (invite, enrollment) hfound => ?_)
  refine Routine.wp_bind (hy.orThrow fun (k, row) hplan => ?_)
  have hfrom : s.PlanFrom inviteId k row := by
    obtain ⟨j, -, hj⟩ := Option.map_eq_some_iff.mp hfound
    apply planFrom_invited
    rw [← hplan, ← (Prod.mk.inj hj).2]
    rfl
  refine Routine.wp_bind (hy.transaction (fun _ y hy htx => ?_) fun y hy => ?_)
  · refine Routine.Keeps.wp_figures ?_ hy htx
    cases given invite.claimedByUserId with
    | none => infer_instance
    | some userId => infer_instance
  refine Routine.wp_bind (hy.ask fun now y hy => ?_)
  refine Routine.wp_bind (hy.updateInvites (fun y hy => ?_) fun i y hguard hy => ?_)
  · exact Routine.wp_bind (hy.throwIf fun h => absurd rfl h)
  obtain ⟨-, hclaimed⟩ := of_decide_eq_true hguard
  refine Routine.wp_bind (hy.throwIf fun _ => ?_)
  unfold Ledger.releaseMigratedEnrollment
  refine Routine.wp_bind (Routine.wp_bind (hy.look fun found y hy => ?_))
  refine Routine.wp_bind (hy.orThrow fun (enrollment, payments) _ => ?_)
  refine Routine.wp_bind (hy.throwIf fun _ => ?_)
  refine Routine.wp_bind (hy.deletePayments (fun _ => rfl) fun c n y hc honward hinvite hy => ?_)
  obtain ⟨e₁, he₁⟩ := honward.kept inviteId k row i hfrom hinvite.2 hclaimed
  refine Routine.wp_bind (hy.deleteEnrollment (fun s => ?_) fun e y hy => ?_)
  · exact (deletePayments_spares _ _).2.1
  refine Routine.wp_bind (hy.aside ?_ fun _ us y hus hy => ?_)
  · grind [Write.Aside]
  refine Routine.wp_bind (hy.aside ?_ fun _ us' y hus' hy => ?_)
  · grind [Write.Aside]
  refine Routine.wp_pure (Routine.wp_pure ⟨c, _, _, hy, fun u hstep honward hc hu => ?_⟩)
  obtain ⟨⟨⟨-, hi⟩, hrows⟩, he⟩ := hu
  rw [List.append_assoc]
  refine ReleaseStep.together (releaseStep hstep honward hc he₁ hi he hrows rfl rfl rfl ?_) hstep
  exact fun w hw => (List.mem_append.mp hw).elim (hus w) (hus' w)

/-! ### A claim -/

/-- An invite is found as it was committed at some point, but for its expiry. -/
def FoundAt (found : FoundInvite) (c : Db) : Prop :=
  ∃ i, c.invites.lookup found.id = some i ∧
    found.row.totalSchoolFee = i.totalSchoolFee ∧ found.row.amountAlreadyPaid = i.amountAlreadyPaid

/-- Expiry keeps the figures. -/
theorem expiry_together {inviteId : Id} {i : EnrollmentInvite} {s : Db} (hs : InStep s)
    (hi : s.invites.lookup inviteId = some i) (hstatus : i.status ∈ EXPIRABLE_STATUSES) :
    Together s (store.applyAll [.putInvite inviteId { i with status := .EXPIRED }] s) := by
  refine KeepsFigures.together (rowsKeepFigures_putInvite ?_) hs
  rw [hi]
  constructor
  · have hlive : i.status ≠ .CLAIMED := by
      intro h
      simp [h, EXPIRABLE_STATUSES] at hstatus
    simp [EnrollmentInvite.figures, hlive]
  · rintro _ ⟨⟩ h
    cases h

theorem findByToken_booking {env : InviteEnvironment} {rawToken : Option String}
    {ok : FoundInvite → Context → Prop} (hx : Booking c none (fun _ => True) x)
    (hok : ∀ found s y, FoundAt found s → Booking s none (fun _ => True) y → ok found y) :
    (findByToken env rawToken).wp store figuresContract ok (fun _ => Informed) x := by
  unfold findByToken
  refine Routine.wp_bind (hx.orThrow fun tokenHash _ => ?_)
  refine Routine.wp_bind (hx.read fun s y _ hy => ?_)
  refine Routine.wp_bind (hy.orThrow fun (id, invite) hfound => ?_)
  have hinvite : s.invites.lookup id = some invite :=
    Table.mem_rows.mp (List.mem_of_find?_eq_some hfound)
  refine Routine.wp_bind (hy.ask fun now y hy => ?_)
  refine Routine.wp_ite (fun _ => ?_) (fun _ => ?_)
  · have hdone : ∀ z, Booking s none (fun _ => True) z →
        ok ⟨id, { invite with status := .EXPIRED }, tokenHash⟩ z :=
      fun z hz => hok _ s z ⟨invite, hinvite, rfl, rfl⟩ hz
    refine Routine.wp_bind (Routine.wp_tryCatch (Routine.wp_bind ?_))
    refine Holding.outside store_frame informed_steady hy (fun _ z hz => ?_) fun n us z hz _ hws => ?_
    · exact Routine.wp_pure (Routine.wp_pure (hdone z hz))
    refine ⟨fun hne hnew => ?_, fun z hz => Routine.wp_pure (Routine.wp_pure (hdone z hz))⟩
    rcases updateInvites_writes hws with ⟨-, rfl⟩ | ⟨-, i, hi, hstatus, rfl⟩
    · exact absurd rfl hne
    · have htogether := expiry_together hz.now hi (of_decide_eq_true hstatus)
      exact ⟨htogether, hz.see htogether hnew⟩
  · exact Routine.wp_pure (hok _ s y ⟨invite, hinvite, rfl, rfl⟩ hy)

theorem resolveParent_booking {userId : Id} {ws : List Write} {ok : Id → Context → Prop}
    (hx : Booking c (some ws) P x)
    (hok : ∀ id us y, (∀ w ∈ us, w.Aside) → Booking c (some (ws ++ us)) P y → ok id y) :
    (resolveParent userId).wp store figuresContract ok (fun _ => Informed) x := by
  unfold resolveParent
  refine Routine.wp_bind (hx.findOrThrow fun account y hy => ?_)
  refine Routine.wp_bind (hy.ask fun id y hy => ?_)
  refine Routine.wp_bind (hy.aside ?_ fun _ us y hus hy => ?_)
  · grind [Write.Aside]
  refine Routine.wp_bind (hy.findOrThrow fun r y hy => ?_)
  exact Routine.wp_pure (hok _ us y hus hy)

theorem resolveChild_booking {parentId : Id} {invite : EnrollmentInvite} {ws : List Write}
    {ok : Id → Context → Prop} (hx : Booking c (some ws) P x)
    (hok : ∀ id us y, (∀ w ∈ us, w.Aside) → Booking c (some (ws ++ us)) P y → ok id y) :
    (resolveChild parentId invite).wp store figuresContract ok (fun _ => Informed) x := by
  unfold resolveChild
  refine Routine.wp_bind (hx.ask fun id y hy => ?_)
  refine Routine.wp_bind (hy.aside ?_ fun _ us y hus hy => ?_)
  · grind [Write.Aside]
  refine Routine.wp_bind (hy.findOrThrow fun r y hy => ?_)
  exact Routine.wp_pure (hok _ us y hus hy)

/-- What a claim commits, on what it finds then. -/
theorem claimStep {c u : Db} {found : FoundInvite} {i i' : EnrollmentInvite} {k m childId : Id}
    {now : Int} {us us' : List Write} (hstep : InStep u) (honward : Onward c u)
    (hfound : FoundAt found c) (hi : u.invites.lookup found.id = some i) (hpending : i.status = .PENDING)
    (hplan : u.enrollments.lookup k = none) (hpayment : u.payments.lookup m = none)
    (hclaimed : i'.status = .CLAIMED) (hfee : i'.totalSchoolFee = i.totalSchoolFee)
    (hamount : i'.amountAlreadyPaid = i.amountAlreadyPaid)
    (hus : ∀ w ∈ us, w.Aside) (hus' : ∀ w ∈ us', w.Aside) :
    ClaimStep u (store.applyAll ([.putInvite found.id i'] ++ us ++
      [.putEnrollment k (Ledger.migratedEnrollment found.id found.row childId)] ++
      [.putPayment m (Ledger.migratedPayment k found.row now)] ++ us') u) found.id k m := by
  obtain ⟨i₀, hi₀, hrowFee, hrowAmount⟩ := hfound
  obtain ⟨i₁, hi₁, hsameFee, hbefore, -⟩ := honward.invites found.id i hi
  obtain rfl := Option.some.inj (hi₀.symm.trans hi₁)
  have hsame := (hbefore hpending).2
  obtain ⟨hnonneg, hle⟩ := hstep.terms found.id i hi
  have hfirst := still_asides (v := Write.apply (.putInvite found.id i') u) hus
  have hlast := still_asides (v := store.applyAll ([.putInvite found.id i'] ++ us ++
      [.putEnrollment k (Ledger.migratedEnrollment found.id found.row childId)] ++
      [.putPayment m (Ledger.migratedPayment k found.row now)]) u) hus'
  rw [Store.applyAll_append]
  refine ⟨⟨i, i', Ledger.migratedEnrollment found.id found.row childId,
    Ledger.migratedPayment k found.row now, hi, hpending, hclaimed, hfee, rfl, rfl, rfl, ?_,
    fun j => ?_, fun j => ?_, fun j => ?_⟩, hplan, hpayment⟩
  · have hamountRow : found.row.amountAlreadyPaid = i'.amountAlreadyPaid := by
      rw [hrowAmount, hsame, hamount]
    have hfeeRow : found.row.totalSchoolFee = i'.totalSchoolFee := by rw [hrowFee, hsameFee, hfee]
    rw [← hamount] at hnonneg hle
    rw [← hfee] at hle
    refine ⟨hamountRow, hamountRow, hamountRow, hfeeRow, rfl, rfl, hnonneg, ?_, ?_⟩
    · rw [← hfeeRow] at hle
      exact hle
    · unfold ChildEnrollment.Opened Ledger.migratedEnrollment deriveMigratedPlan
      dsimp only
      split <;> simp
  · rw [hlast.invites]
    simp only [Store.applyAll_append]
    refine Eq.trans (congrArg (AList.lookup j) hfirst.invites) ?_
    exact Table.lookup_insert_ite u.invites found.id j i'
  · rw [hlast.enrollments]
    simp only [Store.applyAll_append]
    refine Eq.trans (Table.lookup_insert_ite _ k j _) ?_
    exact ite_congr rfl (fun _ => rfl) fun _ => congrArg (AList.lookup j) hfirst.enrollments
  · rw [hlast.payments]
    simp only [Store.applyAll_append]
    refine Eq.trans (Table.lookup_insert_ite _ m j _) ?_
    exact ite_congr rfl (fun _ => rfl) fun _ => congrArg (AList.lookup j) hfirst.payments

theorem claim_booking {env : InviteEnvironment} {rawToken : Option String} {user : AuthUser}
    (hx : Booking c none (fun _ => True) x) :
    (claim env rawToken user).wp store figuresContract (fun _ => Informed) (fun _ => Informed) x := by
  unfold claim
  refine Routine.wp_bind (findByToken_booking hx fun found s y hfound hy => ?_)
  unfold claimantPhoneMatches
  refine Routine.wp_bind (Routine.wp_bind (hy.look fun account y hy => Routine.wp_pure ?_))
  unfold assertNotAlreadyMigrated
  refine Routine.wp_bind (Routine.wp_bind (hy.findFirst fun migrated y hy => ?_))
  cases migrated with
  | some migrated => exact Routine.wp_throw hy.knows
  | none =>
    refine Routine.wp_pure (Routine.wp_bind (hy.look fun found' y hy => ?_))
    refine Routine.wp_bind (hy.orThrow fun school _ => ?_)
    unfold claimTransaction
    refine Routine.wp_bind (Routine.wp_tryCatch (hy.transaction (fun _ y hy htx => ?_) fun y hy => ?_))
    · exact Routine.Keeps.wp_figures inferInstance hy htx
    refine Routine.wp_bind (hy.ask fun now y hy => ?_)
    refine Routine.wp_bind (hy.ask fun claimedAt y hy => ?_)
    refine Routine.wp_bind (hy.updateInvites (fun y hy => ?_) fun i y hguard hy => ?_)
    · exact Routine.wp_bind (hy.throwIf fun h => absurd rfl h)
    obtain ⟨-, hpending, -⟩ := of_decide_eq_true hguard
    refine Routine.wp_bind (hy.throwIf fun _ => ?_)
    refine Routine.wp_bind (resolveParent_booking hy fun parentId us y hus hy => ?_)
    refine Routine.wp_bind (resolveChild_booking hy fun childId us' y hus' hy => ?_)
    rw [List.append_assoc] at hy
    have hasides : ∀ w ∈ us ++ us', w.Aside :=
      fun w hw => (List.mem_append.mp hw).elim (hus w) (hus' w)
    unfold Ledger.recordMigratedEnrollment
    refine Routine.wp_bind (hy.ask fun k y hy => ?_)
    refine Routine.wp_bind (Routine.wp_tryCatch (hy.createEnrollment (fun v => ?_)
      (fun e y hy => Routine.wp_throw hy.knows) fun y hy => ?_))
    · rw [Store.applyAll_append]
      exact (still_asides hasides).enrollments
    refine Routine.wp_bind (hy.ask fun m y hy => ?_)
    refine Routine.wp_bind (hy.ask fun paidAt y hy => ?_)
    refine Routine.wp_bind (hy.createPayment (fun v => ?_) fun y hy => ?_)
    · rw [Store.applyAll_append, Store.applyAll_append]
      exact (still_asides hasides).payments
    refine Routine.wp_bind (hy.aside ?_ fun _ us'' y hus'' hy => ?_)
    · grind [Write.Aside]
    refine Routine.wp_pure ⟨s, _, _, hy, fun u hstep honward _ hu => ?_⟩
    obtain ⟨⟨⟨-, hi⟩, hplan⟩, hpayment⟩ := hu
    exact ClaimStep.together (claimStep hstep honward hfound hi hpending hplan hpayment rfl rfl rfl
      hasides hus'') hstep

end Invites

/-! ### A withdrawn confirmation -/

namespace Ledger

variable {c : Db} {x : Context}

/-- An installment is reversed, and its plan gets a status that a plan from an invite may have. -/
theorem reversal_together {u : Db} {k m : Id} {e e₁ e₂ : ChildEnrollment} {p p' : Payment}
    {vs us : List Write} (hstep : InStep u) (he : u.enrollments.lookup k = some e)
    (hp : u.payments.lookup m = some p) (htype : p.paymentType = .INSTALLMENT)
    (htype' : p'.paymentType = .INSTALLMENT) (hopening : e₂.opening = e.opening)
    (hopened : e.enrollmentInviteId ≠ none → e₂.Opened)
    (hvs : e₂ = e₁ ∧ vs = [] ∨ vs = [.putEnrollment k e₂]) (hus : ∀ w ∈ us, w.Aside) :
    Together u (store.applyAll ([] ++ [.putPayment m p'] ++ [.putEnrollment k e₁] ++ vs ++ us) u) := by
  have hstill := still_asides (v := store.applyAll ([] ++ [.putPayment m p'] ++
    [.putEnrollment k e₁] ++ vs) u) hus
  rw [Store.applyAll_append]
  apply KeepsFigures.together _ hstep
  constructor
  · intro j
    have hrow : (store.applyAll ([] ++ [.putPayment m p'] ++ [.putEnrollment k e₁] ++ vs)
        u).enrollments.lookup j = if j = k then some e₂ else u.enrollments.lookup j := by
      rcases hvs with ⟨rfl, rfl⟩ | rfl
      · exact Table.lookup_insert_ite u.enrollments k j e₂
      · refine (Table.lookup_insert_ite _ k j e₂).trans (ite_congr rfl (fun _ => rfl) fun hj => ?_)
        exact AList.lookup_insert_ne hj
    rw [hstill.enrollments, hrow]
    split
    · next hj =>
      rw [hj, he]
      refine ⟨congrArg some hopening, ?_⟩
      rintro _ _ ⟨⟩ ⟨⟩ hinvite -
      exact hopened hinvite
    · exact .refl _
  · intro j
    have hrow : (store.applyAll ([] ++ [.putPayment m p'] ++ [.putEnrollment k e₁] ++ vs)
        u).payments.lookup j = if j = m then some p' else u.payments.lookup j := by
      rcases hvs with ⟨rfl, rfl⟩ | rfl <;> exact Table.lookup_insert_ite u.payments m j p'
    rw [hstill.payments, hrow]
    split
    · next hj =>
      rw [hj, hp]
      simp [KeepsPayment, Payment.opening?, htype, htype']
    · exact .refl _
  · intro id
    rw [hstill.invites]
    rcases hvs with ⟨rfl, rfl⟩ | rfl <;> exact .refl _

/-- The status of a plan from an invite, as a reversal computes it from an earlier one. -/
theorem reopened_opened {c u : Db} {k : Id} {before e : ChildEnrollment} (hc : InStep c)
    (honward : Onward c u) (hbefore : c.enrollments.lookup k = some before)
    (he : u.enrollments.lookup k = some e) (hinvite : e.enrollmentInviteId ≠ none)
    {e' : ChildEnrollment} (h : e'.paymentStatus =
      if before.paymentStatus = .COMPLETED then .ACTIVE else before.paymentStatus) : e'.Opened := by
  obtain ⟨id, hid⟩ := Option.ne_none_iff_exists'.mp hinvite
  have hfrom : c.PlanFrom id k before :=
    ⟨hbefore, (honward.plans k before e hbefore he).1.symm.trans hid⟩
  obtain ⟨i, hi, -⟩ := hc.claimed id k before hfrom
  obtain ⟨m, p, hp⟩ := hc.payment id k before hfrom
  have hopened := (hc.agrees id i k before m p hi hfrom hp).opened
  unfold ChildEnrollment.Opened at hopened ⊢
  rw [h]
  split
  · exact Or.inl rfl
  · exact hopened

theorem reversePayment_booking {paymentId schoolId : Id} {actor : AuditActor}
    {reason : Option String} (hx : Booking c none (fun _ => True) x) :
    (reversePayment paymentId schoolId actor reason).wp store figuresContract (fun _ => Informed)
      (fun _ => Informed) x := by
  unfold reversePayment
  refine Routine.wp_bind (hx.look fun found y hy => ?_)
  refine Routine.wp_bind (hy.orThrow fun payment _ => ?_)
  refine Routine.wp_bind (hy.transaction (fun result y hy htx => ?_) fun y hy => ?_)
  · exact Routine.Keeps.wp_figures inferInstance hy htx
  refine Routine.wp_bind (hy.updatePayments (fun _ => rfl) (fun y hy => ?_) fun p y hguard hy => ?_)
  · exact Routine.wp_bind (hy.throwIf fun h => absurd rfl h)
  obtain ⟨-, -, -, htype⟩ := of_decide_eq_true hguard
  refine Routine.wp_bind (hy.throwIf fun _ => ?_)
  refine Routine.wp_bind (Routine.wp_bind (hy.read fun s y _ hy => ?_))
  refine hy.orThrow fun before hbefore => ?_
  refine Routine.wp_bind (hy.updateEnrollment (fun _ => rfl) fun e y hy => ?_)
  refine Routine.wp_bind (hy.updateAgain fun e₂ vs y hvs hy => ?_)
  refine Routine.wp_bind (hy.findOrThrow fun updated y hy => ?_)
  refine Routine.wp_bind (hy.aside ?_ fun _ us y hus hy => ?_)
  · grind [Write.Aside]
  refine Routine.wp_bind (hy.createNotification fun y hy => Routine.wp_pure ?_)
  refine ⟨s, _, _, hy, fun u hstep honward hs hu => ?_⟩
  obtain ⟨⟨-, hp⟩, he⟩ := hu
  have hopened (hinvite : e.enrollmentInviteId ≠ none) : e₂.Opened := by
    apply reopened_opened hs honward hbefore he hinvite
    rcases hvs with ⟨rfl, -⟩ | ⟨rfl, -⟩ <;> simp
  have hopening : e₂.opening = e.opening := by rcases hvs with ⟨rfl, -⟩ | ⟨rfl, -⟩ <;> rfl
  refine reversal_together hstep he hp htype htype hopening hopened ?_ hus
  rcases hvs with hfirst | ⟨rfl, rfl⟩
  · exact Or.inl hfirst
  · exact Or.inr rfl

end Ledger

/-! ### A correction -/

namespace Ledger

variable {c : Db} {x : Context}

theorem statusAfterMigratedAmendment_opened {e : ChildEnrollment} (he : e.Opened) (balance : Int)
    {e' : ChildEnrollment}
    (h : e'.paymentStatus = statusAfterMigratedAmendment e.paymentStatus balance) : e'.Opened := by
  unfold ChildEnrollment.Opened at he ⊢
  rw [h]
  unfold statusAfterMigratedAmendment
  split
  · simp
  · split
    · simp
    · exact he

/-- What a correction commits, on what it finds then. -/
theorem correctionStep {c u : Db} {id k m : Id} {e₀ e e' : ChildEnrollment} {p₀ p p' : Payment}
    {i i' : EnrollmentInvite} {amount balance : Int} {us : List Write} (hstep : InStep u)
    (honward : Onward c u) (he₀ : c.PlanFrom id k e₀) (hp₀ : c.MigratedOn k m p₀)
    (he : u.enrollments.lookup k = some e) (hp : u.payments.lookup m = some p)
    (hi : u.invites.lookup id = some i) (hsuccess : p.status = .SUCCESS) (hnonneg : 0 ≤ amount)
    (hle : amount ≤ e₀.totalSchoolFee) (hus : ∀ w ∈ us, w.Aside)
    (hp' : p' = { p with amountPaid := amount, schoolAmount := amount })
    (he' : e' = { e with
      firstPaymentPaid := amount
      remainingBalance := balance
      paymentStatus := statusAfterMigratedAmendment e.paymentStatus balance })
    (hi' : i' = { i with amountAlreadyPaid := amount }) :
    CorrectionStep u (store.applyAll ([.lockEnrollment k] ++ [.putPayment m p'] ++
      [.putEnrollment k e'] ++ [.putInvite id i'] ++ us) u) id k m := by
  obtain ⟨horigin, hfee⟩ := honward.plans k e₀ e he₀.1 he
  have hfrom : u.PlanFrom id k e := ⟨he, horigin.trans he₀.2⟩
  obtain ⟨p₁, hp₁⟩ := honward.payments k e m p₀ hp₀ he
  obtain rfl := Option.some.inj (hp.symm.trans hp₁.1)
  obtain ⟨-, -, -, hsame, -, hconfirmed, -, -, hopened⟩ := hstep.agrees id i k e m p hi hfrom hp₁
  have hstill := still_asides (v := store.applyAll ([.lockEnrollment k] ++ [.putPayment m p'] ++
      [.putEnrollment k e'] ++ [.putInvite id i']) u) hus
  rw [Store.applyAll_append]
  have hmatches : i'.Matches e' p' := by
    subst hp' he' hi'
    refine ⟨rfl, rfl, rfl, hsame, hsuccess, hconfirmed, hnonneg, ?_, ?_⟩
    · rw [← hfee] at hle
      exact hle
    · exact statusAfterMigratedAmendment_opened hopened balance rfl
  refine ⟨i, i', e, e', p, p', hi, hfrom, hp₁, ?_, ?_, ?_, ?_, ?_, ?_, hmatches,
    fun j => ?_, fun j => ?_, fun j => ?_⟩
  · rw [hi']
  · rw [hi']
  · rw [he']
  · rw [he']
  · rw [hp']
  · rw [hp']
  · rw [hstill.invites]
    exact Table.lookup_insert_ite u.invites id j i'
  · rw [hstill.enrollments]
    exact Table.lookup_insert_ite u.enrollments k j e'
  · rw [hstill.payments]
    exact Table.lookup_insert_ite u.payments m j p'

theorem amendMigratedPayment_booking {enrollmentId : Id} {newAmountKobo : Int} {schoolId : Id}
    {actor : AuditActor} {reason : Option String} (hx : Booking c none (fun _ => True) x) :
    (amendMigratedPayment enrollmentId newAmountKobo schoolId actor reason).wp store figuresContract
      (fun _ => Informed) (fun _ => Informed) x := by
  unfold amendMigratedPayment
  refine Routine.wp_bind (hx.throwIf fun hnonneg => ?_)
  refine Routine.wp_bind (hx.read fun s y _ hy => ?_)
  refine Routine.wp_bind (hy.orThrow fun (enrollment, payments) hfound => ?_)
  refine Routine.wp_bind (hy.ask fun order y hy => ?_)
  refine Routine.wp_bind (hy.orThrow fun (migratedId, migrated) hhead => ?_)
  refine Routine.wp_bind (hy.throwIf fun hle => ?_)
  refine Routine.wp_bind (hy.throwIf fun _ => ?_)
  obtain ⟨plan, hplan, hrest⟩ := Option.map_eq_some_iff.mp hfound
  obtain ⟨rfl, rfl⟩ := Prod.mk.inj hrest
  obtain ⟨-, hrow⟩ := Db.plan?_eq_some (Option.filter_eq_some_iff.mp hplan).1
  have hmigrated : s.MigratedOn enrollmentId migratedId migrated := by
    have hmem := mem_of_mem_arrange (List.mem_of_head? hhead)
    obtain ⟨hstored, hfilter⟩ := List.mem_filter.mp hmem
    simp only [decide_eq_true_eq, Bool.decide_and, Bool.and_eq_true] at hfilter
    exact ⟨Table.mem_rows.mp hstored, hfilter.2.1, hfilter.1⟩
  have hseen := (hy.knows.seen s hy.remembers).1
  obtain ⟨id, e₀, he₀⟩ := hseen.placed enrollmentId migratedId migrated hmigrated
  obtain rfl := Option.some.inj (hrow.symm.trans he₀.1)
  refine Routine.wp_bind (hy.transaction (fun result y hy htx => ?_) fun y hy => ?_)
  · exact Routine.Keeps.wp_figures inferInstance hy htx
  refine Routine.wp_bind (hy.lockEnrollment fun row y hy => ?_)
  refine Routine.wp_bind (hy.orThrow fun locked hlocked => ?_)
  subst hlocked
  refine Routine.wp_bind (hy.look fun installmentsPaid y hy => ?_)
  refine Routine.wp_bind (hy.throwIf fun _ => ?_)
  refine Routine.wp_bind (hy.updatePayments (fun _ => rfl) (fun y hy => ?_) fun p y hguard hy => ?_)
  · exact Routine.wp_bind (hy.throwIf fun h => absurd rfl h)
  obtain ⟨-, hsuccess, -⟩ := of_decide_eq_true hguard
  refine Routine.wp_bind (hy.throwIf fun _ => ?_)
  refine Routine.wp_bind (hy.updateEnrollment (fun _ => rfl) fun e y hy => ?_)
  rw [he₀.2]
  refine Routine.wp_bind (hy.restateInvite (fun _ => rfl) (fun t ht honward hP => ?_) fun i y hy => ?_)
  · obtain ⟨i, hi, -⟩ := ht.claimed id enrollmentId e
      ⟨hP.2, (honward.plans enrollmentId plan.row e hrow hP.2).1.trans he₀.2⟩
    exact ⟨i, hi⟩
  refine Routine.wp_bind (hy.aside ?_ fun _ us y hus hy => Routine.wp_pure ?_)
  · grind [Write.Aside]
  refine ⟨s, _, _, hy, fun u hstep honward _ hu => ?_⟩
  obtain ⟨⟨⟨⟨-, hlocked⟩, hp⟩, he⟩, hi⟩ := hu
  obtain rfl := Option.some.inj (hlocked.symm.trans he)
  exact CorrectionStep.together (correctionStep hstep honward he₀ hmigrated he hp hi hsuccess
    (not_lt.mp hnonneg) (not_lt.mp hle) hus rfl rfl rfl) hstep

end Ledger

namespace Invites

variable {c : Db} {x : Context}

theorem amend_booking {inviteId : Id} {amountAlreadyPaid : ℚ} {reason : Option String}
    {actor : AuthUser} (hx : Booking c none (fun _ => True) x) :
    (amend inviteId amountAlreadyPaid reason actor).wp store figuresContract (fun _ => Informed)
      (fun _ => Informed) x := by
  unfold amend
  refine Routine.wp_bind (assertOwnsSchool_booking hx fun school y hy => ?_)
  refine Routine.wp_bind (hy.look fun found y hy => ?_)
  refine Routine.wp_bind (hy.orThrow fun (invite, enrollment) _ => ?_)
  refine Routine.wp_bind (hy.orThrow fun (k, row) _ => ?_)
  exact Ledger.amendMigratedPayment_booking hy

end Invites

end Lopay
