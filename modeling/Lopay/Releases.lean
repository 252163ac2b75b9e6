import Lopay.Invites.Claims
import Lopay.Transactions.Follow
import Lopay.Transactions.Holding
import Lopay.Work

/-!
# What a release takes along

`releaseMigratedEnrollment` reads the payments of its plan, refuses if an installment has been
confirmed, and deletes them all in the next statement. Nothing is locked between the two. Where
nobody confirms the first installment of the plan just then, no release deletes one.
-/

namespace Lopay

open Transactions

/-- An installment whose money has arrived. -/
def Payment.Settled (p : Payment) : Prop :=
  p.paymentType = .INSTALLMENT ∧ p.isConfirmed = true ∧ p.status = .SUCCESS

instance (p : Payment) : Decidable p.Settled := inferInstanceAs (Decidable (_ ∧ _))

/-- No installment of the plan has been confirmed. -/
def Unsettled (k : Id) (s : Db) : Prop :=
  Ledger.settledInstallments (s.paymentsOf k fun _ => true) = []

instance (k : Id) (s : Db) : Decidable (Unsettled k s) := inferInstanceAs (Decidable (_ = _))

theorem unsettled_iff {k : Id} {s : Db} :
    Unsettled k s ↔ ∀ r ∈ s.paymentsOf k fun _ => true, ¬ r.2.Settled := by
  simp [Unsettled, Ledger.settledInstallments, List.filter_eq_nil_iff, Payment.Settled]

/-- No confirmed installment is gone. -/
def SparesSettled (s s' : Db) : Prop :=
  ∀ m p, s.payments.lookup m = some p → s'.payments.lookup m = none → ¬ p.Settled

/-- The invite of a release that has read the payments and not deleted them yet: four of its
    statements have run, and in its transaction it has written the invite only. -/
def removing? (x : Context) : Option Id :=
  match x.tx with
  | some [.putInvite inviteId _] => if x.ran = 4 then some inviteId else none
  | _ => none

/-- The job is a release. -/
def Work.releases : Work → Bool
  | .invites (.release _ _ _) => true
  | _ => false

/-- What is committed while a release is about to delete: no first installment of a plan that it
    has seen under its invite is confirmed. -/
def lingers (y : Context) (ws : List Write) : Prop :=
  ∀ inviteId ∈ removing? y, ∀ c ∈ y.seen, ∀ r ∈ c.invited inviteId,
    Unsettled r.1 y.now → Unsettled r.1 (store.applyAll ws y.now)

/-- Nobody confirms the first installment of a plan while a release is about to delete it. -/
def LeavesRemovals (t : Office) (e : Event Work Answer) (t' : Office) : Prop :=
  ∀ q ∈ t.others e, q.prog.finished = false → q.job.releases = true →
    ∀ inviteId ∈ removing? q.ctx, ∀ c ∈ q.ctx.seen, ∀ r ∈ c.invited inviteId,
      Unsettled r.1 t.store → Unsettled r.1 t'.store

instance (t : Office) (e : Event Work Answer) (t' : Office) : Decidable (LeavesRemovals t e t') :=
  inferInstanceAs (Decidable (∀ q ∈ t.others e, _))

/-- The contract of a release. -/
abbrev removalContract : Contract Db Write Answer :=
  counting lingers (fun _ _ => True) fun y ws => SparesSettled y.now (store.applyAll ws y.now)

/-! ### Up to the delete -/

/-- Where a release is: its transaction, how many statements it has run, and a state that it
    has seen. -/
structure Stage (c : Db) (tx : Option (List Write)) (n : Nat) (x : Context) : Prop where
  begun : x.tx = tx
  ran : x.ran = n
  remembers : c ∈ x.seen

namespace Stage

variable {c : Db} {tx : Option (List Write)} {n : Nat} {x y : Context} {α : Type}

theorem drift {R : Context → List Write → Prop} (h : Stage c tx n x) (hd : Drift store R x y) :
    Stage c tx n y where
  begun := hd.tx_eq.trans h.begun
  ran := hd.ran_eq.trans h.ran
  remembers := hd.seen_subset c h.remembers

theorem wrote_nil (h : Stage c tx n x) : Stage c tx (n + 1) (x.wrote store []) where
  begun := by
    rw [Ctx.wrote_tx, h.begun]
    cases tx with
    | none => rfl
    | some ws => rw [Option.map_some, List.append_nil]
  ran := by rw [Ctx.wrote_ran, h.ran]
  remembers := by
    have hseen : (x.wrote store []).seen = x.seen := by
      unfold Ctx.wrote
      cases x.tx <;> rfl
    rw [hseen]
    exact h.remembers

variable {ok : α → Context → Prop}

theorem ask {request : Call} {ok : Answer request → Context → Prop} (hx : Stage c tx n x)
    (h : ∀ a y, Stage c tx n y → ok a y) :
    (Lopay.ask request).wp store removalContract ok (fun _ _ => True) x :=
  Routine.wp_ask fun _ hd =>
    ⟨trivial, fun a _ => h a _ ⟨(hx.drift hd).begun, (hx.drift hd).ran, (hx.drift hd).remembers⟩⟩

/-- Remember what is committed now instead. -/
theorem fresh (h : Stage c tx n x) : Stage x.now tx n x :=
  { h with remembers := List.mem_cons_self }

theorem read {q : Db → α} (hx : Stage c tx n x)
    (h : ∀ y, Stage c tx (n + 1) y → ok (q (store.applyAll (tx.getD []) y.now)) y) :
    (Lopay.read q).wp store removalContract ok (fun _ _ => True) x := by
  apply Routine.wp_query
  intro y hd
  have hy := hx.drift hd
  refine ⟨fun _ => trivial, ?_⟩
  have hview : y.view store = store.applyAll (tx.getD []) (y.wrote store []).now := by
    rw [Ctx.view, Ctx.pending, hy.begun, Ctx.wrote_now, Ctx.released_nil, Store.applyAll_nil]
  rw [hview]
  exact h _ hy.wrote_nil

theorem orThrow {o : Option α} {e : Err} (h : ∀ a, o = some a → ok a x) :
    (Routine.orThrow o e : Action α).wp store removalContract ok (fun _ _ => True) x :=
  Routine.wp_orThrow (fun _ => trivial) h

theorem throwIf {p : Prop} [Decidable p] {e : Err} {ok : Unit → Context → Prop}
    (h : ¬ p → ok () x) :
    (Routine.throwIf p e : Action Unit).wp store removalContract ok (fun _ _ => True) x :=
  Routine.wp_throwIf (fun _ => trivial) h

/-- The first statement that writes. -/
theorem updateInvites {id : Id} {filter : EnrollmentInvite → Bool}
    {data : EnrollmentInvite → EnrollmentInvite} {ok : Nat → Context → Prop}
    (hx : Stage c (some []) n x) (hnone : ∀ y, ok 0 y)
    (hsome : ∀ i y, Stage c (some [.putInvite id i]) (n + 1) y → ok 1 y) :
    (Lopay.updateInvites id filter data).wp store removalContract ok (fun _ _ => True) x := by
  apply Routine.wp_exec
  intro y hd
  have hy := hx.drift hd
  refine ⟨fun _ => trivial, fun _ _ => trivial, fun m ws hws => ?_⟩
  have hreleased : y.released ws = [] := by simp only [Ctx.released, hy.begun]
  rw [hreleased]
  refine ⟨fun hne => absurd rfl hne, fun _ => ?_⟩
  rcases Invites.updateInvites_writes hws with ⟨rfl, rfl⟩ | ⟨rfl, i, -, -, rfl⟩
  · exact hnone _
  · refine hsome (data i) _ ⟨?_, ?_, ?_⟩
    · rw [Ctx.wrote_tx, hy.begun]
      rfl
    · rw [Ctx.wrote_ran, hy.ran]
    · unfold Ctx.wrote
      rw [hy.begun]
      exact hy.remembers

/-- While the release is about to delete, its plan stays without a confirmed installment. -/
theorem unsettled {inviteId k : Id} {i : EnrollmentInvite} {row : ChildEnrollment}
    (hx : Stage c (some [.putInvite inviteId i]) 4 x) (hplan : c.invited inviteId = some (k, row))
    (hunsettled : Unsettled k x.now) (hd : Drift store lingers x y) : Unsettled k y.now := by
  induction hd with
  | refl => exact hunsettled
  | @step u ws hd _ hR _ ih =>
    have hu := hx.drift hd
    have hremoving : removing? u = some inviteId := by
      simp only [removing?, hu.begun, hu.ran, if_true]
    rw [Ctx.see_now]
    exact hR inviteId hremoving c hu.remembers (k, row) hplan ih

end Stage

/-- A transaction whose commit spares the confirmed installments. -/
theorem Stage.transaction {c : Db} {n : Nat} {x : Context} {α : Type} {body : Action α}
    {ok : α → Context → Prop} (hx : Stage c none n x) (hok : ∀ a y, ok a y)
    (hbody : ∀ y, Stage c (some []) n y → body.wp store removalContract
      (fun _ z => ∀ u, Drift store lingers z u →
        SparesSettled u.now (store.applyAll u.pending u.now)) (fun _ _ => True) y) :
    (Lopay.transaction body).wp store removalContract ok (fun _ _ => True) x := by
  refine Routine.wp_transaction fun y hd => ?_
  have hy := hx.drift hd
  refine Routine.wp_mono ?_ (fun _ _ _ _ _ => trivial) (hbody y.opened ⟨rfl, hy.ran, hy.remembers⟩)
  exact fun a z hz u hu => ⟨fun _ => trivial, fun _ _ => hz u hu, fun _ => hok _ _⟩

/-! ### The delete and the commit -/

/-- A release that has deleted the payments it found, none of them confirmed. -/
abbrev Removing (rows : List (Id × Payment)) (ws : List Write) (x : Context) : Prop :=
  ∃ c, Holding store agree (fun _ => True) c (some ws)
    (fun s => ∀ r ∈ rows, s.payments.lookup r.1 = some r.2) x

theorem anything_steady : Steady store lingers fun _ => True where
  moved := fun _ _ _ => trivial
  see := fun _ _ => trivial

/-- Rows that were found under their keys are deleted, and nothing else is. -/
theorem sparesSettled_of_deletes {rows : List (Id × Payment)} {i : EnrollmentInvite}
    {inviteId : Id} {vs : List Write} {s : Db} (hrows : ∀ r ∈ rows, s.payments.lookup r.1 = some r.2)
    (hunsettled : ∀ r ∈ rows, ¬ r.2.Settled)
    (hvs : ∀ u : Db, (store.applyAll vs u).payments = u.payments) :
    SparesSettled s (store.applyAll
      ([.putInvite inviteId i] ++ (rows.map fun r => .deletePayment r.1 r.2) ++ vs) s) := by
  intro m p hp hgone
  rw [Store.applyAll_append, Store.applyAll_append, hvs, Invites.lookup_deletePayments] at hgone
  split at hgone
  · next hmem =>
    obtain ⟨r, hr, rfl⟩ := List.mem_map.mp hmem
    obtain rfl := Option.some.inj ((hrows r hr).symm.trans hp)
    exact hunsettled r hr
  · exact absurd (hp.symm.trans hgone) (by simp)

/-- A statement that writes no payment. -/
theorem Removing.aside {α : Type} {rows : List (Id × Payment)} {ws : List Write} {x : Context}
    {f : Db → Except Err (α × List Write)} {ok : α → Context → Prop} (hx : Removing rows ws x)
    (hf : ∀ v a us, f v = .ok (a, us) → ∀ u : Db, (store.applyAll us u).payments = u.payments)
    (h : ∀ a us y, (∀ u : Db, (store.applyAll us u).payments = u.payments) →
      Removing rows (ws ++ us) y → ok a y) :
    (statement f).wp store removalContract ok (fun _ _ => True) x := by
  obtain ⟨c, hx⟩ := hx
  refine Holding.inside store_frame anything_steady hx (fun _ _ _ => trivial) fun a us y hy hws => ?_
  exact h a us _ (hf _ a us hws) ⟨c, hy.wrote_beside anything_steady us⟩

/-- The payments of a plan without a confirmed installment are deleted as they are found. -/
theorem Stage.deletePayments {c : Db} {inviteId k : Id} {i : EnrollmentInvite}
    {row : ChildEnrollment} {x : Context} {ok : Nat → Context → Prop}
    (hx : Stage c (some [.putInvite inviteId i]) 4 x) (hplan : c.invited inviteId = some (k, row))
    (hunsettled : Unsettled k x.now)
    (h : ∀ n rows y, (∀ r ∈ rows, ¬ r.2.Settled) → Removing rows
      ([.putInvite inviteId i] ++ rows.map fun r => .deletePayment r.1 r.2) y → ok n y) :
    (Lopay.deletePayments k).wp store removalContract ok (fun _ _ => True) x := by
  unfold Lopay.deletePayments statement
  apply Routine.wp_exec
  intro y hd
  have hy := hx.drift hd
  have hclear := hx.unsettled hplan hunsettled hd
  have hreleased (ws : List Write) : y.released ws = [] := by simp only [Ctx.released, hy.begun]
  refine ⟨fun _ => trivial, fun _ _ => trivial, fun n ws hws => ?_⟩
  rw [hreleased]
  refine ⟨fun hne => absurd rfl hne, fun _ => ?_⟩
  have hview : y.view store = store.applyAll [.putInvite inviteId i] y.now := by
    rw [Ctx.view, Ctx.pending, hy.begun]
    rfl
  rw [hview] at hws
  obtain ⟨rfl, rfl⟩ := Prod.mk.inj (Except.ok.inj hws)
  have hholding : Holding store agree (fun _ => True) c (some [.putInvite inviteId i])
      (fun _ => True) y :=
    ⟨hy.begun, trivial, hy.remembers, trivial, fun _ _ _ h => h⟩
  refine h _ (y.now.paymentsOf k fun _ => true) _ (unsettled_iff.mp hclear) ⟨c, ?_⟩
  have hwrote := hholding.wrote anything_steady
    (v := (y.now.paymentsOf k fun _ => true).map fun r => .deletePayment r.1 r.2)
    (Q := fun s => ∀ r ∈ y.now.paymentsOf k fun _ => true, s.payments.lookup r.1 = some r.2)
    (fun r hr => Table.mem_rows.mp (List.mem_filter.mp hr).1) ?_
  · exact { hwrote with
      holds := hwrote.holds.2
      keeps := fun s t hl hs => (hwrote.keeps s t hl ⟨trivial, hs⟩).2 }
  · intro s t hlocks hs r hr
    refine (hlocks (.payment r.1) ?_).trans (hs r hr)
    rw [Store.locksOf_append]
    refine List.mem_append_right _ (List.mem_flatMap.mpr ⟨_, List.mem_map_of_mem hr, ?_⟩)
    exact List.mem_cons_self

namespace Invites

variable {x : Context}

theorem notifyUser_removal (n : Notification) :
    (notifyUser n).wp store removalContract (fun _ _ => True) (fun _ _ => True) x := by
  refine Routine.wp_tryCatch (Routine.wp_bind (Routine.wp_ask fun _ _ => ⟨trivial, fun _ _ => ?_⟩))
  exact Routine.wp_throwIf (fun _ => Routine.wp_pure trivial) fun _ => trivial

theorem emitChanges_removal (targets : ChangeTargets) :
    (emitChanges targets).wp store removalContract (fun _ _ => True) (fun _ _ => True) x := by
  refine Routine.wp_bind (Routine.wp_ask fun _ _ => ⟨trivial, fun _ _ => ?_⟩)
  refine Routine.wp_bind (Routine.wp_ask fun _ _ => ⟨trivial, fun _ _ => ?_⟩)
  exact Routine.wp_pure trivial

theorem release_removal {inviteId : Id} {actor : AuthUser} {reason : Option String} {c : Db}
    (hx : Stage c none 0 x) :
    (release inviteId actor reason).wp store removalContract (fun _ _ => True) (fun _ _ => True)
      x := by
  unfold release assertOwnsSchool
  refine Routine.wp_bind (Routine.wp_bind (Stage.orThrow fun schoolId _ => ?_))
  refine Routine.wp_bind (Stage.throwIf fun _ => ?_)
  refine Routine.wp_bind (hx.read fun y hy => ?_)
  refine Routine.wp_bind (Stage.orThrow fun school _ => Routine.wp_pure ?_)
  refine Routine.wp_bind (hy.read fun y hy => ?_)
  refine Routine.wp_bind (Stage.orThrow fun (invite, enrollment) hfound => ?_)
  refine Routine.wp_bind (Stage.orThrow fun (k, row) hplan => ?_)
  have hinvited : y.now.invited inviteId = some (k, row) := by
    obtain ⟨i, -, hi⟩ := Option.map_eq_some_iff.mp hfound
    exact (Prod.mk.inj hi).2.trans hplan
  refine Routine.wp_bind (hy.fresh.transaction (fun _ y => ?_) fun y hy => ?_)
  · cases given invite.claimedByUserId with
    | none => exact emitChanges_removal _
    | some userId =>
      refine Routine.wp_bind (Routine.wp_mono (fun _ y _ => ?_) (fun _ _ h => h)
        (notifyUser_removal _))
      exact emitChanges_removal _
  refine Routine.wp_bind (hy.ask fun now y hy => ?_)
  refine Routine.wp_bind (hy.updateInvites (fun y => ?_) fun i y hy => ?_)
  · exact Routine.wp_bind (Stage.throwIf fun h => absurd rfl h)
  refine Routine.wp_bind (Stage.throwIf fun _ => ?_)
  unfold Ledger.releaseMigratedEnrollment
  refine Routine.wp_bind (Routine.wp_bind (hy.read fun y hy => ?_))
  refine Routine.wp_bind (Stage.orThrow fun (e, payments) hread => ?_)
  refine Routine.wp_bind (Stage.throwIf fun hsettled => ?_)
  have hunsettled : Unsettled k y.now := by
    obtain ⟨e', -, he'⟩ := Option.map_eq_some_iff.mp hread
    obtain ⟨-, rfl⟩ := Prod.mk.inj he'
    exact not_not.mp hsettled
  refine Routine.wp_bind (hy.deletePayments hinvited hunsettled fun n rows y hrows hy => ?_)
  refine Routine.wp_bind (hy.aside (fun v a us hus u => ?_) fun _ us y hus hy => ?_)
  · obtain ⟨plan, rfl⟩ : ∃ plan, us = [.deleteEnrollment k plan] := by grind
    rfl
  refine Routine.wp_bind (hy.aside (fun v a us hus u => ?_) fun _ us' y hus' hy => ?_)
  · obtain ⟨child, rfl⟩ : ∃ child, us = [.deleteChild row.childId child] := by grind
    rfl
  refine Routine.wp_bind (hy.aside (fun v a us hus u => ?_) fun _ us'' y hus'' hy => ?_)
  · obtain ⟨entry, rfl⟩ : ∃ entry, us = [.audit entry] := by grind
    rfl
  refine Routine.wp_pure (Routine.wp_pure fun u hu => ?_)
  obtain ⟨c, hy⟩ := hy
  have hheld := hy.drift store_frame anything_steady hu
  rw [hheld.pending, Option.getD_some, List.append_assoc, List.append_assoc]
  refine sparesSettled_of_deletes hheld.holds hrows fun v => ?_
  simp only [Store.applyAll_append, hus, hus', hus'']

end Invites

/-! ### In any interleaving -/

/-- What each job keeps to: a release is left alone while it deletes, the others need nothing. -/
def removals (w : Work) : Contract Db Write Answer :=
  counting (fun y ws => w.releases = true → lingers y ws) (fun _ _ => True)
    fun y ws => w.releases = true → SparesSettled y.now (store.applyAll ws y.now)

theorem removals_wp (env : InviteEnvironment) (w : Work) (s : Db) :
    (w.program env).wp store (removals w) (fun _ _ => True) (.init s) := by
  cases hreleases : w.releases with
  | true =>
    obtain ⟨inviteId, actor, reason, rfl⟩ : ∃ inviteId actor reason,
        w = .invites (.release inviteId actor reason) := by
      unfold Work.releases at hreleases
      split at hreleases
      · exact ⟨_, _, _, rfl⟩
      · cases hreleases
    refine Prog.wp_weaken ?_ (fun _ _ h => h)
      (wp_map_run (Invites.release_removal (c := s) ⟨rfl, rfl, List.mem_cons_self⟩))
    exact ⟨fun _ _ h => h rfl, fun _ _ _ h => h, fun _ h => h, fun _ _ h => h,
      fun _ _ h _ => h, fun _ _ h => h⟩
  | false =>
    refine Prog.wp_weaken ?_ (fun _ _ h => h)
      (Prog.wp_plain (R := fun y ws => w.releases = true → lingers y ws))
    refine ⟨fun _ _ h => h, fun _ _ _ h => h, fun _ h => h, fun _ _ h => h, fun _ _ _ h => ?_,
      fun _ _ h => h⟩
    exact absurd (h.symm.trans hreleases) (by decide)

theorem removals_discipline (env : InviteEnvironment) :
    Discipline store (Work.program env) LeavesRemovals removals (fun _ _ _ => True)
      fun _ => True := by
  constructor
  · exact fun _ _ w _ _ => removals_wp env w _
  · exact fun _ _ _ _ _ _ _ _ _ => trivial
  · exact fun _ _ _ _ _ _ _ _ => trivial
  · exact fun _ _ _ _ _ _ _ _ _ _ _ => trivial
  · exact fun _ _ _ _ _ _ _ _ _ _ _ _ _ => trivial
  · rintro t t' pid ch p i q ws hguard - hq hne hrun - - hqnow hstore - - hreleases
    have hmem : q ∈ t.others (.move pid ch) := List.mem_eraseIdx_iff_getElem?.mpr ⟨i, hne, hq⟩
    have hleft := hguard q hmem hrun hreleases
    rw [hstore, ← hqnow] at hleft
    exact hleft

/-- In any run in which nobody confirms the first installment of a plan between a release's read
    of its payments and their delete, no release deletes a confirmed installment. -/
theorem release_spares_settled (env : InviteEnvironment) {start : Db → Prop} {t t' : Office}
    (ht : Sys.Reach store (Work.program env) LeavesRemovals start t) {pid : Nat}
    {ch : Choice Answer} (hstep : t.step store (Work.program env) (.move pid ch) = some t')
    (hleft : LeavesRemovals t (.move pid ch) t') {x : Proc Work Db Write Answer (Except Err Reply)}
    (hx : t.procs[pid]? = some x) (hrelease : x.job.releases = true) {m : Id} {p : Payment}
    (hp : t.store.payments.lookup m = some p) (hgone : t'.store.payments.lookup m = none) :
    ¬ p.Settled := by
  have hgood := ht.good (removals_discipline env) fun _ _ => trivial
  rcases hgood.committed (removals_discipline env) hstep hleft with
    hsame | ⟨pid', ch', x', ws, hmove, hx', -, hnow, hspares, hstore⟩
  · rw [hsame, hp] at hgone
    cases hgone
  · obtain ⟨rfl, rfl⟩ := Event.move.inj hmove
    obtain rfl := Option.some.inj (hx.symm.trans hx')
    have hcommit : SparesSettled x.ctx.now (store.applyAll ws x.ctx.now) := hspares hrelease
    rw [hnow, ← hstore] at hcommit
    exact hcommit m p hp hgone

/-- The parent has claimed the plan `a17` and says that the installment `x4` is paid. -/
def installmentSubmitted : List (Event Work Answer) :=
  working 0 firstClaim "a" 29 ++
  working 1 (.payments (.submitInstallmentPayment "a17" 25000 parentUser none none)) "x" 10

/-- The school takes the claim back. -/
def takeBack : Work := .invites (.release "invite" schoolOwner none)

/-- The plan goes, with the installment that nobody has confirmed. -/
theorem release_spares_settled_undisturbed : ∃ (t t' : Office) (p : Payment),
    Sys.exec store (Work.program inviteEnvironment) (fun t e t' => decide (LeavesRemovals t e t'))
      (installmentSubmitted ++ working 2 takeBack "b" 10) (.init invitedInTime) = some t ∧
    t.step store (Work.program inviteEnvironment) (.move 2 (smoothly "b" 10)) = some t' ∧
    t.store.payments.lookup "x4" = some p ∧ t'.store.payments.lookup "x4" = none ∧
    ¬ p.Settled := by
  have hruns : ((Sys.exec store (Work.program inviteEnvironment)
      (fun t e t' => decide (LeavesRemovals t e t'))
      (installmentSubmitted ++ working 2 takeBack "b" 10) (.init invitedInTime)).any fun t =>
        (t.step store (Work.program inviteEnvironment) (.move 2 (smoothly "b" 10))).any fun t' =>
          (t.procs[2]?).any fun x => (t.store.payments.lookup "x4").any fun _ =>
            x.job.releases = true ∧ t'.store.payments.lookup "x4" = none ∧
            LeavesRemovals t (.move 2 (smoothly "b" 10)) t') = true := by
    decide +kernel
  obtain ⟨t, ht, hany⟩ := (Option.any_eq_true _ _).mp hruns
  obtain ⟨t', ht', hany⟩ := (Option.any_eq_true _ _).mp hany
  obtain ⟨x, hx, hany⟩ := (Option.any_eq_true _ _).mp hany
  obtain ⟨p, hp, hcond⟩ := (Option.any_eq_true _ _).mp hany
  obtain ⟨hrelease, hgone, hleft⟩ := of_decide_eq_true hcond
  have hreach : Sys.Reach store (Work.program inviteEnvironment) LeavesRemovals
      (fun db => db = invitedInTime) t :=
    Sys.reach_of_exec (fun _ _ _ h => of_decide_eq_true h) (.init rfl) ht
  refine ⟨t, t', p, ht, ht', hp, hgone, ?_⟩
  exact release_spares_settled inviteEnvironment hreach ht' hleft hx hrelease hp hgone

/-- The release has read that no installment is confirmed when the school confirms `x4`. -/
def confirmedMeanwhile : List (Event Work Answer) :=
  installmentSubmitted ++ working 2 takeBack "b" 6 ++
  working 3 (.payments (.confirmPayment "x4" "school" owner)) "c" 11 ++
  (List.range' 6 4).map fun i => .move 2 (smoothly "b" i)

/-- It then deletes the confirmed installment with the plan. -/
theorem release_spares_settled_needs_condition :
    ¬ ∀ (t t' : Office) pid ch x m p,
      Sys.Reach store (Work.program inviteEnvironment) (fun _ _ _ => True)
        (fun db => db = invitedInTime) t →
      t.step store (Work.program inviteEnvironment) (.move pid ch) = some t' →
      t.procs[pid]? = some x → x.job.releases = true →
      t.store.payments.lookup m = some p → t'.store.payments.lookup m = none → ¬ p.Settled := by
  intro hlaw
  have hruns : ((Sys.exec store (Work.program inviteEnvironment) (fun _ _ _ => true)
      confirmedMeanwhile (.init invitedInTime)).any fun t =>
        (t.step store (Work.program inviteEnvironment) (.move 2 (smoothly "b" 10))).any fun t' =>
          (t.procs[2]?).any fun x => (t.store.payments.lookup "x4").any fun p =>
            x.job.releases = true ∧ t'.store.payments.lookup "x4" = none ∧ p.Settled) = true := by
    decide +kernel
  obtain ⟨t, ht, hany⟩ := (Option.any_eq_true _ _).mp hruns
  obtain ⟨t', ht', hany⟩ := (Option.any_eq_true _ _).mp hany
  obtain ⟨x, hx, hany⟩ := (Option.any_eq_true _ _).mp hany
  obtain ⟨p, hp, hcond⟩ := (Option.any_eq_true _ _).mp hany
  obtain ⟨hrelease, hgone, hsettled⟩ := of_decide_eq_true hcond
  have hreach : Sys.Reach store (Work.program inviteEnvironment) (fun _ _ _ => True)
      (fun db => db = invitedInTime) t := Sys.reach_of_exec (fun _ _ _ _ => trivial) (.init rfl) ht
  exact hlaw t t' 2 _ x "x4" p hreach ht' hx hrelease hp hgone hsettled

end Lopay
