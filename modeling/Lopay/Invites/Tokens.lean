import Lopay.Invites.Moves

/-!
# Only the current link acts

A call that was made with a link resolves it first and writes later. The write of a claim
tests the digest again, that of a dispute and the retirement of an expired invite do not:
they hold only as long as the invite has not been re-issued in between.
-/

namespace Lopay

open Transactions

/-! ### Plans -/

/-- No plan is opened or removed. -/
def NoPlan (v : Db) (ws : List Write) : Prop := (store.applyAll ws v).enrollments = v.enrollments

instance : AdmitsStill NoPlan := ⟨fun _ _ h => h.enrollments⟩

theorem noPlan_nil (v : Db) : NoPlan v [] := rfl

instance (id : Id) (filter : EnrollmentInvite → Bool)
    (data : EnrollmentInvite → EnrollmentInvite) :
    Routine.Keeps NoPlan (updateInvites id filter data) := by
  constructor
  intro τ
  apply Invites.obeys_updateInvites (fun _ => noPlan_nil) trivial
  · exact fun _ _ => trivial
  · exact fun _ => trivial
  · exact fun v i _ _ => ⟨rfl, trivial⟩

instance (id : Id) (row : Payment) : Routine.Keeps NoPlan (createPayment id row) := by
  unfold createPayment statement
  apply Routine.Keeps.exec noPlan_nil
  intro v a ws hf
  have hws : ws = [.putPayment id row] := by grind
  rw [hws]
  rfl

/-- The first statement of the open transaction has found the invite pending under the digest
    of the raw token, and written it. -/
def Journal.Claimed (env : InviteEnvironment) (τ : Journal) (id : Id)
    (rawToken : Option String) : Prop :=
  ∃ v ws rest i, τ.done = (v, ws) :: rest ∧ Lock.invite id ∈ store.locksOf ws ∧
    v.invites.lookup id = some i ∧ Invites.hashInviteToken env rawToken = some i.tokenHash ∧
    i.status = .PENDING

namespace InviteJob

/-- A call made with a link opens a plan only for the invite that it has claimed, and
    leaves the other plans alone. -/
def planLaw (env : InviteEnvironment) (j : InviteJob) (τ : Journal) (v : Db) (ws : List Write) :
    Prop :=
  ∀ rawToken, j.link? = some rawToken → ∀ k e,
    (store.applyAll ws v).enrollments.lookup k = some e →
    v.enrollments.lookup k = some e ∨
      ∃ id, e.enrollmentInviteId = some id ∧ τ.Claimed env id rawToken

variable {env : InviteEnvironment} {τ : Journal} {j : InviteJob}

theorem planLaw_noPlan (τ : Journal) (v : Db) (ws : List Write) (h : NoPlan v ws) :
    planLaw env j τ v ws := by
  intro rawToken _ k e hafter
  rw [h] at hafter
  exact Or.inl hafter

section Obeys

variable {α β : Type} {I : Journal → Prop}

/-- A fact about the past that lasts while the transaction is open. -/
structure Lasting (I : Journal → Prop) : Prop where
  answered : ∀ τ c a, I τ → I (Trace.answered τ c a)
  ran : ∀ τ v ws, I τ → I (Trace.ran τ v ws)

theorem Lasting.statement (hI : Lasting I) (hτ : I τ) {f : Db → Except Err (α × List Write)}
    (hf : ∀ v a ws, f v = .ok (a, ws) → ∀ w ∈ ws, w.Aside) :
    (statement f).obeys (planLaw env j) (fun _ => I) (fun _ _ => True) τ := by
  apply Routine.obeys_exec (fun τ v => planLaw_noPlan τ v [] rfl) trivial
  · exact fun _ _ _ => trivial
  · intro v a ws hws
    have hstill := still_asides (v := v) (hf v a ws hws)
    exact ⟨planLaw_noPlan τ v ws hstill.enrollments, hI.ran τ v ws hτ⟩

theorem Lasting.findOrThrow (hI : Lasting I) (hτ : I τ) {q : Db → Option α} :
    (findOrThrow q).obeys (planLaw env j) (fun _ => I) (fun _ _ => True) τ := by
  apply Routine.obeys_bind
  apply Routine.obeys_query (fun τ v => planLaw_noPlan τ v [] rfl) trivial
  intro v
  exact Routine.obeys_orThrow (fun _ => trivial) fun _ _ => hI.ran τ v [] hτ

theorem Lasting.resolveParent (hI : Lasting I) (hτ : I τ) {userId : Id} :
    (Invites.resolveParent userId).obeys (planLaw env j) (fun _ => I) (fun _ _ => True) τ := by
  unfold Invites.resolveParent
  apply Routine.obeys_bind
  refine Routine.obeys_mono (fun account τ hτ => ?_) (fun _ _ h => h) (hI.findOrThrow hτ)
  apply Routine.obeys_bind
  apply Routine.obeys_ask.mpr
  intro id
  apply Routine.obeys_bind
  refine Routine.obeys_mono (fun _ τ hτ => ?_) (fun _ _ h => h)
    (hI.statement (hI.answered _ _ _ hτ) ?_)
  · apply Routine.obeys_bind
    exact Routine.obeys_mono (fun r τ hτ => hτ) (fun _ _ h => h) (hI.findOrThrow hτ)
  · grind [Write.Aside]

theorem Lasting.resolveChild (hI : Lasting I) (hτ : I τ) {parentId : Id}
    {invite : EnrollmentInvite} : (Invites.resolveChild parentId invite).obeys (planLaw env j)
      (fun _ => I) (fun _ _ => True) τ := by
  unfold Invites.resolveChild
  apply Routine.obeys_bind
  apply Routine.obeys_ask.mpr
  intro id
  apply Routine.obeys_bind
  refine Routine.obeys_mono (fun _ τ hτ => ?_) (fun _ _ h => h)
    (hI.statement (hI.answered _ _ _ hτ) ?_)
  · apply Routine.obeys_bind
    exact Routine.obeys_mono (fun r τ hτ => hτ) (fun _ _ h => h) (hI.findOrThrow hτ)
  · grind [Write.Aside]

theorem after_noPlan {m : Action α} [hm : Routine.Keeps NoPlan m] {f : α → Action β}
    (hf : ∀ a τ, (f a).obeys (planLaw env j) (fun _ _ => True) (fun _ _ => True) τ) :
    (m >>= f).obeys (planLaw env j) (fun _ _ => True) (fun _ _ => True) τ :=
  hm.followed planLaw_noPlan hf

theorem noPlan_obeys {m : Action α} [hm : Routine.Keeps NoPlan m] :
    m.obeys (planLaw env j) (fun _ _ => True) (fun _ _ => True) τ :=
  hm.lawful planLaw_noPlan

/-- A plan is opened under an invite that has been claimed. -/
theorem recordMigratedEnrollment_opens {rawToken : Option String} {user : AuthUser} {inviteId : Id}
    {invite : EnrollmentInvite} {childId parentUserId : Id} {actor : AuditActor}
    (hτ : ∀ c a, Journal.Claimed env (τ.answered c a) inviteId rawToken) :
    (Ledger.recordMigratedEnrollment inviteId invite childId parentUserId actor).obeys
      (planLaw env (.claim rawToken user)) (fun _ _ => True) (fun _ _ => True) τ := by
  unfold Ledger.recordMigratedEnrollment
  apply Routine.obeys_bind
  apply Routine.obeys_ask.mpr
  intro enrollmentId
  apply Routine.obeys_seq
  · apply Routine.obeys_tryCatch
    apply obeys_createEnrollment (fun τ v => planLaw_noPlan τ v [] rfl)
    · exact fun _ _ => Routine.obeys_throw.mpr trivial
    · intro v _
      refine ⟨?_, trivial⟩
      intro rawToken' hlink k e hafter
      obtain rfl := Option.some.inj hlink
      rcases Table.lookup_insert_some hafter with ⟨-, rfl⟩ | ⟨-, hold⟩
      · exact Or.inr ⟨inviteId, rfl, hτ _ _⟩
      · exact Or.inl hold
  · exact fun _ _ => noPlan_obeys

/-- Claimed stays claimed until the transaction ends. -/
theorem claimed_lasting {v : Db} {ws : List Write} :
    Lasting fun τ => τ.inside = true ∧ ∃ rest, τ.done = (v, ws) :: rest where
  answered := fun _ _ _ h => h
  ran := by
    rintro τ u us ⟨hinside, rest, hdone⟩
    rw [Trace.ran_within hinside]
    refine ⟨hinside, rest ++ [(u, us)], ?_⟩
    simp only [hdone, List.cons_append]

theorem claimTransaction_opens {rawToken : Option String} {user : AuthUser}
    {found : Invites.FoundInvite} {phoneMatched : Option Bool}
    (hhash : Invites.hashInviteToken env rawToken = some found.tokenHash) :
    (Invites.claimTransaction found phoneMatched user).obeys (planLaw env (.claim rawToken user))
      (fun _ _ => True) (fun _ _ => True) τ := by
  unfold Invites.claimTransaction
  apply Routine.obeys_tryCatch
  apply Routine.obeys_transaction
  apply Routine.obeys_regardless
  · exact fun _ _ => ⟨trivial, trivial⟩
  · exact fun _ _ => trivial
  apply Routine.obeys_bind
  apply Routine.obeys_ask.mpr
  intro now
  apply Routine.obeys_bind
  apply Routine.obeys_ask.mpr
  intro claimedAt
  apply Routine.obeys_bind
  apply Invites.obeys_updateInvites (fun τ v => planLaw_noPlan τ v [] rfl)
  · trivial
  · exact fun _ _ => trivial
  · intro v
    exact Routine.obeys_bind (Routine.obeys_throwIf (fun _ => trivial) fun h => absurd rfl h)
  · intro v i hi hguard
    refine ⟨planLaw_noPlan _ v _ rfl, ?_⟩
    obtain ⟨htoken, hpending, -⟩ := of_decide_eq_true hguard
    apply Routine.obeys_bind
    apply Routine.obeys_throwIf
    · exact fun h => absurd h (by decide)
    intro _
    apply Routine.obeys_bind
    refine Routine.obeys_mono (fun parentId τ hτ => ?_) (fun _ _ h => h)
      (claimed_lasting.resolveParent ⟨rfl, [], rfl⟩)
    apply Routine.obeys_bind
    refine Routine.obeys_mono (fun childId τ hτ => ?_) (fun _ _ h => h)
      (claimed_lasting.resolveChild hτ)
    obtain ⟨-, rest, hdone⟩ := hτ
    apply recordMigratedEnrollment_opens
    intro c a
    refine ⟨v, _, rest, i, hdone, List.mem_cons_self, hi, ?_, hpending⟩
    rw [hhash, ← htoken]

theorem claim_opens (rawToken : Option String) (user : AuthUser) (hout : τ.inside = false) :
    (Invites.claim env rawToken user).obeys (planLaw env (.claim rawToken user))
      (fun _ _ => True) (fun _ _ => True) τ := by
  unfold Invites.claim
  apply Routine.obeys_bind
  apply lookup_obeys (fun τ v => planLaw_noPlan τ v [] rfl) hout
  · exact fun τ id v i _ _ _ => planLaw_noPlan τ v _ rfl
  intro found τ hhash _
  refine after_noPlan fun phoneMatched τ => after_noPlan fun _ τ => after_noPlan fun school τ =>
    after_noPlan fun school τ => ?_
  exact Routine.obeys_seq (claimTransaction_opens hhash) fun _ _ => noPlan_obeys

theorem dispute_opens (rawToken : Option String) (user : AuthUser) (reason : String)
    (hout : τ.inside = false) : (Invites.dispute env rawToken user reason).obeys
      (planLaw env (.dispute rawToken user reason)) (fun _ _ => True) (fun _ _ => True) τ := by
  unfold Invites.dispute
  apply Routine.obeys_bind
  apply lookup_obeys (fun τ v => planLaw_noPlan τ v [] rfl) hout
  · exact fun τ id v i _ _ _ => planLaw_noPlan τ v _ rfl
  intro found τ _ _
  refine after_noPlan fun now τ => after_noPlan fun disputedAt τ => after_noPlan fun disputed τ =>
    after_noPlan fun _ τ => after_noPlan fun _ τ => after_noPlan fun school τ => ?_
  cases school with
  | none => exact noPlan_obeys
  | some school => exact noPlan_obeys

/-- Every job opens plans as it may. -/
theorem opens (j : InviteJob) (hout : τ.inside = false) :
    (j.action env).obeys (planLaw env j) (fun _ _ => True) (fun _ _ => True) τ := by
  cases j with
  | claim rawToken user => exact Routine.obeys_map (claim_opens rawToken user hout)
  | dispute rawToken user reason =>
    exact Routine.obeys_map (dispute_opens rawToken user reason hout)
  | preview rawToken =>
    apply Routine.obeys_map
    apply lookup_obeys (fun τ v => planLaw_noPlan τ v [] rfl) hout
    · exact fun τ id v i _ _ _ => planLaw_noPlan τ v _ rfl
    · exact fun _ _ _ _ => trivial
  | create | revoke | reissue | amend | release | expireStale =>
    refine Prog.obeys_mono ?_ (Prog.obeys_always fun _ _ _ _ hlink => nomatch hlink)
    intro r τ _
    cases r <;> trivial

end Obeys

end InviteJob

/-! ### What commits do -/

/-- The raw token that a call was made with. -/
def Work.link? : Work → Option (Option String)
  | .payments _ => none
  | .invites j => j.link?

/-- The digest of the raw token is the one stored on the invite. -/
def Db.Holds (env : InviteEnvironment) (db : Db) (id : Id) (rawToken : Option String) : Prop :=
  ∃ l, db.link id = some l ∧ Invites.hashInviteToken env rawToken = some l.tokenHash

def Work.planLaw (env : InviteEnvironment) (w : Work) (τ : Journal) (v : Db) (ws : List Write) :
    Prop :=
  match w with
  | .payments _ => True
  | .invites j => j.planLaw env τ v ws

theorem Work.opens (env : InviteEnvironment) (w : Work) :
    (w.program env).obeys (w.planLaw env) (fun _ _ => True) .nil := by
  cases w with
  | payments job => exact Prog.obeys_always fun _ _ _ => trivial
  | invites j =>
    have hopens : (j.action env).obeys (j.planLaw env) (fun _ _ => True) (fun _ _ => True) .nil :=
      j.opens rfl
    refine Prog.obeys_mono ?_ hopens
    exact fun _ _ _ => trivial

/-- The enrollments, each under its row lock. -/
def enrollmentRows : Rows store agree Id (Option ChildEnrollment) where
  row k db := db.enrollments.lookup k
  lock := .enrollment
  frame := fun k _ s hk => store_frame.frame (.enrollment k) _ s hk
  congr := fun k w _ _ h => (agree_apply (k := .enrollment k) w h.symm).symm
  locked := fun _ _ _ h => h

/-- A dispute, and the lookup that retires an expired invite, write to the invite only while
    its digest is still the one under which the mover has found it. -/
def DigestKept (env : InviteEnvironment) (s : Office) (e : Event Work Answer) (s' : Office) :
    Prop :=
  ∀ p ∈ s.mover? e, ∀ rawToken ∈ p.job.link?, ∀ r ∈ s.store.invites.rows,
    s'.store.link r.1 = some { r.2.link with status := .DISPUTED } ∨
      s'.store.link r.1 = some r.2.link.retired →
    ∀ db ∈ p.ctx.seen, ∀ l ∈ db.link r.1,
      Invites.hashInviteToken env rawToken = some l.tokenHash → r.2.tokenHash = l.tokenHash

instance (env : InviteEnvironment) (s : Office) (e : Event Work Answer) (s' : Office) :
    Decidable (DigestKept env s e s') :=
  inferInstanceAs (Decidable (∀ p ∈ s.mover? e, _))

section Interleaved

variable {env : InviteEnvironment} {guard : Office → Event Work Answer → Office → Prop}
  {start : Db → Prop} {s s' : Office} {e : Event Work Answer}
  {p : Proc Work Db Write Answer (Except Err Reply)} {rawToken : Option String}

/-- What a resolved link changes still carries its digest. -/
theorem DigestKept.holds (h : DigestKept env s e s') (hp : s.mover? e = some p)
    (hlink : p.job.link? = some rawToken) {id : Id} {i : EnrollmentInvite}
    (hi : s.store.invites.lookup id = some i)
    (hwritten : s'.store.link id = some { i.link with status := .DISPUTED } ∨
      s'.store.link id = some i.link.retired)
    {τ : Journal} (hread : ∀ db ∈ τ.read, db ∈ p.ctx.seen) {Q : Link → Prop}
    (hresolved : τ.Resolved env id rawToken Q) : s.store.Holds env id rawToken := by
  obtain ⟨db, hdb, l, hl, htoken, -⟩ := hresolved
  have hkept := h p hp rawToken hlink (id, i) (Table.mem_rows.mpr hi) hwritten db (hread db hdb)
    l hl htoken
  refine ⟨i.link, by rw [Db.link, hi]; rfl, ?_⟩
  rw [htoken, ← hkept]
  rfl

/-- A call made with a link changes only an invite that carries its digest. -/
theorem step_holds (hs : Sys.Reach store (Work.program env) (DigestKept env) start s)
    (hstep : s.step store (Work.program env) e = some s') (hguard : DigestKept env s e s')
    (hp : s.mover? e = some p) (hlink : p.job.link? = some rawToken) {id : Id}
    (hchanged : s'.store.invites.lookup id ≠ s.store.invites.lookup id) :
    s.store.Holds env id rawToken := by
  rcases step_turns hs hstep hguard id with hsame | hmoved
  · exact absurd (by rw [hsame]) hchanged
  obtain ⟨pid, ch, q, τ, rfl, hq, hlog, hread, hturns⟩ := hmoved
  obtain rfl := Option.some.inj (hp.symm.trans hq)
  cases hj : p.job with
  | payments job =>
    rw [hj] at hlink
    cases hlink
  | invites j =>
    have hjlink : j.link? = some rawToken := by rwa [hj] at hlink
    rw [hj] at hturns
    generalize hr : s.store.invites.lookup id = r at hturns hchanged
    generalize hr' : s'.store.invites.lookup id = r' at hturns hchanged
    cases hturns with
    | stays => exact absurd rfl hchanged
    | created hcreate _ =>
      obtain ⟨dto, actor, rfl⟩ := hcreate
      cases hjlink
    | restated hamend _ =>
      obtain ⟨_, _, _, _, rfl⟩ := hamend
      cases hjlink
    | @changed i i' hchange =>
      have hafter : s'.store.link id = some i'.link := congrArg (Option.map _) hr'
      generalize i'.link = l' at hchange hafter
      cases hchange with
      | claimed htoken _ =>
        obtain rfl := Option.some.inj hjlink
        exact ⟨i.link, congrArg (Option.map _) hr, htoken⟩
      | disputed hresolved _ =>
        obtain rfl := Option.some.inj hjlink
        exact hguard.holds hp hlink hr (Or.inl hafter) hread hresolved
      | retired hlink' hresolved _ =>
        obtain rfl := Option.some.inj (hlink'.symm.trans hjlink)
        exact hguard.holds hp hlink hr (Or.inr hafter) hread hresolved
      | revoked | reissued | released | swept => cases hjlink

/-- A call made with a link opens plans only for an invite that it claims under the digest of
    that link. -/
theorem step_opens (hs : Sys.Reach store (Work.program env) guard start s)
    (hstep : s.step store (Work.program env) e = some s') (hguard : guard s e s')
    (hp : s.mover? e = some p) (hlink : p.job.link? = some rawToken) {k : Id} {plan : ChildEnrollment}
    (hplan : s'.store.enrollments.lookup k = some plan) :
    s.store.enrollments.lookup k = some plan ∨
      ∃ id, plan.enrollmentInviteId = some id ∧ s.store.Holds env id rawToken := by
  rcases hs.obeys store_frame (fun _ ws _ _ h => agree_applyAll ws h)
    (fun _ w _ _ => Work.opens env w) hstep hguard with hsame | hmoved
  · rw [hsame] at hplan
    exact Or.inl hplan
  obtain ⟨pid, ch, q, τ, done, rfl, hq, -, -, hreplays, hstore⟩ := hmoved
  obtain rfl := Option.some.inj (hp.symm.trans hq)
  let Opened (r r' : Option ChildEnrollment) : Prop := ∀ plan, r' = some plan → r = some plan ∨
    ∃ id, plan.enrollmentInviteId = some id ∧ s.store.Holds env id rawToken
  have htrans (r r' r'' : Option ChildEnrollment) (h : Opened r r') (h' : Opened r' r'') :
      Opened r r'' := by
    intro plan hplan
    rcases h' plan hplan with hbefore | hopened
    · exact h plan hbefore
    · exact Or.inr hopened
  rw [hstore] at hplan
  refine hreplays.law_within enrollmentRows (T := Opened) (fun _ _ h => Or.inl h) htrans
    List.prefix_rfl ?_ plan hplan
  intro τ' v ws _ hprefix hlaw plan' hplan'
  cases hj : p.job with
  | payments job =>
    rw [hj] at hlink
    cases hlink
  | invites j =>
    rw [hj] at hlink hlaw
    rcases hlaw rawToken hlink k plan' hplan' with hold | hopened
    · exact Or.inl hold
    · right
      obtain ⟨id, hid, u, us, rest, i, hfirst, hlocked, hi, htoken, -⟩ := hopened
      -- The first statement has found the invite as it is in the committed store.
      obtain ⟨rest', hdone⟩ := hprefix
      rw [hfirst] at hdone
      have hagree := hreplays.head hdone.symm (.invite id) hlocked
      refine ⟨id, hid, i.link, ?_, htoken⟩
      rw [Db.link, hagree, hi]
      rfl

end Interleaved

/-- Only the link that is stored on an invite acts on it. -/
structure OnlyCurrentLinkActs (env : InviteEnvironment)
    (guard : Office → Event Work Answer → Office → Prop) (s : Office) : Prop where
  changes : ∀ e s' p rawToken, s.step store (Work.program env) e = some s' → guard s e s' →
    s.mover? e = some p → p.job.link? = some rawToken →
    ∀ id, s'.store.invites.lookup id ≠ s.store.invites.lookup id → s.store.Holds env id rawToken
  opens : ∀ e s' p rawToken, s.step store (Work.program env) e = some s' → guard s e s' →
    s.mover? e = some p → p.job.link? = some rawToken →
    ∀ k plan, s'.store.enrollments.lookup k = some plan →
      s.store.enrollments.lookup k = some plan ∨
        ∃ id, plan.enrollmentInviteId = some id ∧ s.store.Holds env id rawToken

/-- In every interleaving a call made with a link changes an invite, or opens a plan for it,
    only if the digest stored on it at that moment is the one of the link. -/
theorem only_current_link_acts (env : InviteEnvironment) {s : Office} {start : Db → Prop}
    (hs : Sys.Reach store (Work.program env) (DigestKept env) start s) :
    OnlyCurrentLinkActs env (DigestKept env) s where
  changes := fun _ _ _ _ hstep hguard hp hlink _ hchanged =>
    step_holds hs hstep hguard hp hlink hchanged
  opens := fun _ _ _ _ hstep hguard hp hlink _ _ hplan => step_opens hs hstep hguard hp hlink hplan

/-- The family has been invited, and the window is open until 50. -/
def invitedInTime : Db :=
  { oneFamily with invites := [⟨"invite", { invitation with expiresAt := 50 }⟩].toAList }

def invitedParent : AuthUser := ⟨"parent", .PARENT, none⟩

def firstClaim : Work := .invites (.claim (some firstLink) invitedParent)

/-- The parent claims the invite with the link it carries. -/
theorem only_current_link_acts_claimed : ∃ s : Office,
    Sys.exec store (Work.program inviteEnvironment)
      (fun s e s' => decide (DigestKept inviteEnvironment s e s'))
      (working 0 firstClaim "a" 23) (.init invitedInTime) = some s ∧
    ((s.step store (Work.program inviteEnvironment) (.move 0 (smoothly "a" 23))).any fun s' =>
      (s'.store.link "invite").any fun l => l.status = .CLAIMED) = true ∧
    OnlyCurrentLinkActs inviteEnvironment (DigestKept inviteEnvironment) s := by
  have hruns : ((Sys.exec store (Work.program inviteEnvironment)
      (fun s e s' => decide (DigestKept inviteEnvironment s e s'))
      (working 0 firstClaim "a" 23) (.init invitedInTime)).any fun s =>
        (s.step store (Work.program inviteEnvironment) (.move 0 (smoothly "a" 23))).any fun s' =>
          (s'.store.link "invite").any fun l => l.status = .CLAIMED) = true := by
    decide +kernel
  obtain ⟨s, hs, hclaimed⟩ := (Option.any_eq_true _ _).mp hruns
  have hreach : Sys.Reach store (Work.program inviteEnvironment) (DigestKept inviteEnvironment)
      (fun db => db = invitedInTime) s :=
    Sys.reach_of_exec (fun _ _ _ h => of_decide_eq_true h) (.init rfl) hs
  exact ⟨s, hs, hclaimed, only_current_link_acts inviteEnvironment hreach⟩

def firstDispute : Work := .invites (.dispute (some firstLink) invitedParent "That is too much")

/-- The school re-issues the invite after the dispute has looked it up and before it writes. -/
def disputedAfterReissue : List (Event Work Answer) :=
  working 0 firstDispute "a" 4 ++ working 1 (.invites (.reissue "invite" schoolOwner)) "b" 6

/-- The dispute then disputes an invite that carries another link. -/
theorem only_current_link_acts_needs_condition :
    ¬ ∀ s : Office, Sys.Reach store (Work.program inviteEnvironment) (fun _ _ _ => True)
      (fun db => db = invitedInTime) s →
      OnlyCurrentLinkActs inviteEnvironment (fun _ _ _ => True) s := by
  intro hlaw
  have hruns : ((Sys.exec store (Work.program inviteEnvironment) (fun _ _ _ => true)
      disputedAfterReissue (.init invitedInTime)).any fun s => s.procs[0]?.any fun p =>
        (s.step store (Work.program inviteEnvironment) (.move 0 (smoothly "a" 4))).any fun s' =>
          decide (p.job.link? = some (some firstLink)) &&
          (s.store.link "invite").any fun l => (s'.store.link "invite").any fun l' =>
            l ≠ l' ∧ Invites.hashInviteToken inviteEnvironment (some firstLink) ≠
              some l.tokenHash) = true := by
    decide +kernel
  obtain ⟨s, hs, hany⟩ := (Option.any_eq_true _ _).mp hruns
  obtain ⟨p, hp, hany⟩ := (Option.any_eq_true _ _).mp hany
  obtain ⟨s', hs', hany⟩ := (Option.any_eq_true _ _).mp hany
  rw [Bool.and_eq_true] at hany
  obtain ⟨hlink, hany⟩ := hany
  obtain ⟨l, hl, hany⟩ := (Option.any_eq_true _ _).mp hany
  obtain ⟨l', hl', hcond⟩ := (Option.any_eq_true _ _).mp hany
  obtain ⟨hchanged, hother⟩ := of_decide_eq_true hcond
  have hreach : Sys.Reach store (Work.program inviteEnvironment) (fun _ _ _ => True)
      (fun db => db = invitedInTime) s := Sys.reach_of_exec (fun _ _ _ _ => trivial) (.init rfl) hs
  obtain ⟨l₀, hl₀, hholds⟩ := (hlaw s hreach).changes _ s' p (some firstLink) hs' trivial hp
    (of_decide_eq_true hlink) "invite" (by
      intro hsame
      have hlinks : s'.store.link "invite" = s.store.link "invite" := congrArg (Option.map _) hsame
      rw [hl, hl'] at hlinks
      exact hchanged (Option.some.inj hlinks).symm)
  obtain rfl := Option.some.inj (hl.symm.trans hl₀)
  exact hother hholds

end Lopay
