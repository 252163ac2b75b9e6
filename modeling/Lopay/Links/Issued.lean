import Lopay.Links.ClaimUrl
import Lopay.Transactions.Plain
import Lopay.Invites.Opening

/-!
# The link that a school is given opens its invite

Creating an invite and re-issuing one answer with a link. Whatever runs beside the call, the token
read back from that link is the one whose digest the invite has been stored with.
-/

namespace Lopay

open Transactions

/-- A call that answers with a link, or anything that runs beside it. -/
inductive LinkWork where
  | create (dto : CreateEnrollmentInviteDto) (actor : AuthUser)
  | reissue (inviteId : Id) (actor : AuthUser)
  | other (work : Work)

namespace LinkWork

variable (env : InviteEnvironment)

def action : LinkWork → Action (Option Invites.IssuedLink)
  | create dto actor => some <$> Invites.create env dto actor
  | reissue inviteId actor => some <$> Invites.reissue env inviteId actor
  | other work => (fun _ => none) <$> work.action env

def program (w : LinkWork) : Prog Db Write Answer (Except Err (Option Invites.IssuedLink)) :=
  (w.action env).run

end LinkWork

/-- A random token has the shape of 32 bytes in base64url. -/
def Mints : (c : Call) → Answer c → Prop
  | .randomToken, token => Invites.hasTokenShape token
  | _, _ => True

instance (c : Call) (a : Answer c) : Decidable (Mints c a) := by
  cases c <;> unfold Mints <;> infer_instance

abbrev LinkService := Sys LinkWork Db Write Answer (Except Err (Option Invites.IssuedLink))

/-- What is answered to a call that asks for a token. -/
def MintsTokens (s : LinkService) (e : Event LinkWork Answer) (_ : LinkService) : Prop :=
  ∀ pid ch p c, e = .move pid ch → s.procs[pid]? = some p → p.prog.request? = some c →
    Mints c (ch.answer c)

def minting : Contract Db Write Answer :=
  { Contract.plain (fun _ _ => True) (fun _ _ => True) with answers := fun _ => Mints }

theorem minting_free : minting.Free := ⟨fun _ _ => trivial, fun _ _ => trivial⟩

/-! ### Statements outside a transaction -/

/-- What is written does not matter. -/
abbrev Unrestricted (_ : Db) (_ : List Write) : Prop := True

section Statements

variable {α : Type}

instance : Routine.Plain Unrestricted (ask .now) := Routine.Plain.ask _
instance : Routine.Plain Unrestricted (ask .randomUUID) := Routine.Plain.ask _
instance (count : Nat) : Routine.Plain Unrestricted (ask (.rowOrder count)) := Routine.Plain.ask _

instance (f : Db → Except Err (α × List Write)) : Routine.Plain Unrestricted (statement f) :=
  Routine.Plain.exec (fun _ _ _ _ => trivial) fun _ => trivial

instance (q : Db → α) : Routine.Plain Unrestricted (read q) := Routine.Plain.query fun _ => trivial

instance (q : Db → List α) : Routine.Plain Unrestricted (findFirst q) := by
  unfold findFirst
  infer_instance

instance (entry : AuditEntry) : Routine.Plain Unrestricted (record entry) := by
  unfold record
  infer_instance

instance (actor : AuthUser) : Routine.Plain Unrestricted (Invites.assertOwnsSchool actor) := by
  unfold Invites.assertOwnsSchool
  infer_instance

instance (schoolId : Id) (studentName : String) :
    Routine.Plain Unrestricted (Invites.assertNotAlreadyMigrated schoolId studentName) := by
  unfold Invites.assertNotAlreadyMigrated
  apply Routine.Plain.andThen
  rintro (_ | _) <;> infer_instance

instance (schoolId : Id) (studentName className : String) :
    Routine.Plain Unrestricted (Invites.assertNoLiveInvite schoolId studentName className) := by
  unfold Invites.assertNoLiveInvite
  apply Routine.Plain.andThen
  rintro (_ | _) <;> infer_instance

end Statements

/-! ### Issuing a link -/

/-- The link was built from a minted token, and at some moment of the call the invite was stored,
    pending, with the digest of it. -/
def Invites.IssuedLink.Stored (env : InviteEnvironment) (issued : Invites.IssuedLink)
    (y : Context) : Prop :=
  ∃ origin rawToken, env.webAppOrigin = some origin ∧ Invites.hasTokenShape rawToken ∧
    issued.share.claimUrl = Invites.buildClaimUrl origin rawToken ∧
    ∃ s ∈ y.seen, ∃ i, s.invites.lookup issued.id = some i ∧ i.status = .PENDING ∧
      i.tokenHash = env.digest rawToken

variable {env : InviteEnvironment} {x : Context}

section Rules

variable {α β : Type} {ok : β → Context → Prop}

/-- Before the statement that stores the invite nothing is written. -/
theorem headed {m : Action α} [hm : m.Plain Unrestricted] (hx : x.tx = none) {f : α → Action β}
    (hf : ∀ a y, y.tx = none → (f a).wp store minting ok (fun _ _ => True) y) :
    (m >>= f).wp store minting ok (fun _ _ => True) x := hm.heads minting_free hx hf

theorem minted (hx : x.tx = none) {f : String → Action β}
    (hf : ∀ token y, y.tx = none → Invites.hasTokenShape token →
      (f token).wp store minting ok (fun _ _ => True) y) :
    (ask .randomToken >>= f).wp store minting ok (fun _ _ => True) x := by
  apply Routine.wp_bind
  apply Routine.wp_ask
  intro y hy
  exact ⟨trivial, fun token htoken => hf token _ (hy.tx_eq.trans hx) htoken⟩

end Rules

/-- A statement outside a transaction is a commit. -/
theorem seen_wrote {y : Context} (htx : y.tx = none) (w : Write) :
    store.apply w y.now ∈ (y.wrote store [w]).seen := by
  simp [Ctx.wrote, htx, Ctx.see, Ctx.seen, Store.applyAll]

theorem createInvite_stores {id : Id} {row : EnrollmentInvite} (hx : x.tx = none) :
    (createInvite id row).wp store minting
      (fun _ y => y.tx = none ∧ ∃ s ∈ y.seen, s.invites.lookup id = some row)
      (fun _ _ => True) x := by
  unfold createInvite statement
  apply Routine.wp_exec
  intro y hy
  have hnone := hy.tx_eq.trans hx
  refine ⟨fun _ => trivial, fun _ _ => trivial, ?_⟩
  intro a ws hws
  have hput : ws = [.putInvite id row] := by grind
  rw [hput]
  refine ⟨fun _ _ => trivial, fun _ => ⟨?_, _, seen_wrote hnone _, ?_⟩⟩
  · rw [Ctx.wrote_tx, hnone]
    rfl
  · exact AList.lookup_insert _

theorem updateInvites_stores {id : Id} {filter : EnrollmentInvite → Bool}
    {data : EnrollmentInvite → EnrollmentInvite} (hx : x.tx = none) :
    (updateInvites id filter data).wp store minting
      (fun updated y => y.tx = none ∧ (updated ≠ 0 →
        ∃ s ∈ y.seen, ∃ i, s.invites.lookup id = some (data i)))
      (fun _ _ => True) x := by
  unfold updateInvites statement
  apply Routine.wp_exec
  intro y hy
  have hnone := hy.tx_eq.trans hx
  refine ⟨fun _ => trivial, fun _ _ => trivial, ?_⟩
  intro updated ws hws
  have hout : (y.wrote store ws).tx = none := by
    rw [Ctx.wrote_tx, hnone]
    rfl
  refine ⟨fun _ _ => trivial, fun _ => ⟨hout, fun hne => ?_⟩⟩
  have hput : ∃ i, ws = [.putInvite id (data i)] := by grind
  rcases hput with ⟨i, rfl⟩
  exact ⟨_, seen_wrote hnone _, i, AList.lookup_insert _⟩

/-- Behind the statement that has stored the invite. -/
theorem stored_wp {m : Action Unit} [hm : m.Plain Unrestricted] {issued : Invites.IssuedLink}
    {origin rawToken : String} (horigin : env.webAppOrigin = some origin)
    (hshape : Invites.hasTokenShape rawToken)
    (hurl : issued.share.claimUrl = Invites.buildClaimUrl origin rawToken) (hx : x.tx = none)
    (hstored : ∃ s ∈ x.seen, ∃ i, s.invites.lookup issued.id = some i ∧ i.status = .PENDING ∧
      i.tokenHash = env.digest rawToken) :
    (m >>= fun _ => pure issued).wp store minting (fun issued y => issued.Stored env y)
      (fun _ _ => True) x := by
  have hrests := Routine.wp_remember (S := store) hstored (hm.rests minting_free hx)
  apply Routine.wp_bind
  refine Routine.wp_mono ?_ (fun _ _ _ => trivial) hrests
  intro _ y hy
  exact Routine.wp_pure ⟨origin, rawToken, horigin, hshape, hurl, hy.2⟩

theorem create_wp (dto : CreateEnrollmentInviteDto) (actor : AuthUser) (hx : x.tx = none) :
    (Invites.create env dto actor).wp store minting (fun issued y => issued.Stored env y)
      (fun _ _ => True) x := by
  unfold Invites.create
  apply headed hx
  intro school x hx
  apply headed hx
  intro now x hx
  apply Routine.wp_bind
  apply Routine.wp_orThrow (fun _ => trivial)
  intro origin horigin
  apply headed hx
  intro _ x hx
  apply headed hx
  intro phoneNumber x hx
  apply headed hx
  intro parentPhoneHash x hx
  cases Invites.validatePlanStart dto.planStartDate now with
  | some startError => exact Routine.wp_throw trivial
  | none =>
    apply headed hx
    intro _ x hx
    apply headed hx
    intro found x hx
    apply headed hx
    intro classFee x hx
    apply headed hx
    intro _ x hx
    apply headed hx
    intro _ x hx
    apply minted hx
    intro token x hx hshape
    apply headed hx
    intro id x hx
    apply Routine.wp_bind
    apply Routine.wp_tryCatch
    refine Routine.wp_mono ?_ ?_ (createInvite_stores hx)
    · rintro _ y ⟨hy, s, hs, hrow⟩
      exact stored_wp horigin hshape rfl hy ⟨s, hs, _, hrow, rfl, rfl⟩
    · intro e y _
      cases e <;> exact trivial

theorem reissue_wp (inviteId : Id) (actor : AuthUser) (hx : x.tx = none) :
    (Invites.reissue env inviteId actor).wp store minting (fun issued y => issued.Stored env y)
      (fun _ _ => True) x := by
  unfold Invites.reissue
  apply headed hx
  intro school x hx
  apply headed hx
  intro now x hx
  apply Routine.wp_bind
  apply Routine.wp_orThrow (fun _ => trivial)
  intro origin horigin
  apply headed hx
  intro _ x hx
  apply headed hx
  intro found x hx
  apply headed hx
  intro invite x hx
  apply minted hx
  intro token x hx hshape
  apply Routine.wp_bind
  refine Routine.wp_mono ?_ (fun _ _ h => h) (updateInvites_stores hx)
  rintro reissued y ⟨hy, hstored⟩
  apply Routine.wp_bind
  apply Routine.wp_throwIf (fun _ => trivial)
  intro hne
  rcases hstored hne with ⟨s, hs, i, hrow⟩
  exact stored_wp horigin hshape rfl hy ⟨s, hs, _, hrow, rfl, rfl⟩

/-! ### In any interleaving -/

/-- The answer is a link that was stored, if it is a link. -/
def AnswersStored (env : InviteEnvironment) (_ : LinkWork)
    (r : Except Err (Option Invites.IssuedLink)) (y : Context) : Prop :=
  ∀ issued, r = .ok (some issued) → issued.Stored env y

theorem LinkWork.answers_stored (w : LinkWork) (s : Db) :
    (w.program env).wp store minting (AnswersStored env w) (.init s) := by
  have hx : (Ctx.init s : Context).tx = none := rfl
  have hissued : ∀ m : Action Invites.IssuedLink,
      m.wp store minting (fun issued y => issued.Stored env y) (fun _ _ => True) (.init s) →
      (some <$> m).run.wp store minting (AnswersStored env w) (.init s) := by
    intro m hm
    have hsome : (m >>= fun issued => pure (some issued)).wp store minting
        (fun answer y => ∀ issued, answer = some issued → issued.Stored env y)
        (fun _ _ => True) (.init s) := by
      apply Routine.wp_bind
      refine Routine.wp_mono (fun issued y hissued => ?_) (fun _ _ h => h) hm
      rintro _ heq
      cases heq
      exact hissued
    rw [map_eq_pure_bind]
    refine Prog.wp_mono ?_ hsome
    rintro (e | answer) y hy issued heq
    · cases heq
    · exact hy issued (Except.ok.inj heq)
  cases w with
  | create dto actor => exact hissued _ (create_wp dto actor hx)
  | reissue inviteId actor => exact hissued _ (reissue_wp inviteId actor hx)
  | other work =>
    have hany : (work.action env).wp store minting (fun _ _ => True) (fun _ _ => True)
        (.init s) := by
      refine Prog.wp_mono ?_ (Prog.obeys_rests minting_free
        (Prog.obeys_always (L := fun _ _ _ => True) fun _ _ _ => trivial) (τ := .nil) rfl)
      rintro (e | r) y _ <;> trivial
    have hnone : (work.action env >>= fun _ => pure none).wp store minting
        (fun answer _ => answer = (none : Option Invites.IssuedLink)) (fun _ _ => True)
        (.init s) := by
      apply Routine.wp_bind
      exact Routine.wp_mono (fun _ _ _ => rfl) (fun _ _ h => h) hany
    rw [LinkWork.program, LinkWork.action, map_eq_pure_bind]
    refine Prog.wp_mono ?_ hnone
    rintro (e | answer) y hy issued heq
    · cases heq
    · rw [Except.ok.inj heq] at hy
      cases hy

variable {t : LinkService}

/-- Whatever runs beside a call that creates or re-issues an invite: its link can be read, what a
    browser asks for when the link is opened is the app and not the token, and at some moment of
    the call the invite was stored as pending under the digest by which the token is looked up. -/
theorem issued_link_opens (ht : Sys.Reach store (LinkWork.program env) MintsTokens (fun _ => True) t)
    (horigin : ∀ origin, env.webAppOrigin = some origin → '#' ∉ origin.toList)
    {x : Proc LinkWork Db Write Answer (Except Err (Option Invites.IssuedLink))} (hx : x ∈ t.procs)
    {issued : Invites.IssuedLink} (hanswer : x.prog.result? = some (.ok (some issued))) :
    ∃ origin rawToken, env.webAppOrigin = some origin ∧
      ClaimUrl.parseClaimUrlToken issued.share.claimUrl.toList = some rawToken.toList ∧
      ClaimUrl.requested issued.share.claimUrl.toList = origin.toList ++ ['/'] ∧
      ∃ s ∈ x.ctx.seen, ∃ i, s.invites.lookup issued.id = some i ∧ i.status = .PENDING ∧
        Invites.hashInviteToken env (some rawToken) = some i.tokenHash := by
  have hD : Discipline store (LinkWork.program env) MintsTokens (fun _ => minting)
      (AnswersStored env) (fun _ => True) := by
    constructor
    · exact fun s _ w _ _ => w.answers_stored s.store
    · exact fun _ _ pid ch p c hmints hp hc => hmints pid ch p c rfl hp hc
    · exact fun _ _ _ _ _ _ _ _ => trivial
    · exact fun _ _ _ _ _ _ _ _ _ _ _ => trivial
    · exact fun _ _ _ _ _ _ _ _ _ _ _ _ _ => trivial
    · exact fun _ _ _ _ _ _ _ _ _ _ _ _ _ _ _ _ _ _ _ => trivial
  have hstored := ((ht.good hD fun _ _ => trivial).procs x hx).wp
  rw [Prog.eq_ret_of_result hanswer] at hstored
  rcases hstored issued rfl with ⟨origin, rawToken, hsome, hshape, hurl, s, hs, i, hrow, hpending,
    hdigest⟩
  have hread := ClaimUrl.parseClaimUrlToken_build (horigin origin hsome) rawToken.toList
  have hshown := ClaimUrl.buildClaimUrl_requested (horigin origin hsome) rawToken.toList
  rw [ClaimUrl.buildClaimUrl_minted hshape, ← hurl] at hread hshown
  refine ⟨origin, rawToken, hsome, hread, hshown, s, hs, i, hrow, hpending, ?_⟩
  rw [Invites.hashInviteToken, if_pos hshape, hdigest]

/-- The same, as a test. -/
def mintsTokens (s : LinkService) (e : Event LinkWork Answer) (_ : LinkService) : Bool :=
  match e with
  | .spawn _ => true
  | .move pid ch => (s.procs[pid]?.bind fun p => p.prog.request?).all fun c =>
      decide (Mints c (ch.answer c))

theorem mintsTokens_sound {s s' : LinkService} {e : Event LinkWork Answer}
    (h : mintsTokens s e s' = true) : MintsTokens s e s' := by
  rintro pid ch p c rfl hp hc
  rw [mintsTokens, hp, Option.bind_some, hc] at h
  exact of_decide_eq_true h

def invitesAda : List (Event LinkWork Answer) :=
  .spawn (.create weeklyInvite schoolOwner) ::
    (List.range 12).map fun i => .move 0 (smoothly "a" i)

/-- The school invites a student. -/
theorem issued_link_opens_first : ∃ t x issued,
    Sys.exec store (LinkWork.program inviteEnvironment) mintsTokens invitesAda
      (.init staffedSchool) = some t ∧ x ∈ t.procs ∧
    x.prog.result? = some (.ok (some issued)) ∧
    ∃ origin rawToken, inviteEnvironment.webAppOrigin = some origin ∧
      ClaimUrl.parseClaimUrlToken issued.share.claimUrl.toList = some rawToken.toList ∧
      ClaimUrl.requested issued.share.claimUrl.toList = origin.toList ++ ['/'] ∧
      ∃ s ∈ x.ctx.seen, ∃ i, s.invites.lookup issued.id = some i ∧ i.status = .PENDING ∧
        Invites.hashInviteToken inviteEnvironment (some rawToken) = some i.tokenHash := by
  have hruns : ((Sys.exec store (LinkWork.program inviteEnvironment) mintsTokens invitesAda
      (.init staffedSchool)).any fun t => t.procs.any fun x => x.prog.result?.any fun r =>
        r.toOption.join.isSome) = true := by
    decide +kernel
  rcases (Option.any_eq_true _ _).mp hruns with ⟨t, ht, hany⟩
  rcases List.any_eq_true.mp hany with ⟨x, hx, hresult⟩
  rcases (Option.any_eq_true _ _).mp hresult with ⟨r, hr, hsome⟩
  have hissued : ∃ issued, x.prog.result? = some (.ok (some issued)) := by
    rcases r with e | (_ | issued)
    · cases hsome
    · cases hsome
    · exact ⟨issued, hr⟩
  rcases hissued with ⟨issued, hissued⟩
  have horigin : ∀ origin, inviteEnvironment.webAppOrigin = some origin → '#' ∉ origin.toList := by
    intro origin h
    rw [← Option.some.inj h]
    decide
  exact ⟨t, x, issued, ht, hx, hissued, issued_link_opens
    (Sys.reach_of_exec (fun _ _ _ => mintsTokens_sound) (.init trivial) ht) horigin hx hissued⟩

end Lopay
