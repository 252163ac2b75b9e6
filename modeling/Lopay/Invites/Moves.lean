import Lopay.Tame.Invites

/-!
# How an invite moves

`InviteJob.Changes` lists what a job can do to the status, the digest and the window of an
invite, with what the job had read before it did: a claim holds the stored token, a dispute
a token that was stored when it looked, an expiry an invite that was due when it was read.
Every statement of every job obeys the list, whatever else commits, and so does every
commit.
-/

namespace Lopay

open Transactions

/-- What a job has learned and done. -/
abbrev Journal := Trace Db Write Answer

/-- The clock has been read at `n`. -/
def Journal.Clock (τ : Journal) (n : Int) : Prop := (⟨.now, n⟩ : Sigma Answer) ∈ τ.log

namespace Link

/-- Past its window, and in a status that expiry can touch. -/
def Due (l : Link) (n : Int) : Prop := l.status ∈ Invites.EXPIRABLE_STATUSES ∧ l.expiresAt ≤ n

instance (l : Link) (n : Int) : Decidable (l.Due n) := inferInstanceAs (Decidable (_ ∧ _))

def retired (l : Link) : Link := { l with status := .EXPIRED }

end Link

/-- The raw token was that of the invite when it was looked up. -/
def Journal.Resolved (env : InviteEnvironment) (τ : Journal) (id : Id)
    (rawToken : Option String) (Q : Link → Prop) : Prop :=
  ∃ db ∈ τ.read, ∃ l, db.link id = some l ∧
    Invites.hashInviteToken env rawToken = some l.tokenHash ∧ Q l

/-- An invite was read as it was found, or retired since. -/
def Journal.Met (τ : Journal) (found : Invites.FoundInvite) : Prop :=
  ∃ db ∈ τ.read, ∃ i, db.invites.lookup found.id = some i ∧ i.tokenHash = found.tokenHash ∧
    (found.row = i ∨ found.row = { i with status := .EXPIRED })

theorem Journal.Met.resolved {env : InviteEnvironment} {τ : Journal} {found : Invites.FoundInvite}
    (h : τ.Met found) {rawToken : Option String}
    (hhash : Invites.hashInviteToken env rawToken = some found.tokenHash) :
    τ.Resolved env found.id rawToken (fun _ => True) := by
  obtain ⟨db, hdb, i, hi, htoken, -⟩ := h
  refine ⟨db, hdb, i.link, ?_, ?_, trivial⟩
  · rw [Db.link, hi]
    rfl
  · rw [hhash, ← htoken]
    rfl

/-- The invite was due when it was read. -/
def Journal.ReadDue (τ : Journal) (id : Id) : Prop :=
  ∃ db ∈ τ.read, ∃ l, db.link id = some l ∧ ∃ n, τ.Clock n ∧ l.Due n

namespace InviteJob

/-- What a job that has learned `τ` can do to an invite. -/
inductive Changes (env : InviteEnvironment) (τ : Journal) (id : Id) :
    InviteJob → Link → Link → Prop
  | claimed {rawToken : Option String} {user : AuthUser} {l : Link} :
      Invites.hashInviteToken env rawToken = some l.tokenHash → l.status = .PENDING →
      Changes env τ id (.claim rawToken user) l { l with status := .CLAIMED }
  | disputed {rawToken : Option String} {user : AuthUser} {reason : String} {l : Link} :
      τ.Resolved env id rawToken (fun _ => True) → l.status = .PENDING →
      Changes env τ id (.dispute rawToken user reason) l { l with status := .DISPUTED }
  | revoked {actor : AuthUser} {reason : Option String} {l : Link} :
      l.status = .PENDING ∨ l.status = .DISPUTED →
      Changes env τ id (.revoke id actor reason) l { l with status := .REVOKED }
  | reissued {actor : AuthUser} {l : Link} {tokenHash : String} {expiresAt : Int} :
      l.status = .PENDING ∨ l.status = .EXPIRED →
      Changes env τ id (.reissue id actor) l ⟨.PENDING, tokenHash, expiresAt⟩
  | released {actor : AuthUser} {reason : Option String} {l : Link} : l.status = .CLAIMED →
      Changes env τ id (.release id actor reason) l { l with status := .REVOKED }
  | retired {j : InviteJob} {rawToken : Option String} {l : Link} : j.link? = some rawToken →
      τ.Resolved env id rawToken (fun l₀ => ∃ n, τ.Clock n ∧ l₀.Due n) →
      l.status ∈ Invites.EXPIRABLE_STATUSES → Changes env τ id j l l.retired
  | swept {l : Link} : τ.ReadDue id → Changes env τ id .expireStale l l.retired

/-- What a job can do to the row of an invite. -/
inductive Turns (env : InviteEnvironment) (τ : Journal) (id : Id) (j : InviteJob) :
    Option EnrollmentInvite → Option EnrollmentInvite → Prop
  | stays (r : Option EnrollmentInvite) : Turns env τ id j r r
  | created {i : EnrollmentInvite} : (∃ dto actor, j = .create dto actor) → i.status = .PENDING →
      Turns env τ id j none (some i)
  | changed {i i' : EnrollmentInvite} : j.Changes env τ id i.link i'.link →
      Turns env τ id j (some i) (some i')
  | restated {i i' : EnrollmentInvite} :
      (∃ inviteId amountAlreadyPaid reason actor,
        j = .amend inviteId amountAlreadyPaid reason actor) →
      i'.link = i.link → Turns env τ id j (some i) (some i')

variable {env : InviteEnvironment} {τ τ' : Journal} {id : Id} {j : InviteJob}

theorem Changes.mono (hτ : τ.Within τ') {l l' : Link} (h : j.Changes env τ id l l') :
    j.Changes env τ' id l l' := by
  cases h with
  | claimed htoken hpending => exact .claimed htoken hpending
  | disputed hresolved hpending =>
    obtain ⟨db, hdb, h⟩ := hresolved
    exact .disputed ⟨db, hτ.read db hdb, h⟩ hpending
  | revoked h => exact .revoked h
  | reissued h => exact .reissued h
  | released h => exact .released h
  | retired hlink hresolved hstatus =>
    obtain ⟨db, hdb, l, hl, htoken, n, hn, hdue⟩ := hresolved
    exact .retired hlink ⟨db, hτ.read db hdb, l, hl, htoken, n, hτ.log _ hn, hdue⟩ hstatus
  | swept hread =>
    obtain ⟨db, hdb, l, hl, n, hn, hdue⟩ := hread
    exact .swept ⟨db, hτ.read db hdb, l, hl, n, hτ.log _ hn, hdue⟩

theorem Turns.mono (hτ : τ.Within τ') {r r' : Option EnrollmentInvite} (h : j.Turns env τ id r r') :
    j.Turns env τ' id r r' := by
  cases h with
  | stays => exact .stays _
  | created hj hpending => exact .created hj hpending
  | changed h => exact .changed (h.mono hτ)
  | restated hj hlink => exact .restated hj hlink

/-- Two changes by one job are one. -/
theorem Changes.trans {l l' l'' : Link} (h : j.Changes env τ id l l')
    (h' : j.Changes env τ id l' l'') : j.Changes env τ id l l'' := by
  cases h with
  | claimed htoken hpending =>
    cases h' with
    | claimed _ hagain => cases hagain
    | retired _ _ hstatus => cases hstatus with
      | tail _ h => cases h with
        | tail _ h => cases h
  | disputed hresolved hpending =>
    cases h' with
    | disputed _ hagain => cases hagain
    | retired hlink hresolved' _ =>
      exact .retired hlink hresolved' (by rw [hpending]; exact List.mem_cons_self)
  | revoked hstatus =>
    cases h' with
    | revoked hagain => simp at hagain
    | retired hlink => cases hlink
  | reissued hstatus =>
    cases h' with
    | reissued _ => exact .reissued hstatus
    | retired hlink => cases hlink
  | released hstatus =>
    cases h' with
    | released hagain => cases hagain
    | retired hlink => cases hlink
  | retired hlink hresolved hstatus =>
    cases h' with
    | claimed _ hagain => cases hagain
    | disputed _ hagain => cases hagain
    | retired _ _ _ => exact .retired hlink hresolved hstatus
    | revoked | reissued | released | swept => cases hlink
  | swept hread =>
    cases h' with
    | swept _ => exact .swept hread
    | retired hlink => cases hlink

/-- Neither a creation nor an amendment changes a link. -/
theorem Changes.not_created {l l' : Link} (h : j.Changes env τ id l l')
    {dto : CreateEnrollmentInviteDto} {actor : AuthUser} (hj : j = .create dto actor) : False := by
  subst hj
  cases h with
  | retired hlink => cases hlink

theorem Changes.not_restated {l l' : Link} (h : j.Changes env τ id l l') {inviteId : Id}
    {amountAlreadyPaid : ℚ} {reason : Option String} {actor : AuthUser}
    (hj : j = .amend inviteId amountAlreadyPaid reason actor) : False := by
  subst hj
  cases h with
  | retired hlink => cases hlink

theorem Turns.trans {r r' r'' : Option EnrollmentInvite} (h : j.Turns env τ id r r')
    (h' : j.Turns env τ id r' r'') : j.Turns env τ id r r'' := by
  cases h with
  | stays => exact h'
  | created hj hpending =>
    cases h' with
    | stays => exact .created hj hpending
    | changed hchange =>
      obtain ⟨dto, actor, hj⟩ := hj
      exact (hchange.not_created hj).elim
    | restated hamend hlink =>
      refine .created hj ?_
      rw [← hpending]
      exact congrArg Link.status hlink
  | changed hchange =>
    cases h' with
    | stays => exact .changed hchange
    | changed hchange' => exact .changed (hchange.trans hchange')
    | restated hamend _ =>
      obtain ⟨_, _, _, _, hj⟩ := hamend
      exact (hchange.not_restated hj).elim
  | restated hamend hlink =>
    cases h' with
    | stays => exact .restated hamend hlink
    | changed hchange =>
      obtain ⟨_, _, _, _, hj⟩ := hamend
      exact (hchange.not_restated hj).elim
    | restated _ hlink' => exact .restated hamend (hlink'.trans hlink)

/-! ### What statements do -/

/-- A statement turns every invite as the job may. -/
def law (env : InviteEnvironment) (j : InviteJob) (τ : Journal) (v : Db) (ws : List Write) : Prop :=
  ∀ id, j.Turns env τ id (v.invites.lookup id) ((store.applyAll ws v).invites.lookup id)

theorem law_tame (τ : Journal) (v : Db) (ws : List Write) (h : Tame v ws) : law env j τ v ws := by
  intro id
  rw [h.invites]
  exact .stays _

theorem law_nil (τ : Journal) (v : Db) : law env j τ v [] := law_tame τ v [] (still_nil v).tame

/-- A write of one invite. -/
theorem law_putInvite {v : Db} {row : EnrollmentInvite}
    (h : j.Turns env τ id (v.invites.lookup id) (some row)) : law env j τ v [.putInvite id row] := by
  intro k
  simp only [Store.applyAll_cons, Store.applyAll_nil, store_apply, Write.apply,
    Table.lookup_insert_ite]
  by_cases hk : k = id
  · subst hk
    rw [if_pos rfl]
    exact h
  · rw [if_neg hk]
    exact .stays _

/-- An update of an invite that changes it as the job may. -/
theorem law_updated {v : Db} {i row : EnrollmentInvite} (hi : v.invites.lookup id = some i)
    (h : j.Changes env τ id i.link row.link) : law env j τ v [.putInvite id row] := by
  apply law_putInvite
  rw [hi]
  exact .changed h

section Obeys

variable {α : Type}

/-- What is tame can come first. -/
theorem after {m : Action α} [hm : Routine.Keeps Tame m] {β : Type} {f : α → Action β}
    (hf : ∀ a τ, (f a).obeys (law env j) (fun _ _ => True) (fun _ _ => True) τ) :
    (m >>= f).obeys (law env j) (fun _ _ => True) (fun _ _ => True) τ :=
  hm.followed law_tame hf

theorem tame_obeys {m : Action α} [hm : Routine.Keeps Tame m] :
    m.obeys (law env j) (fun _ _ => True) (fun _ _ => True) τ :=
  hm.lawful law_tame

theorem lookup_inviteByToken {tokenHash : String} {db : Db} {r : Id × EnrollmentInvite}
    (h : Invites.inviteByToken tokenHash db = some r) :
    db.invites.lookup r.1 = some r.2 ∧ r.2.tokenHash = tokenHash :=
  ⟨Table.mem_rows.mp (List.mem_of_find?_eq_some h), by simpa using List.find?_some h⟩

/-- A lookup finds the invite that the raw token belongs to; one that was due may have been
    retired. -/
theorem lookup_meets {L : Journal → Db → List Write → Prop} {rawToken : Option String}
    (hnil : ∀ τ v, L τ v []) (hout : τ.inside = false)
    (hretire : ∀ τ id v i, Journal.Resolved env τ id rawToken (fun l => ∃ n, τ.Clock n ∧ l.Due n) →
      v.invites.lookup id = some i → i.status ∈ Invites.EXPIRABLE_STATUSES →
      L τ v [.putInvite id { i with status := .EXPIRED }])
    {ok : Invites.FoundInvite → Journal → Prop}
    (hok : ∀ found τ', Invites.hashInviteToken env rawToken = some found.tokenHash →
      τ'.Met found → ok found τ') :
    (Invites.findByToken env rawToken).obeys L ok (fun _ _ => True) τ := by
  unfold Invites.findByToken
  apply Routine.obeys_bind
  apply Routine.obeys_orThrow
  · exact fun _ => trivial
  intro tokenHash hhash
  apply Routine.obeys_bind
  apply Routine.obeys_query hnil trivial
  intro v
  apply Routine.obeys_bind
  apply Routine.obeys_orThrow
  · exact fun _ => trivial
  intro r hr
  obtain ⟨hlookup, htoken⟩ := lookup_inviteByToken hr
  have hlink : v.link r.1 = some r.2.link := by
    rw [Db.link, hlookup]
    rfl
  -- The lookup ran outside any transaction, so its view has been read.
  rw [Trace.ran_outside hout]
  apply Routine.obeys_bind
  apply Routine.obeys_ask.mpr
  intro now
  apply Routine.obeys_ite
  · intro hexpired
    have hdue : r.2.link.Due now := of_decide_eq_true hexpired
    apply Routine.obeys_bind
    apply Routine.obeys_tryCatch
    apply Routine.obeys_bind
    have hfinish (τ' : Journal) (hread : v ∈ τ'.read) :
        ok ⟨r.1, { r.2 with status := .EXPIRED }, tokenHash⟩ τ' :=
      hok _ _ hhash ⟨v, hread, r.2, hlookup, htoken, Or.inr rfl⟩
    have hkept (u : Db) (ws : List Write) : v ∈ ((Trace.answered
        { τ with read := v :: τ.read } Call.now now : Journal).ran u ws).read :=
      (Trace.Within.ran _ u ws).read v List.mem_cons_self
    apply Invites.obeys_updateInvites hnil
    · exact hfinish _ List.mem_cons_self
    · exact fun u _ => hfinish _ (hkept u [])
    · exact fun u => hfinish _ (hkept u [])
    · intro u i hi hstatus
      refine ⟨hretire _ _ u i ?_ hi (of_decide_eq_true hstatus), hfinish _ (hkept u _)⟩
      exact ⟨v, List.mem_cons_self, r.2.link, hlink, by rw [hhash, ← htoken]; rfl, now,
        List.mem_cons_self, hdue⟩
  · intro _
    exact hok _ _ hhash ⟨v, List.mem_cons_self, r.2, hlookup, htoken, Or.inl rfl⟩

theorem lookup_obeys {L : Journal → Db → List Write → Prop} {rawToken : Option String}
    (hnil : ∀ τ v, L τ v []) (hout : τ.inside = false)
    (hretire : ∀ τ id v i, Journal.Resolved env τ id rawToken (fun l => ∃ n, τ.Clock n ∧ l.Due n) →
      v.invites.lookup id = some i → i.status ∈ Invites.EXPIRABLE_STATUSES →
      L τ v [.putInvite id { i with status := .EXPIRED }])
    {ok : Invites.FoundInvite → Journal → Prop}
    (hok : ∀ found τ', Invites.hashInviteToken env rawToken = some found.tokenHash →
      τ'.Resolved env found.id rawToken (fun _ => True) → ok found τ') :
    (Invites.findByToken env rawToken).obeys L ok (fun _ _ => True) τ :=
  lookup_meets hnil hout hretire fun found τ' hhash hmet => hok found τ' hhash (hmet.resolved hhash)

theorem findByToken_obeys {rawToken : Option String} (hj : j.link? = some rawToken)
    (hout : τ.inside = false) {ok : Invites.FoundInvite → Journal → Prop}
    (hok : ∀ found τ', Invites.hashInviteToken env rawToken = some found.tokenHash →
      τ'.Resolved env found.id rawToken (fun _ => True) → ok found τ') :
    (Invites.findByToken env rawToken).obeys (law env j) ok (fun _ _ => True) τ := by
  apply lookup_obeys law_nil hout _ hok
  exact fun τ id v i hresolved hi hstatus => law_updated hi (.retired hj hresolved hstatus)

theorem claimTransaction_obeys {rawToken : Option String} {user : AuthUser}
    {found : Invites.FoundInvite} {phoneMatched : Option Bool}
    (hhash : Invites.hashInviteToken env rawToken = some found.tokenHash) :
    (Invites.claimTransaction found phoneMatched user).obeys (law env (.claim rawToken user))
      (fun _ _ => True) (fun _ _ => True) τ := by
  unfold Invites.claimTransaction
  apply Routine.obeys_tryCatch
  apply Routine.obeys_transaction
  apply Routine.obeys_regardless
  · exact fun _ _ => ⟨trivial, trivial⟩
  · exact fun _ _ => trivial
  refine after fun now τ => after fun claimedAt τ => Routine.obeys_seq ?_ fun _ _ => tame_obeys
  apply Invites.obeys_updateInvites law_nil trivial
  · exact fun _ _ => trivial
  · exact fun _ => trivial
  · intro v i hi hguard
    obtain ⟨htoken, hpending, -⟩ := of_decide_eq_true hguard
    refine ⟨law_updated hi (.claimed ?_ hpending), trivial⟩
    rw [hhash, ← htoken]
    rfl

theorem claim_obeys (rawToken : Option String) (user : AuthUser) (hout : τ.inside = false) :
    (Invites.claim env rawToken user).obeys (law env (.claim rawToken user))
      (fun _ _ => True) (fun _ _ => True) τ := by
  unfold Invites.claim
  apply Routine.obeys_bind
  apply findByToken_obeys rfl hout
  intro found τ hhash _
  refine after fun phoneMatched τ => after fun _ τ => after fun school τ => after fun school τ => ?_
  exact Routine.obeys_seq (claimTransaction_obeys hhash) fun _ _ => tame_obeys

theorem dispute_obeys (rawToken : Option String) (user : AuthUser) (reason : String)
    (hout : τ.inside = false) : (Invites.dispute env rawToken user reason).obeys
      (law env (.dispute rawToken user reason)) (fun _ _ => True) (fun _ _ => True) τ := by
  unfold Invites.dispute
  apply Routine.obeys_bind
  apply findByToken_obeys rfl hout
  intro found τ _ hresolved
  apply Routine.obeys_bind
  apply Routine.obeys_ask.mpr
  intro now
  apply Routine.obeys_bind
  apply Routine.obeys_ask.mpr
  intro disputedAt
  apply Routine.obeys_seq
  · apply Invites.obeys_updateInvites law_nil trivial
    · exact fun _ _ => trivial
    · exact fun _ => trivial
    · intro v i hi hguard
      obtain ⟨hpending, -⟩ := of_decide_eq_true hguard
      exact ⟨law_updated hi (.disputed hresolved hpending), trivial⟩
  · refine fun disputed τ => after fun _ τ => after fun _ τ => after fun school τ => ?_
    cases school with
    | none => exact tame_obeys
    | some school => exact tame_obeys

theorem revoke_obeys (inviteId : Id) (actor : AuthUser) (reason : Option String) :
    (Invites.revoke inviteId actor reason).obeys (law env (.revoke inviteId actor reason))
      (fun _ _ => True) (fun _ _ => True) τ := by
  unfold Invites.revoke
  refine after fun school τ => after fun found τ => after fun invite τ => after fun now τ =>
    Routine.obeys_seq ?_ fun _ _ => tame_obeys
  apply Invites.obeys_updateInvites law_nil trivial
  · exact fun _ _ => trivial
  · exact fun _ => trivial
  · intro v i hi hguard
    obtain ⟨-, hstatus⟩ := of_decide_eq_true hguard
    exact ⟨law_updated hi (.revoked hstatus), trivial⟩

theorem reissue_obeys (inviteId : Id) (actor : AuthUser) :
    (Invites.reissue env inviteId actor).obeys (law env (.reissue inviteId actor))
      (fun _ _ => True) (fun _ _ => True) τ := by
  unfold Invites.reissue
  refine after fun school τ => after fun now τ => after fun origin τ => after fun _ τ =>
    after fun found τ => after fun invite τ => after fun token τ =>
    Routine.obeys_seq ?_ fun _ _ => tame_obeys
  apply Invites.obeys_updateInvites law_nil trivial
  · exact fun _ _ => trivial
  · exact fun _ => trivial
  · intro v i hi hguard
    obtain ⟨-, hstatus⟩ := of_decide_eq_true hguard
    exact ⟨law_updated hi (.reissued hstatus), trivial⟩

theorem release_obeys (inviteId : Id) (actor : AuthUser) (reason : Option String) :
    (Invites.release inviteId actor reason).obeys (law env (.release inviteId actor reason))
      (fun _ _ => True) (fun _ _ => True) τ := by
  unfold Invites.release
  refine after fun school τ => after fun found τ => after fun found τ => ?_
  rcases found with ⟨invite, enrollment⟩
  refine after fun plan τ => ?_
  rcases plan with ⟨enrollmentId, row⟩
  refine Routine.obeys_seq ?_ fun _ τ => ?_
  · apply Routine.obeys_transaction
    apply Routine.obeys_regardless
    · exact fun _ _ => ⟨trivial, trivial⟩
    · exact fun _ _ => trivial
    refine after fun now τ => Routine.obeys_seq ?_ fun _ _ => tame_obeys
    apply Invites.obeys_updateInvites law_nil trivial
    · exact fun _ _ => trivial
    · exact fun _ => trivial
    · intro v i hi hguard
      obtain ⟨-, hclaimed⟩ := of_decide_eq_true hguard
      exact ⟨law_updated hi (.released hclaimed), trivial⟩
  · split
    · exact tame_obeys
    · exact tame_obeys

theorem create_obeys (dto : CreateEnrollmentInviteDto) (actor : AuthUser) :
    (Invites.create env dto actor).obeys (law env (.create dto actor))
      (fun _ _ => True) (fun _ _ => True) τ := by
  unfold Invites.create
  refine after fun school τ => after fun now τ => after fun origin τ => after fun _ τ => ?_
  dsimp only
  refine after fun phoneNumber τ => after fun parentPhoneHash τ => ?_
  split
  · exact Routine.obeys_bind (Routine.obeys_throw.mpr trivial)
  refine after fun _ τ => after fun found τ => after fun classFee τ => after fun _ τ =>
    after fun _ τ => after fun token τ => after fun id τ => ?_
  apply Routine.obeys_seq
  · apply Routine.obeys_tryCatch
    apply Invites.obeys_createInvite law_nil
    · intro error τ
      cases error <;> exact Routine.obeys_throw.mpr trivial
    · intro v hnew
      refine ⟨law_putInvite ?_, trivial⟩
      rw [hnew]
      exact .created ⟨dto, actor, rfl⟩ rfl
  · exact fun _ _ => tame_obeys

/-! ### The sweep -/

theorem lookup_dueInvites {now : Int} {db : Db} {summary : Invites.InviteSummary}
    (h : summary ∈ Invites.dueInvites now db) :
    ∃ l, db.link summary.id = some l ∧ l.Due now := by
  obtain ⟨r, hr, rfl⟩ := List.mem_map.mp h
  obtain ⟨hmem, hdue⟩ := List.mem_filter.mp hr
  refine ⟨r.2.link, ?_, of_decide_eq_true hdue⟩
  rw [Db.link, Table.mem_rows.mp hmem]
  rfl

theorem expireInvites_obeys {ids : List Id} (hids : ∀ id ∈ ids, τ.ReadDue id) :
    (Invites.expireInvites ids).obeys (law env .expireStale) (fun _ _ => True) (fun _ _ => True)
      τ := by
  apply Invites.obeys_expireInvites law_nil trivial
  intro v ws hws
  refine ⟨fun id => ?_, fun _ => trivial⟩
  rcases hws id with hkept | ⟨hid, hretired⟩
  · rw [hkept]
    exact .stays _
  · rw [hretired]
    cases v.invites.lookup id with
    | none => exact .stays _
    | some i => exact .changed (.swept (hids id hid))

theorem expireStale_obeys (hout : τ.inside = false) :
    Invites.expireStale.obeys (law env .expireStale) (fun _ _ => True) (fun _ _ => True) τ := by
  unfold Invites.expireStale
  apply Routine.obeys_bind
  apply Routine.obeys_ask.mpr
  intro now
  apply Routine.obeys_bind
  apply Routine.obeys_query law_nil trivial
  intro v
  have hread : (τ.answered Call.now now).inside = false := hout
  rw [Trace.ran_outside hread]
  apply Routine.obeys_bind
  apply Routine.obeys_ask.mpr
  intro order
  apply Routine.obeys_ite
  · exact fun _ => trivial
  intro _
  apply Routine.obeys_seq
  · apply expireInvites_obeys
    intro id hid
    obtain ⟨summary, hsummary, rfl⟩ := List.mem_map.mp hid
    obtain ⟨l, hl, hdue⟩ := lookup_dueInvites (mem_of_mem_arrange hsummary)
    exact ⟨v, List.mem_cons_self, l, hl, now, List.mem_cons_of_mem _ List.mem_cons_self, hdue⟩
  · exact fun _ _ => tame_obeys

theorem amend_obeys (inviteId : Id) (amountAlreadyPaid : ℚ) (reason : Option String)
    (actor : AuthUser) : (Invites.amend inviteId amountAlreadyPaid reason actor).obeys
      (law env (.amend inviteId amountAlreadyPaid reason actor)) (fun _ _ => True)
      (fun _ _ => True) τ := by
  apply Routine.Keeps.lawful (P := Restating)
  · intro τ v ws h id
    have hlink := h.links id
    rw [Db.link, Db.link] at hlink
    cases hi : v.invites.lookup id with
    | none =>
      rw [hi] at hlink
      rw [Option.map_eq_none_iff.mp hlink]
      exact .stays _
    | some i =>
      rw [hi] at hlink
      obtain ⟨i', hi', hsame⟩ := Option.map_eq_some_iff.mp hlink
      rw [hi']
      exact .restated ⟨_, _, _, _, rfl⟩ hsame
  · infer_instance

/-- Every job on invites obeys its law. -/
theorem obeys (j : InviteJob) (hout : τ.inside = false) :
    (j.action env).obeys (law env j) (fun _ _ => True) (fun _ _ => True) τ := by
  cases j with
  | create dto actor => exact Routine.obeys_map (create_obeys dto actor)
  | preview rawToken =>
    exact Routine.obeys_map (findByToken_obeys rfl hout fun _ _ _ _ => trivial)
  | claim rawToken user => exact Routine.obeys_map (claim_obeys rawToken user hout)
  | dispute rawToken user reason => exact Routine.obeys_map (dispute_obeys rawToken user reason hout)
  | revoke inviteId actor reason => exact Routine.obeys_map (revoke_obeys inviteId actor reason)
  | reissue inviteId actor => exact Routine.obeys_map (reissue_obeys inviteId actor)
  | amend inviteId amountAlreadyPaid reason actor =>
    exact Routine.obeys_map (amend_obeys inviteId amountAlreadyPaid reason actor)
  | release inviteId actor reason => exact Routine.obeys_map (release_obeys inviteId actor reason)
  | expireStale => exact Routine.obeys_map (expireStale_obeys hout)

end Obeys

end InviteJob

/-! ### What commits do -/

/-- What a job can do to the row of an invite; one on the ledger restates its amount. -/
def Work.Turns (env : InviteEnvironment) (τ : Journal) (id : Id) :
    Work → Option EnrollmentInvite → Option EnrollmentInvite → Prop
  | .payments _, r, r' => r'.map (·.link) = r.map (·.link)
  | .invites j, r, r' => j.Turns env τ id r r'

namespace Work.Turns

variable {env : InviteEnvironment} {τ τ' : Journal} {id : Id} {w : Work}

theorem refl (r : Option EnrollmentInvite) : w.Turns env τ id r r := by
  cases w with
  | payments job => exact rfl
  | invites j => exact .stays r

theorem trans {r r' r'' : Option EnrollmentInvite} (h : w.Turns env τ id r r')
    (h' : w.Turns env τ id r' r'') : w.Turns env τ id r r'' := by
  cases w with
  | payments job => exact Eq.trans h' h
  | invites j => exact InviteJob.Turns.trans h h'

theorem mono (hτ : τ.Within τ') {r r' : Option EnrollmentInvite} (h : w.Turns env τ id r r') :
    w.Turns env τ' id r r' := by
  cases w with
  | payments job => exact h
  | invites j => exact InviteJob.Turns.mono hτ h

end Work.Turns

def Work.law (env : InviteEnvironment) (w : Work) (τ : Journal) (v : Db) (ws : List Write) : Prop :=
  ∀ id, w.Turns env τ id (v.invites.lookup id) ((store.applyAll ws v).invites.lookup id)

theorem Work.obeys (env : InviteEnvironment) (w : Work) :
    (w.program env).obeys (w.law env) (fun _ _ => True) .nil := by
  refine Prog.obeys_mono (fun _ _ _ => trivial) (?_ : (w.action env).obeys _ (fun _ _ => True)
    (fun _ _ => True) .nil)
  cases w with
  | payments job => exact (Job.keeps (P := Restating) job).lawful fun _ _ _ h id => h.links id
  | invites job => exact job.obeys rfl

/-- The invites, each under its row lock. -/
def inviteRows : Rows store agree Id (Option EnrollmentInvite) where
  row id db := db.invites.lookup id
  lock := .invite
  frame := fun k _ s hk => store_frame.frame (.invite k) _ s hk
  congr := fun k w _ _ h => (agree_apply (k := .invite k) w h.symm).symm
  locked := fun _ _ _ h => h

section Interleaved

variable {env : InviteEnvironment} {guard : Office → Event Work Answer → Office → Prop}
  {start : Db → Prop} {s s' : Office}

/-- What a step does to an invite is what the job that moved can do, with what it knew. -/
theorem step_turns (hs : Sys.Reach store (Work.program env) guard start s) {e : Event Work Answer}
    (hstep : s.step store (Work.program env) e = some s') (hguard : guard s e s') (id : Id) :
    s'.store = s.store ∨ ∃ pid ch p τ, e = .move pid ch ∧ s.procs[pid]? = some p ∧
      τ.log = p.ctx.log ∧ (∀ db ∈ τ.read, db ∈ p.ctx.seen) ∧
      p.job.Turns env τ id (s.store.invites.lookup id) (s'.store.invites.lookup id) := by
  rcases hs.obeys store_frame (fun _ ws _ _ h => agree_applyAll ws h)
    (fun _ w _ _ => Work.obeys env w) hstep hguard with hsame | hmoved
  · exact Or.inl hsame
  · right
    obtain ⟨pid, ch, p, τ, done, rfl, hp, hlog, hread, hreplays, hstore⟩ := hmoved
    refine ⟨pid, ch, p, τ, rfl, hp, hlog, hread, ?_⟩
    rw [hstore]
    exact hreplays.law inviteRows (fun r => .refl r) (fun _ _ _ h h' => h.trans h')
      fun τ' v ws hτ hlaw => (hlaw id).mono hτ

end Interleaved

end Lopay
