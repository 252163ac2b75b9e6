import Lopay.Invites.Moves
import Lopay.Transactions.Runs

/-!
# The life of an invite

What holds of the status of an invite while the statements of any number of jobs are
interleaved. Expiry is written by id or by status after an earlier read, so it can land on
an invite that has been claimed, cancelled or given a new window since; everything else
keeps to the life cycle.
-/

namespace Lopay

open Transactions

/-- The clock readings among the answers of the outside world, newest first. -/
def clockReadings (log : List (Sigma Answer)) : List Int :=
  log.filterMap fun
    | ⟨.now, n⟩ => some n
    | _ => none

theorem mem_clockReadings {log : List (Sigma Answer)} {n : Int} :
    n ∈ clockReadings log ↔ (⟨.now, n⟩ : Sigma Answer) ∈ log := by
  constructor
  · intro h
    obtain ⟨⟨c, a⟩, hmem, ha⟩ := List.mem_filterMap.mp h
    cases c with
    | now =>
      obtain rfl := Option.some.inj ha
      exact hmem
    | _ => cases ha
  · exact fun h => List.mem_filterMap.mpr ⟨_, h, rfl⟩

namespace Office

/-- Somebody has seen the clock at `n` or later. -/
def Past (s : Office) (n : Int) : Prop := ∃ m, n ≤ m ∧ s.Heard ⟨.now, m⟩

/-- The job that an event moves is an invite job of this kind. -/
def Moves (s : Office) (e : Event Work Answer) (kind : InviteJob → Prop) : Prop :=
  ∃ p j, s.mover? e = some p ∧ p.job = .invites j ∧ kind j

end Office

/-- An invite that was due when the mover saw it is retired only while it can still be
    retired and its window is still that one. -/
def Undisturbed (s : Office) (e : Event Work Answer) (s' : Office) : Prop :=
  ∀ p ∈ s.mover? e, ∀ r ∈ s.store.invites.rows, r.2.status ≠ .EXPIRED →
    s'.store.link r.1 = some r.2.link.retired →
    ∀ db ∈ p.ctx.seen, ∀ l ∈ db.link r.1, (∃ n ∈ clockReadings p.ctx.log, l.Due n) →
      r.2.status ∈ Invites.EXPIRABLE_STATUSES ∧ r.2.expiresAt = l.expiresAt

instance (s : Office) (e : Event Work Answer) (s' : Office) : Decidable (Undisturbed s e s') :=
  inferInstanceAs (Decidable (∀ p ∈ s.mover? e, _))

/-- Somebody claims, disputes, cancels or re-issues the invite in this step. -/
def Handled (id : Id) (s : Office) (e : Event Work Answer) (s' : Office) : Prop :=
  s.Moves e (fun j => (∃ rawToken user, j = .claim rawToken user) ∨
    (∃ rawToken user reason, j = .dispute rawToken user reason) ∨
    (∃ actor reason, j = .revoke id actor reason) ∨ ∃ actor, j = .reissue id actor) ∧
  ∃ l, s'.store.link id = some l ∧ s.store.link id ≠ some l ∧ l.status ≠ .EXPIRED

/-- The life cycle of an invite. -/
inductive Link.Advances (id : Id) (s : Office) (e : Event Work Answer) : Link → Link → Prop
  | stays (l : Link) : Advances id s e l l
  | claimed {l : Link} : s.Moves e (fun j => ∃ rawToken user, j = .claim rawToken user) →
      l.status = .PENDING → Advances id s e l { l with status := .CLAIMED }
  | disputed {l : Link} :
      s.Moves e (fun j => ∃ rawToken user reason, j = .dispute rawToken user reason) →
      l.status = .PENDING → Advances id s e l { l with status := .DISPUTED }
  | revoked {l : Link} : s.Moves e (fun j => ∃ actor reason, j = .revoke id actor reason) →
      l.status = .PENDING ∨ l.status = .DISPUTED → Advances id s e l { l with status := .REVOKED }
  | reissued {l : Link} {tokenHash : String} {expiresAt : Int} :
      s.Moves e (fun j => ∃ actor, j = .reissue id actor) →
      l.status = .PENDING ∨ l.status = .EXPIRED → Advances id s e l ⟨.PENDING, tokenHash, expiresAt⟩
  | released {l : Link} : s.Moves e (fun j => ∃ actor reason, j = .release id actor reason) →
      l.status = .CLAIMED → Advances id s e l { l with status := .REVOKED }
  | expired {l : Link} : l.status = .PENDING ∨ l.status = .DISPUTED → s.Past l.expiresAt →
      Advances id s e l l.retired

section Lives

variable {env : InviteEnvironment} {start : Db → Prop} {s s' t : Office} {id : Id} {l l' : Link}
  {e : Event Work Answer}

theorem mem_expirable {status : EnrollmentInviteStatus}
    (h : status ∈ Invites.EXPIRABLE_STATUSES) : status = .PENDING ∨ status = .DISPUTED := by
  simpa [Invites.EXPIRABLE_STATUSES] using h

/-- An undisturbed expiry finds the invite due. -/
theorem Undisturbed.advances (h : Undisturbed s e s') {p : Proc Work Db Write Answer
      (Except Err Reply)} (hp : s.mover? e = some p) (hl : s.store.link id = some l)
    (hl' : s'.store.link id = some l.retired) {db : Db} (hdb : db ∈ p.ctx.seen) {l₀ : Link}
    (hl₀ : db.link id = some l₀) {n : Int} (hn : (⟨.now, n⟩ : Sigma Answer) ∈ p.ctx.log)
    (hdue : l₀.Due n) : l.Advances id s e l.retired := by
  by_cases hexpired : l.status = .EXPIRED
  · have hsame : l.retired = l := by
      rw [Link.retired, ← hexpired]
    rw [hsame]
    exact .stays l
  · obtain ⟨i, hi, rfl⟩ := Option.map_eq_some_iff.mp hl
    have hmem : p ∈ s.procs := by
      cases e with
      | spawn j => cases hp
      | move pid ch => exact List.mem_of_getElem? hp
    obtain ⟨hstatus, hwindow⟩ := h p hp (id, i) (Table.mem_rows.mpr hi) hexpired hl' db hdb l₀ hl₀
      ⟨n, mem_clockReadings.mpr hn, hdue⟩
    refine .expired (mem_expirable hstatus) ⟨n, ?_, p, hmem, hn⟩
    exact hwindow.le.trans hdue.2

/-- A step of an undisturbed run keeps to the life cycle. -/
theorem step_advances (hs : Sys.Reach store (Work.program env) Undisturbed start s)
    (hstep : s.step store (Work.program env) e = some s') (hguard : Undisturbed s e s')
    (hl : s.store.link id = some l) :
    ∃ l', s'.store.link id = some l' ∧ l.Advances id s e l' := by
  rcases step_turns hs hstep hguard id with hsame | hmoved
  · exact ⟨l, by rw [hsame]; exact hl, .stays l⟩
  · obtain ⟨pid, ch, p, τ, rfl, hp, hlog, hread, hturns⟩ := hmoved
    cases hj : p.job with
    | payments job =>
      rw [hj] at hturns
      exact ⟨l, Eq.trans hturns hl, .stays l⟩
    | invites j =>
    rw [hj] at hturns
    obtain ⟨i, hi, rfl⟩ := Option.map_eq_some_iff.mp hl
    rw [hi] at hturns
    generalize hr : s'.store.invites.lookup id = r at hturns
    have hmoves {kind : InviteJob → Prop} (hkind : kind j) : s.Moves (.move pid ch) kind :=
      ⟨p, j, hp, hj, hkind⟩
    cases hturns with
    | stays => exact ⟨i.link, congrArg (Option.map _) hr, .stays i.link⟩
    | restated _ hlink => exact ⟨i.link, by rw [Db.link, hr, ← hlink]; rfl, .stays i.link⟩
    | @changed _ i' hchange =>
      have hlink : s'.store.link id = some i'.link := congrArg (Option.map _) hr
      refine ⟨i'.link, hlink, ?_⟩
      generalize i'.link = l' at hchange hlink
      cases hchange with
      | claimed _ hpending => exact .claimed (hmoves ⟨_, _, rfl⟩) hpending
      | disputed _ hpending => exact .disputed (hmoves ⟨_, _, _, rfl⟩) hpending
      | revoked hstatus => exact .revoked (hmoves ⟨_, _, rfl⟩) hstatus
      | reissued hstatus => exact .reissued (hmoves ⟨_, rfl⟩) hstatus
      | released hclaimed => exact .released (hmoves ⟨_, _, rfl⟩) hclaimed
      | retired _ hresolved _ =>
        obtain ⟨db, hdb, l₀, hl₀, -, n, hn, hdue⟩ := hresolved
        exact hguard.advances hp hl hlink (hread db hdb) hl₀ (hlog ▸ hn) hdue
      | swept hdue =>
        obtain ⟨db, hdb, l₀, hl₀, n, hn, hdue⟩ := hdue
        exact hguard.advances hp hl hlink (hread db hdb) hl₀ (hlog ▸ hn) hdue

theorem Office.Past.step {n : Int} (h : s.Past n)
    (hstep : s.step store (Work.program env) e = some s') : s'.Past n := by
  obtain ⟨m, hm, hheard⟩ := h
  exact ⟨m, hm, hheard.step hstep⟩

/-- As long as nobody handles it, a pending invite stays as it is until its window closes. -/
theorem leads_claimable (hs : Sys.Reach store (Work.program env) Undisturbed start s)
    (hl : s.store.link id = some l) (hpending : l.status = .PENDING)
    (hrun : Sys.Leads store (Work.program env)
      (fun u e u' => Undisturbed u e u' ∧ ¬ Handled id u e u') s t) :
    t.store.link id = some l ∨ t.Past l.expiresAt := by
  induction hrun with
  | refl => exact Or.inl hl
  | @step t t' e hrun hstep hguard ih =>
    obtain ⟨hundisturbed, hunhandled⟩ := hguard
    rcases ih with hsame | hpast
    · have hreach := hrun.reach (fun _ _ _ h => h.1) hs
      obtain ⟨l', hl', hadvances⟩ := step_advances hreach hstep hundisturbed hsame
      have hhandled {kind : InviteJob → Prop} (hmoves : Office.Moves t e kind)
          (hkind : ∀ j, kind j → (∃ rawToken user, j = .claim rawToken user) ∨
            (∃ rawToken user reason, j = .dispute rawToken user reason) ∨
            (∃ actor reason, j = .revoke id actor reason) ∨ ∃ actor, j = .reissue id actor)
          (hne : l' ≠ l) (hopen : l'.status ≠ .EXPIRED) : False := by
        obtain ⟨p, j, hp, hj, hk⟩ := hmoves
        refine hunhandled ⟨⟨p, j, hp, hj, hkind j hk⟩, l', hl', ?_, hopen⟩
        rw [hsame]
        exact fun h => hne (Option.some.inj h).symm
      cases hadvances with
      | stays => exact Or.inl hl'
      | claimed hmoves _ =>
        refine (hhandled hmoves (fun j h => Or.inl h) ?_ ?_).elim
        · intro h
          rw [← h] at hpending
          cases hpending
        · intro h
          cases h
      | disputed hmoves _ =>
        refine (hhandled hmoves (fun j h => Or.inr (Or.inl h)) ?_ ?_).elim
        · intro h
          rw [← h] at hpending
          cases hpending
        · intro h
          cases h
      | revoked hmoves _ =>
        refine (hhandled hmoves (fun j h => Or.inr (Or.inr (Or.inl h))) ?_ ?_).elim
        · intro h
          rw [← h] at hpending
          cases hpending
        · intro h
          cases h
      | @reissued tokenHash expiresAt hmoves _ =>
        by_cases hsame' : ⟨.PENDING, tokenHash, expiresAt⟩ = l
        · exact Or.inl (hsame' ▸ hl')
        · refine (hhandled hmoves (fun j h => Or.inr (Or.inr (Or.inr h))) hsame' ?_).elim
          intro h
          cases h
      | released _ hclaimed =>
        rw [hpending] at hclaimed
        cases hclaimed
      | expired _ hpast => exact Or.inr (Office.Past.step hpast hstep)
    · exact Or.inr (Office.Past.step hpast hstep)

end Lives

/-- The life of one invite from `s` on: what a step can do to its status, and that a
    link stays claimable. -/
structure LivesOn (env : InviteEnvironment)
    (guard : Office → Event Work Answer → Office → Prop) (id : Id) (s : Office) : Prop where
  step : ∀ e s' l, s.step store (Work.program env) e = some s' → guard s e s' →
    s.store.link id = some l → ∃ l', s'.store.link id = some l' ∧
      (l.status = .CLAIMED → l'.status = .CLAIMED ∨
        l'.status = .REVOKED ∧ s.Moves e fun j => ∃ actor reason, j = .release id actor reason) ∧
      (l.status = .REVOKED → l'.status = .REVOKED) ∧
      (l'.status = .EXPIRED → l.status = .EXPIRED ∨
        (l.status = .PENDING ∨ l.status = .DISPUTED) ∧ s.Past l.expiresAt)
  claimable : ∀ (t : Office) l, Sys.Leads store (Work.program env)
      (fun u e u' => guard u e u' ∧ ¬ Handled id u e u') s t →
    s.store.link id = some l → l.status = .PENDING →
    t.store.link id = some l ∨ t.Past l.expiresAt

theorem invite_lifecycle (env : InviteEnvironment) {s : Office} {start : Db → Prop}
    (hs : Sys.Reach store (Work.program env) Undisturbed start s) (id : Id) :
    LivesOn env Undisturbed id s where
  step := by
    intro e s' l hstep hguard hl
    obtain ⟨l', hl', hadvances⟩ := step_advances hs hstep hguard hl
    refine ⟨l', hl', ?_⟩
    cases hadvances with
    | stays => grind
    | claimed hmoves h => grind
    | disputed hmoves h => grind
    | revoked hmoves h => grind
    | reissued hmoves h => grind
    | released hmoves h => grind
    | expired h hpast =>
      refine ⟨fun hclaimed => ?_, fun hrevoked => ?_, fun _ => Or.inr ⟨h, hpast⟩⟩
      · simp [hclaimed] at h
      · simp [hrevoked] at h
  claimable := fun t l hrun hl hpending => leads_claimable hs hl hpending hrun

/-- The sweep retires the invite, and the school re-issues it. -/
def retiredAndReissued : List (Event Work Answer) :=
  working 0 (.invites .expireStale) "a" 7 ++
  working 1 (.invites (.reissue "invite" schoolOwner)) "b" 6

theorem invite_lifecycle_reissued : ∃ s : Office,
    Sys.exec store (Work.program inviteEnvironment) (fun s e s' => decide (Undisturbed s e s'))
      retiredAndReissued (.init invitedFamily) = some s ∧
    (s.store.link "invite").any (fun l => l.status = .PENDING) = true ∧
    LivesOn inviteEnvironment Undisturbed "invite" s := by
  have hruns : ((Sys.exec store (Work.program inviteEnvironment)
      (fun s e s' => decide (Undisturbed s e s')) retiredAndReissued (.init invitedFamily)).any
      fun s => (s.store.link "invite").any fun l => l.status = .PENDING) = true := by
    decide +kernel
  obtain ⟨s, hs, hpending⟩ := (Option.any_eq_true _ _).mp hruns
  have hreach : Sys.Reach store (Work.program inviteEnvironment) Undisturbed
      (fun db => db = invitedFamily) s :=
    Sys.reach_of_exec (fun _ _ _ h => of_decide_eq_true h) (.init rfl) hs
  exact ⟨s, hs, hpending, invite_lifecycle inviteEnvironment hreach "invite"⟩

/-- The school re-issues the invite after the sweep has read it and before it writes. -/
def sweptAfterReissue : List (Event Work Answer) :=
  working 0 (.invites .expireStale) "a" 2 ++
  working 1 (.invites (.reissue "invite" schoolOwner)) "b" 6 ++ [.move 0 (smoothly "a" 2)]

theorem not_past {s : Office} {n : Int}
    (h : ∀ p ∈ s.procs, ∀ m ∈ clockReadings p.ctx.log, m < n) : ¬ s.Past n := by
  rintro ⟨m, hm, p, hp, hheard⟩
  exact absurd (h p hp m (mem_clockReadings.mpr hheard)) (not_lt.mpr hm)

/-- The sweep then retires a link that has two weeks to go: without the condition the life
    cycle is broken. -/
theorem invite_lifecycle_needs_condition :
    ¬ ∀ s : Office, Sys.Reach store (Work.program inviteEnvironment) (fun _ _ _ => True)
      (fun db => db = invitedFamily) s → ∀ id, LivesOn inviteEnvironment (fun _ _ _ => True) id s := by
  intro hlaw
  have hruns : ((Sys.exec store (Work.program inviteEnvironment) (fun _ _ _ => true)
      sweptAfterReissue (.init invitedFamily)).any fun s =>
        (s.step store (Work.program inviteEnvironment) (.move 0 (smoothly "a" 3))).any fun s' =>
          (s.store.link "invite").any fun l => (s'.store.link "invite").any fun l' =>
            l.status = .PENDING ∧ l'.status = .EXPIRED ∧
              ∀ p ∈ s.procs, ∀ m ∈ clockReadings p.ctx.log, m < l.expiresAt) = true := by
    decide +kernel
  obtain ⟨s, hs, hany⟩ := (Option.any_eq_true _ _).mp hruns
  obtain ⟨s', hs', hany⟩ := (Option.any_eq_true _ _).mp hany
  obtain ⟨l, hl, hany⟩ := (Option.any_eq_true _ _).mp hany
  obtain ⟨l', hl', hcond⟩ := (Option.any_eq_true _ _).mp hany
  obtain ⟨hpending, hexpired, hopen⟩ := of_decide_eq_true hcond
  have hreach : Sys.Reach store (Work.program inviteEnvironment) (fun _ _ _ => True)
      (fun db => db = invitedFamily) s := Sys.reach_of_exec (fun _ _ _ _ => trivial) (.init rfl) hs
  obtain ⟨l'', hl'', -, -, hexpiry⟩ := (hlaw s hreach "invite").step _ s' l hs' trivial hl
  obtain rfl := Option.some.inj (hl'.symm.trans hl'')
  rcases hexpiry hexpired with h | ⟨-, hpast⟩
  · rw [hpending] at h
    cases h
  · exact not_past hopen hpast

end Lopay
