import Lopay.Tame.Ledger

/-!
# What the jobs on invites do to payments

The parts of `EnrollmentInvitesService` that write no invite are tame; those that do still
leave the flags of payments in step.
-/

namespace Lopay

open Transactions

set_option synthInstance.maxSize 4000

namespace Invites

section Methods

variable {P : Db → List Write → Prop} [AdmitsNothing P]

instance (actor : AuthUser) : Routine.Keeps P (assertOwnsSchool actor) := by
  unfold assertOwnsSchool
  infer_instance

instance (env : InviteEnvironment) : Routine.Keeps P (webAppOrigin env) := by
  unfold webAppOrigin
  infer_instance

instance (schoolId : Id) (studentName className : String) :
    Routine.Keeps P (assertNoLiveInvite schoolId studentName className) := by
  unfold assertNoLiveInvite
  apply Routine.Keeps.andThen
  intro existing
  cases existing with
  | none => infer_instance
  | some existing => infer_instance

instance (schoolId : Id) (studentName : String) :
    Routine.Keeps P (assertNotAlreadyMigrated schoolId studentName) := by
  unfold assertNotAlreadyMigrated
  apply Routine.Keeps.andThen
  intro migrated
  cases migrated with
  | none => infer_instance
  | some migrated => infer_instance

instance (invite : EnrollmentInvite) (userId : Id) :
    Routine.Keeps P (claimantPhoneMatches invite userId) := by
  unfold claimantPhoneMatches
  infer_instance

omit [AdmitsNothing P] in
instance [AdmitsStill P] (userId : Id) : Routine.Keeps P (resolveParent userId) := by
  unfold resolveParent
  refine .andThen fun account => .andThen fun id => .andThen fun _ => .andThen fun (id, _) => ?_
  infer_instance

omit [AdmitsNothing P] in
instance [AdmitsStill P] (parentId : Id) (invite : EnrollmentInvite) :
    Routine.Keeps P (resolveChild parentId invite) := by
  unfold resolveChild
  refine .andThen fun id => .andThen fun _ => .andThen fun (id, _) => ?_
  infer_instance

instance (n : Notification) : Routine.Keeps P (notifyUser n) := by
  unfold notifyUser
  infer_instance

instance (userId : Id) : Routine.Keeps P (describeClaimant userId) := by
  unfold describeClaimant
  have haccount : Routine.Keeps P (do
      let account ← read fun db => db.users.lookup userId
      match account with
      | none => pure "someone"
      | some account =>
        let name := ((trimmed account.fullName).or (trimmed account.name)).getD "someone"
        let digits := (account.phoneNumber.getD "").toList.filter Char.isDigit
        pure (if 3 ≤ digits.length then
            name ++ " (•••" ++ String.ofList (digits.drop (digits.length - 3)) ++ ")"
          else name) : Action String) := by
    apply Routine.Keeps.andThen
    intro account
    cases account with
    | none => infer_instance
    | some account => infer_instance
  infer_instance

instance (invites : List InviteSummary) (notification : List InviteSummary → Id → Notification) :
    Routine.Keeps P (notifySchools invites notification) := by
  unfold notifySchools
  infer_instance

instance (parentUserId schoolId : Id) (schoolName studentName className : String)
    (amountAlreadyPaid remainingBalance : Int) : Routine.Keeps P (Ledger.announceMigratedEnrollment
      parentUserId schoolId schoolName studentName className amountAlreadyPaid
      remainingBalance) := by
  unfold Ledger.announceMigratedEnrollment
  infer_instance

omit [AdmitsNothing P] in
instance [AdmitsTame P] [AdmitsAmounts P] (inviteId : Id) (amountAlreadyPaid : ℚ)
    (reason : Option String) (actor : AuthUser) :
    Routine.Keeps P (amend inviteId amountAlreadyPaid reason actor) := by
  unfold amend
  refine .andThen fun school => .andThen fun found => .andThen fun (_, enrollment) =>
    .andThen fun (enrollmentId, _) => ?_
  infer_instance

end Methods

/-! ### Writes of invites -/

section Writes

variable {L : Trace Db Write Answer → Db → List Write → Prop} {τ : Trace Db Write Answer}
  {err : Err → Trace Db Write Answer → Prop}

theorem updateInvites_writes {id : Id} {filter : EnrollmentInvite → Bool}
    {data : EnrollmentInvite → EnrollmentInvite} {v : Db} {n : Nat} {ws : List Write}
    (h : (match v.invites.lookup id with
      | some invite =>
        if filter invite then
          match v.inviteClash id (data invite) with
          | some target => .error (.unique target)
          | none => .ok (1, [.putInvite id (data invite)])
        else .ok (0, [])
      | none => .ok (0, []) : Except Err (Nat × List Write)) = .ok (n, ws)) :
    n = 0 ∧ ws = [] ∨ n = 1 ∧ ∃ i, v.invites.lookup id = some i ∧ filter i = true ∧
      ws = [.putInvite id (data i)] := by
  cases hi : v.invites.lookup id with
  | none =>
    simp only [hi, Except.ok.injEq, Prod.mk.injEq] at h
    exact Or.inl ⟨h.1.symm, h.2.symm⟩
  | some i =>
    simp only [hi] at h
    by_cases hfilter : filter i = true
    · rw [if_pos hfilter] at h
      split at h
      · cases h
      · simp only [Except.ok.injEq, Prod.mk.injEq] at h
        exact Or.inr ⟨h.1.symm, i, rfl, hfilter, h.2.symm⟩
    · rw [if_neg hfilter] at h
      simp only [Except.ok.injEq, Prod.mk.injEq] at h
      exact Or.inl ⟨h.1.symm, h.2.symm⟩

/-- `updateInvites` writes the row it finds, if that passes the filter, or nothing. -/
theorem obeys_updateInvites {id : Id} {filter : EnrollmentInvite → Bool}
    {data : EnrollmentInvite → EnrollmentInvite} {ok : Nat → Trace Db Write Answer → Prop}
    (hL : ∀ τ v, L τ v []) (hfault : err .database τ)
    (herr : ∀ v target, err (.unique target) (τ.ran v [])) (hnone : ∀ v, ok 0 (τ.ran v []))
    (hsome : ∀ v i, v.invites.lookup id = some i → filter i = true →
      L τ v [.putInvite id (data i)] ∧ ok 1 (τ.ran v [.putInvite id (data i)])) :
    (updateInvites id filter data).obeys L ok err τ := by
  apply Routine.obeys_exec hL hfault
  · intro v e hf
    grind
  · intro v n ws hf
    rcases updateInvites_writes hf with ⟨rfl, rfl⟩ | ⟨rfl, i, hi, hfilter, rfl⟩
    · exact ⟨hL τ v, hnone v⟩
    · exact hsome v i hi hfilter

theorem createInvite_writes {id : Id} {row : EnrollmentInvite} {v : Db} {a : Unit}
    {ws : List Write}
    (h : (if (v.invites.lookup id).isSome then .error (.unique "id")
      else if (v.schools.lookup row.schoolId).isNone ∨
        (v.users.lookup row.createdByUserId).isNone then .error .foreignKey
      else if ¬ (0 < row.totalSchoolFee ∧ 0 ≤ row.amountAlreadyPaid ∧
          row.amountAlreadyPaid ≤ row.totalSchoolFee ∧ row.planStartDate < row.termEndDate) then
        .error .database
      else match v.inviteClash id row with
        | some target => .error (.unique target)
        | none => .ok ((), [.putInvite id row]) : Except Err (Unit × List Write)) = .ok (a, ws)) :
    v.invites.lookup id = none ∧ ws = [.putInvite id row] := by
  split at h
  · cases h
  next hnew =>
  split at h
  · cases h
  split at h
  · cases h
  split at h
  · cases h
  simp only [Except.ok.injEq, Prod.mk.injEq] at h
  exact ⟨by simpa using hnew, h.2.symm⟩

/-- `createInvite` writes a row under an id that has none. -/
theorem obeys_createInvite {id : Id} {row : EnrollmentInvite}
    {ok : Unit → Trace Db Write Answer → Prop} (hL : ∀ τ v, L τ v [])
    (herr : ∀ e τ, err e τ)
    (hsome : ∀ v, v.invites.lookup id = none →
      L τ v [.putInvite id row] ∧ ok () (τ.ran v [.putInvite id row])) :
    (createInvite id row).obeys L ok err τ := by
  apply Routine.obeys_exec hL (herr _ _)
  · exact fun v e _ => herr e _
  · intro v a ws hf
    obtain ⟨hnew, rfl⟩ := createInvite_writes hf
    exact hsome v hnew

/-- Rows of `v` are retired one after the other: an invite is as it was, or retired. -/
theorem lookup_retireAll {v u : Db} {ids : List Id} {rows : List (Id × EnrollmentInvite)}
    (hrows : ∀ r ∈ rows, r.1 ∈ ids ∧ v.invites.lookup r.1 = some r.2)
    (hu : ∀ id, u.invites.lookup id = v.invites.lookup id ∨ id ∈ ids ∧ u.invites.lookup id =
      (v.invites.lookup id).map fun i => { i with status := .EXPIRED }) (id : Id) :
    (store.applyAll (rows.map fun r => .putInvite r.1 { r.2 with status := .EXPIRED })
        u).invites.lookup id = v.invites.lookup id ∨ id ∈ ids ∧
      (store.applyAll (rows.map fun r => .putInvite r.1 { r.2 with status := .EXPIRED })
        u).invites.lookup id =
        (v.invites.lookup id).map fun i => { i with status := .EXPIRED } := by
  induction rows generalizing u with
  | nil => exact hu id
  | cons r rows ih =>
    apply ih
    · exact fun r' hr' => hrows r' (List.mem_cons_of_mem r hr')
    · intro k
      obtain ⟨hmem, hlookup⟩ := hrows r List.mem_cons_self
      simp only [store_apply, Write.apply, Table.lookup_insert_ite]
      by_cases hk : k = r.1
      · subst hk
        rw [if_pos rfl, hlookup]
        exact Or.inr ⟨hmem, rfl⟩
      · rw [if_neg hk]
        exact hu k

/-- `expireInvites` retires invites under the ids it is given. -/
theorem obeys_expireInvites {ids : List Id} {ok : Nat → Trace Db Write Answer → Prop}
    (hL : ∀ τ v, L τ v []) (hfault : err .database τ)
    (hok : ∀ v ws, (∀ id,
      (store.applyAll ws v).invites.lookup id = v.invites.lookup id ∨ id ∈ ids ∧
        (store.applyAll ws v).invites.lookup id =
          (v.invites.lookup id).map fun i => { i with status := .EXPIRED }) →
      L τ v ws ∧ ∀ n, ok n (τ.ran v ws)) :
    (expireInvites ids).obeys L ok err τ := by
  unfold expireInvites statement
  apply Routine.obeys_exec hL hfault
  · intro v e hf
    cases hf
  · intro v n ws hf
    simp only [Except.ok.injEq, Prod.mk.injEq] at hf
    obtain ⟨-, rfl⟩ := hf
    have hrows : ∀ r ∈ v.invites.rows.filter (fun r => r.1 ∈ ids),
        r.1 ∈ ids ∧ v.invites.lookup r.1 = some r.2 := by
      intro r hr
      obtain ⟨hmem, hid⟩ := List.mem_filter.mp hr
      exact ⟨of_decide_eq_true hid, Table.mem_rows.mp hmem⟩
    obtain ⟨hlaw, hnext⟩ := hok v _ (lookup_retireAll hrows fun _ => Or.inl rfl)
    exact ⟨hlaw, hnext n⟩

end Writes

end Invites

/-! ### What stays on an invite -/

/-- What an invite says about the student and the plan. -/
structure Terms where
  schoolId : Id
  studentName : String
  className : String
  totalSchoolFee : Int
  installmentFrequency : InstallmentFrequency
  planStartDate : Int
  termEndDate : Int

def EnrollmentInvite.terms (invite : EnrollmentInvite) : Terms where
  schoolId := invite.schoolId
  studentName := invite.studentName
  className := invite.className
  totalSchoolFee := invite.totalSchoolFee
  installmentFrequency := invite.installmentFrequency
  planStartDate := invite.planStartDate
  termEndDate := invite.termEndDate

/-- The plan ends as many instalments after its start as there are. -/
def EnrollmentInvite.Dated (invite : EnrollmentInvite) : Prop :=
  invite.termEndDate = Invites.derivePlanEnd invite.planStartDate invite.installmentFrequency

/-- A condition on statements under which invites with such dates may be created, and those
    that exist changed in anything but their terms. -/
class AdmitsInvites (P : Db → List Write → Prop) : Prop where
  update : ∀ id filter data, (∀ i, (data i).terms = i.terms) →
    Routine.Keeps P (updateInvites id filter data)
  create : ∀ id row, row.Dated → row.status = .PENDING → Routine.Keeps P (createInvite id row)
  expire : ∀ ids, Routine.Keeps P (Invites.expireInvites ids)

/-- A condition on statements under which invites may be changed in anything but their terms,
    as long as none takes a slot. -/
class AdmitsMoves (P : Db → List Write → Prop) : Prop where
  update : ∀ id filter data, (∀ i, (data i).terms = i.terms) →
    (∀ i, filter i = true → (data i).status ∈ SLOT_HOLDING_STATUSES →
      i.status ∈ SLOT_HOLDING_STATUSES) →
    Routine.Keeps P (updateInvites id filter data)
  expire : ∀ ids, Routine.Keeps P (Invites.expireInvites ids)

instance {P : Db → List Write → Prop} [AdmitsInvites P] : AdmitsMoves P where
  update := fun id filter data hterms _ => AdmitsInvites.update id filter data hterms
  expire := AdmitsInvites.expire

theorem agreeing_putInvite (v : Db) (id : Id) (i : EnrollmentInvite) :
    Agreeing v [.putInvite id i] := fun _ h => h

theorem payments_of_putInvites {ws : List Write} (h : ∀ w ∈ ws, ∃ k i, w = .putInvite k i)
    (v : Db) : (store.applyAll ws v).payments = v.payments := by
  induction ws generalizing v with
  | nil => rfl
  | cons w ws ih =>
    obtain ⟨k, i, rfl⟩ := h w List.mem_cons_self
    exact ih (fun w' hw' => h w' (List.mem_cons_of_mem _ hw')) _

instance : AdmitsInvites Agreeing where
  update := by
    intro id filter data _
    constructor
    intro τ
    apply Invites.obeys_updateInvites
    · exact fun _ v => (still_nil v).tame.agreeing
    · trivial
    · exact fun _ _ => trivial
    · exact fun _ => trivial
    · exact fun v i _ _ => ⟨agreeing_putInvite v id _, trivial⟩
  create := by
    intro id row _ _
    constructor
    intro τ
    apply Invites.obeys_createInvite
    · exact fun _ v => (still_nil v).tame.agreeing
    · exact fun _ _ => trivial
    · exact fun v _ => ⟨agreeing_putInvite v id row, trivial⟩
  expire := by
    intro ids
    unfold Invites.expireInvites statement
    apply Routine.Keeps.exec admits_nil
    intro v a ws hf k hbefore
    simp only [Except.ok.injEq, Prod.mk.injEq] at hf
    rw [← hf.2, payments_of_putInvites]
    · exact hbefore
    · intro w hw
      obtain ⟨r, -, rfl⟩ := List.mem_map.mp hw
      exact ⟨r.1, _, rfl⟩

/-! ### The jobs -/

section Jobs

variable {P : Db → List Write → Prop} [AdmitsTame P]

namespace Invites

section Moves

variable [AdmitsMoves P]

instance (ids : List Id) : Routine.Keeps P (expireInvites ids) := AdmitsMoves.expire ids

instance (env : InviteEnvironment) (rawToken : Option String) :
    Routine.Keeps P (findByToken env rawToken) := by
  unfold findByToken
  have hretire (id : Id) : Routine.Keeps P (updateInvites id (fun i => i.status ∈ EXPIRABLE_STATUSES)
      (fun i => { i with status := .EXPIRED })) :=
    AdmitsMoves.update _ _ _ (fun _ => rfl) fun _ _ h => by simp [SLOT_HOLDING_STATUSES] at h
  refine .andThen fun tokenHash => .andThen fun found => .andThen fun (id, invite) => ?_
  infer_instance

instance (env : InviteEnvironment) (rawToken : Option String) :
    Routine.Keeps P (preview env rawToken) := by
  unfold preview
  infer_instance

instance (found : FoundInvite) (phoneMatched : Option Bool) (user : AuthUser) :
    Routine.Keeps P (claimTransaction found phoneMatched user) := by
  unfold claimTransaction
  have hclaim (now claimedAt : Int) : Routine.Keeps P (updateInvites found.id
      (fun i => i.tokenHash = found.tokenHash ∧ i.status = .PENDING ∧ now < i.expiresAt)
      (fun i => { i with
        status := .CLAIMED
        claimedByUserId := some user.userId
        claimedAt := some claimedAt
        claimantPhoneMatched := phoneMatched })) := by
    apply AdmitsMoves.update
    · exact fun _ => rfl
    · intro i hi _
      simp [(of_decide_eq_true hi).2.1, SLOT_HOLDING_STATUSES]
  infer_instance

instance (env : InviteEnvironment) (rawToken : Option String) (user : AuthUser) :
    Routine.Keeps P (claim env rawToken user) := by
  unfold claim
  infer_instance

instance (env : InviteEnvironment) (rawToken : Option String) (user : AuthUser)
    (reason : String) : Routine.Keeps P (dispute env rawToken user reason) := by
  unfold dispute
  have hdispute (id : Id) (now disputedAt : Int) : Routine.Keeps P (updateInvites id
      (fun i => i.status = .PENDING ∧ now < i.expiresAt)
      (fun i => { i with
        status := .DISPUTED, disputeReason := some reason, disputedAt := some disputedAt })) := by
    apply AdmitsMoves.update
    · exact fun _ => rfl
    · intro i hi _
      simp [(of_decide_eq_true hi).1, SLOT_HOLDING_STATUSES]
  refine .andThen fun found => .andThen fun now => .andThen fun disputedAt =>
    .andThen fun disputed => .andThen fun _ => .andThen fun _ => .andThen fun school => ?_
  cases school with
  | none => infer_instance
  | some school => infer_instance

instance (inviteId : Id) (actor : AuthUser) (reason : Option String) :
    Routine.Keeps P (revoke inviteId actor reason) := by
  unfold revoke
  have hrevoke (schoolId : Id) (now : Int) : Routine.Keeps P (updateInvites inviteId
      (fun i => i.schoolId = schoolId ∧ (i.status = .PENDING ∨ i.status = .DISPUTED))
      (fun i => { i with
        status := .REVOKED, revokedAt := some now, revokedByUserId := some actor.userId })) :=
    AdmitsMoves.update _ _ _ (fun _ => rfl) fun _ _ h => by simp [SLOT_HOLDING_STATUSES] at h
  infer_instance

instance (inviteId : Id) (actor : AuthUser) (reason : Option String) :
    Routine.Keeps P (release inviteId actor reason) := by
  unfold release
  have hrelease (schoolId : Id) (now : Int) : Routine.Keeps P (updateInvites inviteId
      (fun i => i.schoolId = schoolId ∧ i.status = .CLAIMED)
      (fun i => { i with
        status := .REVOKED, revokedAt := some now, revokedByUserId := some actor.userId })) :=
    AdmitsMoves.update _ _ _ (fun _ => rfl) fun _ _ h => by simp [SLOT_HOLDING_STATUSES] at h
  refine .andThen fun school => .andThen fun found => .andThen fun (invite, enrollment) =>
    .andThen fun (enrollmentId, row) => .andThen fun _ => ?_
  split
  · infer_instance
  · infer_instance

instance : Routine.Keeps P expireStale := by
  unfold expireStale
  infer_instance

end Moves

variable [AdmitsInvites P]

instance (env : InviteEnvironment) (dto : CreateEnrollmentInviteDto) (actor : AuthUser) :
    Routine.Keeps P (create env dto actor) := by
  unfold create
  have hrefused (error : Err) : Routine.Keeps P (match error with
      | .unique _ => throw (liveInviteExists dto.studentName dto.className)
      | error => throw error : Action Unit) := by
    cases error <;> infer_instance
  refine .andThen fun school => .andThen fun now => .andThen fun origin => .andThen fun _ => ?_
  dsimp only
  refine .andThen fun phoneNumber => .andThen fun parentPhoneHash => ?_
  split
  · exact ⟨fun _ => Routine.obeys_bind (Routine.obeys_throw.mpr trivial)⟩
  · refine .andThen fun _ => .andThen fun found => .andThen fun classFee => .andThen fun _ =>
      .andThen fun _ => .andThen fun token => .andThen fun id => ?_
    apply Routine.Keeps.before
    apply Routine.Keeps.tried
    exact AdmitsInvites.create _ _ rfl rfl

instance (env : InviteEnvironment) (inviteId : Id) (actor : AuthUser) :
    Routine.Keeps P (reissue env inviteId actor) := by
  unfold reissue
  have hreissue (schoolId : Id) (token : String) (expiresAt : Int) : Routine.Keeps P
      (updateInvites inviteId
        (fun i => i.schoolId = schoolId ∧ (i.status = .PENDING ∨ i.status = .EXPIRED))
        (fun i => { i with status := .PENDING, tokenHash := env.digest token, expiresAt })) :=
    AdmitsInvites.update _ _ _ fun _ => rfl
  infer_instance

end Invites

variable [AdmitsInvites P]

/-- Every job on invites keeps such a condition. -/
instance InviteJob.keeps [AdmitsAmounts P] (env : InviteEnvironment) (j : InviteJob) :
    Routine.Keeps P (j.action env) := by
  cases j <;> exact .map

instance Work.keeps [AdmitsAmounts P] (env : InviteEnvironment) (w : Work) :
    Routine.Keeps P (w.action env) := by
  cases w with
  | payments job => exact Job.keeps job
  | invites job => exact InviteJob.keeps env job

end Jobs

end Lopay
