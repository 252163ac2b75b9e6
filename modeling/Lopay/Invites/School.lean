import Lopay.Invites.Internals

/-!
# What a school does with its invites

Creating, revoking and re-issuing an invite, correcting the plan behind it, and releasing
a claim that reached the wrong person.
-/

namespace Lopay

open Transactions

structure CreateEnrollmentInviteDto where
  studentName : String
  className : String
  amountAlreadyPaid : ℚ
  parentPhone : String
  installmentFrequency : InstallmentFrequency
  planStartDate : Int
  expiresInDays : Option Int

namespace Invites

structure IssuedLink where
  id : Id
  invite : EnrollmentInvite
  share : Share

def windowClosed : Err := .badRequest (
  "Your migration window has closed, so new invites cannot be issued. " ++
  "Migration is a one-time, free onboarding step for families who had " ++
  "already paid you before joining Lopay — enrol new students normally " ++
  "from here. If you still have families to migrate, contact Lopay to " ++
  "have the window extended.")

def liveInviteExists (studentName className : String) : Err := .badRequest (
  "There is already a live invite for " ++ studentName ++ " in " ++ className ++
  ". Cancel it before issuing another.")

/-- Issue an invite for one student. -/
def create (env : InviteEnvironment) (dto : CreateEnrollmentInviteDto) (actor : AuthUser) :
    Action IssuedLink := do
  let school ← assertOwnsSchool actor
  let now ← ask .now
  let origin ← webAppOrigin env
  Routine.throwIf (isMigrationWindowOpen school.migrationDeadline now = false) windowClosed
  let invalidPhone := Err.badRequest "Enter a valid Nigerian phone number, e.g. 08012345678"
  let phoneNumber ← Routine.orThrow (given (env.canonicalizePhone dto.parentPhone)) invalidPhone
  let parentPhoneHash ← Routine.orThrow (given (env.phoneBlindIndex dto.parentPhone)) invalidPhone
  match validatePlanStart dto.planStartDate now with
  | some startError => throw (.badRequest startError)
  | none => pure ()
  let termEndDate := derivePlanEnd dto.planStartDate dto.installmentFrequency
  assertNotAlreadyMigrated school.id dto.studentName
  let found ← findFirst fun db => (db.classFees.rows.map (·.2)).filter fun fee =>
    fee.schoolId = school.id ∧ fee.className = dto.className ∧ fee.isActive
  let classFee ← Routine.orThrow found (.badRequest ("No active fee is published for \"" ++
    dto.className ++ "\". Set the class fee first, then create the invite."))
  let totalSchoolFee := classFee.feeAmount
  let amountAlreadyPaid := Money.fromNaira dto.amountAlreadyPaid
  Routine.throwIf (totalSchoolFee < amountAlreadyPaid)
    (.badRequest ("Amount already paid cannot exceed the " ++ dto.className ++ " fee of " ++
      Money.formatNaira totalSchoolFee))
  assertNoLiveInvite school.id dto.studentName dto.className
  let token ← ask .randomToken
  let expiresAt := expiryFrom now dto.expiresInDays
  let id ← ask .randomUUID
  let invite : EnrollmentInvite :=
    { schoolId := school.id
      createdByUserId := actor.userId
      studentName := dto.studentName
      className := dto.className
      totalSchoolFee
      amountAlreadyPaid
      phoneNumber
      parentPhoneHash
      installmentFrequency := dto.installmentFrequency
      planStartDate := dto.planStartDate
      termEndDate
      tokenHash := env.digest token
      expiresAt
      status := .PENDING
      disputeReason := none
      disputedAt := none
      revokedAt := none
      revokedByUserId := none
      claimedByUserId := none
      claimedAt := none
      claimantPhoneMatched := none }
  tryCatch (createInvite id invite)
    (fun error => match error with
      | .unique _ => throw (liveInviteExists dto.studentName dto.className)
      | error => throw error)
  record
    { action := .ENROLLMENT_INVITE_CREATED
      entityType := "EnrollmentInvite"
      entityId := id
      actor := some ⟨actor.userId, some actor.role⟩
      schoolId := some school.id
      reason := none
      before := none
      after := none
      metadata := some
        [("studentName", .str invite.studentName),
         ("className", .str invite.className),
         ("totalSchoolFee", .num totalSchoolFee),
         ("amountAlreadyPaid", .num amountAlreadyPaid),
         ("expiresAt", .num expiresAt)] }
  pure { id, invite, share := buildShare origin token invite }

/-- The invite, if it is this school's. -/
def inviteOfSchool (inviteId schoolId : Id) (db : Db) : Option EnrollmentInvite :=
  (db.invites.lookup inviteId).filter fun invite => invite.schoolId = schoolId

def statusName : EnrollmentInviteStatus → String
  | .PENDING => "pending"
  | .CLAIMED => "claimed"
  | .DISPUTED => "disputed"
  | .REVOKED => "revoked"
  | .EXPIRED => "expired"

def cannotCancel (status : EnrollmentInviteStatus) : Err := .badRequest (
  if status = .CLAIMED then "This invite has already been claimed. Correct the amount on the " ++
    "plan instead of cancelling the invite."
  else "This invite is " ++ statusName status ++ " and cannot be cancelled.")

/-- Cancel a live invite. -/
def revoke (inviteId : Id) (actor : AuthUser) (reason : Option String) : Action Unit := do
  let school ← assertOwnsSchool actor
  let found ← read (inviteOfSchool inviteId school.id)
  let invite ← Routine.orThrow found (.notFound "Invite not found")
  let now ← ask .now
  let revoked ← updateInvites inviteId
    (fun i => i.schoolId = school.id ∧ (i.status = .PENDING ∨ i.status = .DISPUTED))
    (fun i => { i with
      status := .REVOKED, revokedAt := some now, revokedByUserId := some actor.userId })
  Routine.throwIf (revoked = 0) (cannotCancel invite.status)
  record
    { action := .ENROLLMENT_INVITE_REVOKED
      entityType := "EnrollmentInvite"
      entityId := inviteId
      actor := some ⟨actor.userId, some actor.role⟩
      schoolId := some school.id
      reason := reason
      before := some [("status", .invite invite.status)]
      after := some [("status", .invite .REVOKED)]
      metadata := none }

/-- Why a re-issue was refused, by the status that refused it. -/
def REISSUE_REFUSALS : EnrollmentInviteStatus → String
  | .CLAIMED => "This invite has already been claimed, so a new link would do nothing. " ++
      "To correct the amount use \"Correct amount\"; if the wrong person claimed it, remove " ++
      "the claim."
  | .DISPUTED => "This parent says the recorded amount is wrong. Sending the same link again " ++
      "will not resolve it — cancel this invite and issue a corrected one."
  | .REVOKED => "This invite was cancelled, so re-sending it would restore whatever was wrong " ++
      "with it. Create a new invite for this student instead."
  | .PENDING | .EXPIRED =>
    "This invite was just changed by someone else — reload and try again."

/-- Mint a fresh link for an invite whose own link is gone. -/
def reissue (env : InviteEnvironment) (inviteId : Id) (actor : AuthUser) : Action IssuedLink := do
  let school ← assertOwnsSchool actor
  let now ← ask .now
  let origin ← webAppOrigin env
  Routine.throwIf (isMigrationWindowOpen school.migrationDeadline now = false)
    (.badRequest ("Your migration window has closed, so new invite links cannot be issued. " ++
      "Contact Lopay if you still have families to migrate."))
  let found ← read (inviteOfSchool inviteId school.id)
  let invite ← Routine.orThrow found (.notFound "Invite not found")
  let token ← ask .randomToken
  let expiresAt := expiryFrom now none
  let reissued ← updateInvites inviteId
    (fun i => i.schoolId = school.id ∧ (i.status = .PENDING ∨ i.status = .EXPIRED))
    (fun i => { i with status := .PENDING, tokenHash := env.digest token, expiresAt })
  Routine.throwIf (reissued = 0) (.badRequest (REISSUE_REFUSALS invite.status))
  record
    { action := .ENROLLMENT_INVITE_CREATED
      entityType := "EnrollmentInvite"
      entityId := inviteId
      actor := some ⟨actor.userId, some actor.role⟩
      schoolId := some school.id
      reason := none
      before := some [("status", .invite invite.status), ("expiresAt", .num invite.expiresAt)]
      after := some [("status", .invite .PENDING), ("expiresAt", .num expiresAt)]
      metadata := some
        [("reissuedFrom", .invite invite.status),
         ("studentName", .str invite.studentName),
         ("className", .str invite.className)] }
  let renewed := { invite with expiresAt }
  pure { id := inviteId, invite := renewed, share := buildShare origin token renewed }

/-- An invite of the school with the enrollment that came from it. -/
def inviteWithEnrollment (inviteId schoolId : Id) (db : Db) :
    Option (EnrollmentInvite × Option (Id × ChildEnrollment)) :=
  (inviteOfSchool inviteId schoolId db).map fun invite => (invite, db.invited inviteId)

/-- Correct the already-paid figure on a plan that came from an invite. -/
def amend (inviteId : Id) (amountAlreadyPaid : ℚ) (reason : Option String) (actor : AuthUser) :
    Action Ledger.Amended := do
  let school ← assertOwnsSchool actor
  let found ← read (inviteWithEnrollment inviteId school.id)
  let (_, enrollment) ← Routine.orThrow found (.notFound "Invite not found")
  let (enrollmentId, _) ← Routine.orThrow enrollment (.badRequest
    ("This invite has not been claimed yet, so there is no plan to correct. Cancel it and " ++
      "issue a new one."))
  Ledger.amendMigratedPayment enrollmentId (Money.fromNaira amountAlreadyPaid) school.id
    ⟨actor.userId, some actor.role⟩ reason

def noPlanToRemove (status : EnrollmentInviteStatus) : Err := .badRequest (
  if status = .CLAIMED then "This invite has no plan behind it, so there is nothing to remove."
  else "This invite has not been claimed, so there is no plan to remove. Cancel it instead.")

/-- Remove a plan that the wrong person claimed, and free the student to be re-invited. -/
def release (inviteId : Id) (actor : AuthUser) (reason : Option String) : Action Unit := do
  let school ← assertOwnsSchool actor
  let found ← read (inviteWithEnrollment inviteId school.id)
  let (invite, enrollment) ← Routine.orThrow found (.notFound "Invite not found")
  let (enrollmentId, row) ← Routine.orThrow enrollment (noPlanToRemove invite.status)
  let claimantUserId := given invite.claimedByUserId
  transaction do
    let now ← ask .now
    let released ← updateInvites inviteId
      (fun i => i.schoolId = school.id ∧ i.status = .CLAIMED)
      (fun i => { i with
        status := .REVOKED, revokedAt := some now, revokedByUserId := some actor.userId })
    Routine.throwIf (released = 0)
      (.badRequest "This invite was already changed by someone else — reload and try again.")
    let _ ← Ledger.releaseMigratedEnrollment enrollmentId row.childId inviteId school.id
      ⟨actor.userId, some actor.role⟩ reason
  match claimantUserId with
  | some userId =>
    notifyUser
      { userId
        title := "A payment plan was removed"
        message := invite.studentName ++ "'s school has removed the " ++ invite.className ++
          " plan that was added to your account. " ++
          (match given reason with
            | some text => "Their reason: “" ++ text ++ "”. "
            | none => "This usually means the invite link reached the wrong person. ") ++
          "If you believe this is a mistake, contact the school."
        type := .ALERT
        link := some "/dashboard" }
  | none => pure ()
  emitChanges
    { parentUserId := invite.claimedByUserId, schoolId := some school.id, notifyAdmins := true }

end Invites

end Lopay
