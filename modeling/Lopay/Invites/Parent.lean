import Lopay.Invites.Internals

/-!
# What a link does, and the expiry sweep

Previewing, claiming and disputing an invite with its raw token, and the sweep that
retires the invites whose window has closed.
-/

namespace Lopay

open Transactions

namespace Invites

def preview (env : InviteEnvironment) (rawToken : Option String) : Action FoundInvite :=
  findByToken env rawToken

/-- What a unique violation that escapes the transaction of a claim becomes. -/
def claimConflict : Err → Err
  | .unique target =>
    if target = "EnrollmentInvite_migrated_student_key" then
      .badRequest ("This student has already been migrated onto Lopay. Ask your school to " ++
        "check their plan rather than sending another invite.")
    else .badRequest ("Something else changed this student’s records while you were " ++
      "confirming. Please try again.")
  | e => e

structure Claimed where
  enrollmentId : Id
  studentName : String
  className : String
  schoolName : String
  totalFee : ℚ
  amountAlreadyPaid : ℚ
  remainingBalance : ℚ
  paymentStatus : PaymentStatus
  planStartDate : Int

/-- The transaction of a claim: the invite first, then the plan behind it. -/
def claimTransaction (found : FoundInvite) (phoneMatched : Option Bool) (user : AuthUser) :
    Action Ledger.MigratedEnrollment :=
  tryCatch
    (transaction do
      let now ← ask .now
      let claimedAt ← ask .now
      let claimed ← updateInvites found.id
        (fun i => i.tokenHash = found.tokenHash ∧ i.status = .PENDING ∧ now < i.expiresAt)
        (fun i => { i with
          status := .CLAIMED
          claimedByUserId := some user.userId
          claimedAt := some claimedAt
          claimantPhoneMatched := phoneMatched })
      Routine.throwIf (claimed = 0) (.badRequest
        ("This invite is no longer available. It may have been claimed, cancelled or expired."))
      let parentId ← resolveParent user.userId
      let childId ← resolveChild parentId found.row
      Ledger.recordMigratedEnrollment found.id found.row childId user.userId
        ⟨user.userId, some user.role⟩)
    (fun error => throw (claimConflict error))

/-- Turn a confirmed invite into a real enrollment. -/
def claim (env : InviteEnvironment) (rawToken : Option String) (user : AuthUser) :
    Action Claimed := do
  let found ← findByToken env rawToken
  let invite := found.row
  let phoneMatched ← claimantPhoneMatches invite user.userId
  assertNotAlreadyMigrated invite.schoolId invite.studentName
  let school ← read fun db => (db.schools.lookup invite.schoolId).filter fun school =>
    school.deletedAt = none
  let school ← Routine.orThrow school (.badRequest
    "This school is no longer active on Lopay, so the invite cannot be claimed.")
  let result ← claimTransaction found phoneMatched user
  Ledger.announceMigratedEnrollment user.userId invite.schoolId school.name invite.studentName
    invite.className invite.amountAlreadyPaid result.figures.remainingBalance
  let claimant ← describeClaimant user.userId
  notifyUser (claimNotification school.ownerId invite claimant phoneMatched)
  let enrollment := result.enrollment
  pure
    { enrollmentId := result.enrollmentId
      studentName := invite.studentName
      className := invite.className
      schoolName := school.name
      totalFee := Money.toNaira enrollment.totalSchoolFee
      amountAlreadyPaid := Money.toNaira enrollment.firstPaymentPaid
      remainingBalance := Money.toNaira enrollment.remainingBalance
      paymentStatus := enrollment.paymentStatus
      planStartDate := enrollment.termStartDate }

/-- Contest the figures on an invite without claiming it. -/
def dispute (env : InviteEnvironment) (rawToken : Option String) (user : AuthUser)
    (reason : String) : Action Unit := do
  let found ← findByToken env rawToken
  let invite := found.row
  let now ← ask .now
  let disputedAt ← ask .now
  let disputed ← updateInvites found.id
    (fun i => i.status = .PENDING ∧ now < i.expiresAt)
    (fun i => { i with
      status := .DISPUTED, disputeReason := some reason, disputedAt := some disputedAt })
  Routine.throwIf (disputed = 0)
    (.badRequest "This invite is no longer awaiting your confirmation.")
  record
    { action := .ENROLLMENT_INVITE_DISPUTED
      entityType := "EnrollmentInvite"
      entityId := found.id
      actor := some ⟨user.userId, some user.role⟩
      schoolId := some invite.schoolId
      reason := some reason
      before := some [("status", .invite .PENDING)]
      after := some [("status", .invite .DISPUTED)]
      metadata := none }
  let school ← read fun db => db.schools.lookup invite.schoolId
  match school with
  | some school =>
    notifyUser
      { userId := school.ownerId
        title := "Parent disputed a migration invite"
        message := "A parent says the " ++ Money.formatNaira invite.amountAlreadyPaid ++
          " recorded for " ++ invite.studentName ++ " (" ++ invite.className ++
          ") is wrong. Their note: “" ++ reason ++ "”"
        type := .ALERT
        link := some "/school/invites" }
  | none => pure ()

/-! ### Upkeep -/

/-- The columns the sweep reads. -/
structure InviteSummary where
  id : Id
  schoolId : Id
  studentName : String
  className : String

def MAX_NAMED_STUDENTS : Nat := 3

/-- Name the students, up to a point. -/
def describeStudents (students : List InviteSummary) : String :=
  let named := (students.take MAX_NAMED_STUDENTS).map fun s =>
    s.studentName ++ " (" ++ s.className ++ ")"
  let remaining := students.length - named.length
  if 0 < remaining then
    ", ".intercalate named ++ " and " ++ Nat.repr remaining ++ " other" ++
      (if remaining = 1 then "" else "s")
  else if named.length = 1 then named.headD ""
  else ", ".intercalate named.dropLast ++ " and " ++ named.getLastD ""

/-- Notify the owner of each school once about its invites. -/
def notifySchools (invites : List InviteSummary)
    (notification : List InviteSummary → Id → Notification) : Action Unit := do
  let ids := (invites.map (·.schoolId)).dedup
  let found ← read fun db => ids.filterMap fun id => (db.schools.lookup id).bind fun school =>
    if school.deletedAt = none then some (id, school.ownerId) else none
  let order ← ask (.rowOrder found.length)
  let _ ← (arrange found order).mapM fun (id, ownerId) =>
    notifyUser (notification (invites.filter fun invite => invite.schoolId = id) ownerId)
  pure ()

/-- The invites whose window has closed. -/
def dueInvites (now : Int) (db : Db) : List InviteSummary :=
  (db.invites.rows.filter fun r =>
    r.2.status ∈ EXPIRABLE_STATUSES ∧ r.2.expiresAt ≤ now).map fun r =>
      ⟨r.1, r.2.schoolId, r.2.studentName, r.2.className⟩

/-- `updateMany` to EXPIRED by id alone: the number of rows. -/
def expireInvites (ids : List Id) : Action Nat :=
  statement fun db =>
    let rows := db.invites.rows.filter fun r => r.1 ∈ ids
    .ok (rows.length, rows.map fun r => .putInvite r.1 { r.2 with status := .EXPIRED })

/-- Retire the invites whose window has closed, and tell the schools. -/
def expireStale : Action Nat := do
  let now ← ask .now
  let found ← read (dueInvites now)
  let order ← ask (.rowOrder found.length)
  let due := arrange found order
  if due.length = 0 then pure 0
  else do
    let count ← expireInvites (due.map (·.id))
    notifySchools due fun students ownerId =>
      { userId := ownerId
        title := "Migration invites expired unclaimed"
        message := describeStudents students ++ " did not confirm before the link expired, so " ++
          "nothing has been added to their account. Open the invite and send a new link."
        type := .ALERT
        link := some "/school/invites" }
    pure count

end Invites

end Lopay
