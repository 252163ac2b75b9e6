import Lopay.Enrollment.Installment
import Lopay.Invites.Policy
import Lopay.Ledger.Migrated

/-!
# The private parts of `EnrollmentInvitesService`

Who may act on an invite, which invite a link belongs to, and the parent and child rows
that a claim builds on. Everything sent to a user is best effort.
-/

namespace Lopay

open Transactions

namespace Invites

def INVITE_UNAVAILABLE : String :=
  "This invite link is not valid. It may have expired or already been used — ask your " ++
    "school to send a new one."

structure OwnedSchool where
  id : Id
  migrationDeadline : Int

/-- The school this actor may act on, proven against the database. -/
def assertOwnsSchool (actor : AuthUser) : Action OwnedSchool := do
  let schoolId ← Routine.orThrow (given actor.schoolId)
    (.forbidden "Only a school owner can manage enrollment invites")
  Routine.throwIf (actor.role ≠ .SCHOOL_OWNER)
    (.forbidden "Only a school owner can manage enrollment invites")
  let found ← read fun db => (db.schools.lookup schoolId).filter fun school =>
    school.ownerId = actor.userId ∧ school.deletedAt = none
  let school ← Routine.orThrow found
    (.forbidden "You can only manage enrollment invites for your own school")
  pure { id := schoolId, migrationDeadline := school.migrationDeadline }

def webAppOrigin (env : InviteEnvironment) : Action String :=
  Routine.orThrow env.webAppOrigin (.internal
    "WEB_APP_URL (or a usable CORS_ORIGINS entry) must be set to build an invite link")

/-- Refuse a second live invite for the same student; case does not matter. -/
def assertNoLiveInvite (schoolId : Id) (studentName className : String) : Action Unit := do
  let existing ← findFirst fun db => (db.invites.rows.map (·.2)).filter fun invite =>
    invite.schoolId = schoolId ∧ lower invite.studentName = lower studentName ∧
      lower invite.className = lower className ∧ invite.status ∈ SLOT_HOLDING_STATUSES
  match existing with
  | none => pure ()
  | some existing => throw (.badRequest
      (if existing.status = .CLAIMED then studentName ++ " (" ++ className ++
          ") has already been migrated and has a Lopay plan."
        else "There is already a live invite for " ++ studentName ++ " in " ++ className ++
          ". Cancel it before issuing another."))

/-- Refuse a student who has been migrated once, whatever the class. -/
def assertNotAlreadyMigrated (schoolId : Id) (studentName : String) : Action Unit := do
  let migrated ← findFirst fun db => (db.invites.rows.map (·.2)).filter fun invite =>
    invite.schoolId = schoolId ∧ lower invite.studentName = lower studentName ∧
      invite.status = .CLAIMED
  match migrated with
  | none => pure ()
  | some migrated => throw (.badRequest (studentName ++
      " has already been migrated onto Lopay (in " ++ migrated.className ++ "), " ++
      "and migration is a one-time step per student. Enrol them normally for this term."))

/-- The invite with this digest; the column is unique. -/
def inviteByToken (tokenHash : String) (db : Db) : Option (Id × EnrollmentInvite) :=
  db.invites.rows.find? fun r => r.2.tokenHash = tokenHash

structure FoundInvite where
  id : Id
  row : EnrollmentInvite
  tokenHash : String

/-- Resolve a raw token to its invite. One that has expired is retired on the way; a
    failure to do so is swallowed. -/
def findByToken (env : InviteEnvironment) (rawToken : Option String) : Action FoundInvite := do
  let tokenHash ← Routine.orThrow (hashInviteToken env rawToken) (.notFound INVITE_UNAVAILABLE)
  let found ← read (inviteByToken tokenHash)
  let (id, invite) ← Routine.orThrow found (.notFound INVITE_UNAVAILABLE)
  let now ← ask .now
  if hasExpired invite now then do
    tryCatch
      (do
        let _ ← updateInvites id (fun i => i.status ∈ EXPIRABLE_STATUSES)
          (fun i => { i with status := .EXPIRED }))
      (fun _ => pure ())
    pure { id, row := { invite with status := .EXPIRED }, tokenHash }
  else pure { id, row := invite, tokenHash }

/-- Whether the claimant's number is the one the invite was addressed to; `none` if there
    is nothing to compare. -/
def claimantPhoneMatches (invite : EnrollmentInvite) (userId : Id) : Action (Option Bool) := do
  let account ← read fun db => db.users.lookup userId
  pure ((account.bind fun user => given user.phoneHash).map fun hash =>
    hash = invite.parentPhoneHash)

/-- The key of the claimant's parent row, created if there is none. -/
def resolveParent (userId : Id) : Action Id := do
  let account ← findOrThrow fun db => db.users.lookup userId
  let id ← ask .randomUUID
  createParentIfNew id { userId, phoneNumber := account.phoneNumber.getD "" }
  let (id, _) ← findOrThrow fun db => db.parents.rows.find? fun r => r.2.userId = userId
  pure id

/-- The key of the invited child, created if there is none. -/
def resolveChild (parentId : Id) (invite : EnrollmentInvite) : Action Id := do
  let identity : Child :=
    { parentId, fullName := invite.studentName, className := invite.className }
  let id ← ask .randomUUID
  createChildIfNew id identity
  let (id, _) ← findOrThrow fun db => db.children.rows.find? fun r => r.2 = identity
  pure id

def trimmed (text : Option String) : Option String := given (text.map fun t => t.trimAscii.toString)

/-- How a claimant is described to the school: a name and the end of a number. -/
def describeClaimant (userId : Id) : Action String :=
  tryCatch
    (do
      let account ← read fun db => db.users.lookup userId
      match account with
      | none => pure "someone"
      | some account =>
        let name := ((trimmed account.fullName).or (trimmed account.name)).getD "someone"
        let digits := (account.phoneNumber.getD "").toList.filter Char.isDigit
        pure (if 3 ≤ digits.length then
            name ++ " (•••" ++ String.ofList (digits.drop (digits.length - 3)) ++ ")"
          else name))
    (fun _ => pure "someone")

/-- A notification whose failure undoes nothing. -/
def notifyUser (n : Notification) : Action Unit :=
  tryCatch (createNotification n) (fun _ => pure ())

/-- What the school is told when an invite is claimed. -/
def claimNotification (ownerId : Id) (invite : EnrollmentInvite) (claimant : String)
    (phoneMatched : Option Bool) : Notification :=
  let who := invite.studentName ++ " (" ++ invite.className ++ ")"
  match phoneMatched with
  | some true =>
    { userId := ownerId
      title := "Migration invite claimed"
      message := who ++ " was claimed by " ++ claimant ++ " and now has an active Lopay plan."
      type := .PAYMENT
      link := some "/school-owner-dashboard" }
  | some false =>
    { userId := ownerId
      title := "Migration invite claimed — check this one"
      message := who ++ " was claimed by " ++ claimant ++
        ", whose phone number is NOT the one you addressed the invite to. " ++
        "If this is not the right parent, open the invite and remove the claim."
      type := .ALERT
      link := some "/school/invites" }
  | none =>
    { userId := ownerId
      title := "Migration invite claimed"
      message := who ++ " was claimed by " ++ claimant ++ " and now has an active Lopay plan. " ++
        "They signed in with Google, so there was no phone number on their account to check " ++
        "against the one you addressed the invite to. If this is not the right parent, open " ++
        "the invite and remove the claim."
      type := .PAYMENT
      link := some "/school-owner-dashboard" }

/-- The link, and a message to go with it. -/
structure Share where
  claimUrl : String
  message : String
  expiresAt : Int

def buildShare (origin rawToken : String) (invite : EnrollmentInvite) : Share :=
  let claimUrl := buildClaimUrl origin rawToken
  { claimUrl
    message := "Hello! " ++ invite.studentName ++ "'s school has set up a Lopay account for " ++
      "your remaining " ++ invite.className ++ " fees, including what you have already paid. " ++
      "Open this link to check the details and confirm: " ++ claimUrl
    expiresAt := invite.expiresAt }

end Invites

end Lopay
