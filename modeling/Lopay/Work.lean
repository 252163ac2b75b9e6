import Lopay.Books.Jobs
import Lopay.Invites.Parent
import Lopay.Invites.School
import Lopay.Transactions.Local

/-!
# Payments and invites together

An `InviteJob` is one call of a method of `EnrollmentInvitesService`, and `Work` is
everything that runs beside everything else: a job on the ledger or one on an invite.
-/

namespace Lopay

open Transactions

inductive InviteJob where
  | create (dto : CreateEnrollmentInviteDto) (actor : AuthUser)
  | preview (rawToken : Option String)
  | claim (rawToken : Option String) (user : AuthUser)
  | dispute (rawToken : Option String) (user : AuthUser) (reason : String)
  | revoke (inviteId : Id) (actor : AuthUser) (reason : Option String)
  | reissue (inviteId : Id) (actor : AuthUser)
  | amend (inviteId : Id) (amountAlreadyPaid : ℚ) (reason : Option String) (actor : AuthUser)
  | release (inviteId : Id) (actor : AuthUser) (reason : Option String)
  | expireStale

def InviteJob.action (env : InviteEnvironment) : InviteJob → Action Reply
  | create dto actor => (fun _ => .done) <$> Invites.create env dto actor
  | preview rawToken => (fun _ => .done) <$> Invites.preview env rawToken
  | claim rawToken user => (fun _ => .done) <$> Invites.claim env rawToken user
  | dispute rawToken user reason => (fun _ => .done) <$> Invites.dispute env rawToken user reason
  | revoke inviteId actor reason => (fun _ => .done) <$> Invites.revoke inviteId actor reason
  | reissue inviteId actor => (fun _ => .done) <$> Invites.reissue env inviteId actor
  | amend inviteId amountAlreadyPaid reason actor =>
    (fun _ => .done) <$> Invites.amend inviteId amountAlreadyPaid reason actor
  | release inviteId actor reason => (fun _ => .done) <$> Invites.release inviteId actor reason
  | expireStale => (fun _ => .done) <$> Invites.expireStale

/-- The raw token that a call was made with, if it is one that takes a link. -/
def InviteJob.link? : InviteJob → Option (Option String)
  | preview rawToken | claim rawToken _ | dispute rawToken _ _ => some rawToken
  | create _ _ | revoke _ _ _ | reissue _ _ | amend _ _ _ _ | release _ _ _ | expireStale => none

inductive Work where
  | payments (job : Job)
  | invites (job : InviteJob)

namespace Work

variable (env : InviteEnvironment)

def action : Work → Action Reply
  | payments job => job.action
  | invites job => job.action env

def program (w : Work) : Prog Db Write Answer (Except Err Reply) := (w.action env).run

end Work

/-- The committed database and everything that has been started. -/
abbrev Office := Sys Work Db Write Answer (Except Err Reply)

/-- The environment of the examples. -/
def inviteEnvironment : InviteEnvironment where
  webAppOrigin := some "https://lopay.app"
  canonicalizePhone := some
  phoneBlindIndex := some
  digest := id

/-- A link of 43 characters. -/
def firstLink : String := String.ofList (List.replicate 43 'A')

/-- The school has invited the family; the window closes at 0. -/
def invitation : EnrollmentInvite where
  schoolId := "school"
  createdByUserId := "owner"
  studentName := "Ada"
  className := "JSS1"
  totalSchoolFee := 10000000
  amountAlreadyPaid := 4000000
  phoneNumber := "081"
  parentPhoneHash := "081"
  installmentFrequency := .MONTHLY
  planStartDate := 0
  termEndDate := 100
  tokenHash := firstLink
  expiresAt := 0
  status := .PENDING
  disputeReason := none
  disputedAt := none
  revokedAt := none
  revokedByUserId := none
  claimedByUserId := none
  claimedAt := none
  claimantPhoneMatched := none

def invitedFamily : Db := { oneFamily with invites := [⟨"invite", invitation⟩].toAList }

def schoolOwner : AuthUser := ⟨"owner", .SCHOOL_OWNER, some "school"⟩

/-- Process `pid` runs `w` for `n` steps with nobody in between. -/
def working (pid : Nat) (w : Work) (seed : String) (n : Nat) : List (Event Work Answer) :=
  .spawn w :: (List.range n).map fun i => .move pid (smoothly seed i)

end Lopay
