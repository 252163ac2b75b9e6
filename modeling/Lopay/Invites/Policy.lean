import Lopay.Schema

/-!
# The rules an enrollment invite obeys

`invite-policy.ts`, `invite-token.ts` and the due date of an instalment, on which the end
of a plan rests. Calendar arithmetic is that of UTC. What depends on keys and libraries
(the digest of a token, the canonical form of a phone number and its blind index) and the
configured origin of the web app are parameters.
-/

namespace Lopay

/-- What deployment and libraries decide. -/
structure InviteEnvironment where
  webAppOrigin : Option String
  canonicalizePhone : String → Option String
  phoneBlindIndex : String → Option String
  digest : String → String

namespace Invites

def DEFAULT_INVITE_EXPIRY_DAYS : Int := 14

def MIN_INVITE_EXPIRY_DAYS : Int := 1

def MAX_INVITE_EXPIRY_DAYS : Int := 30

def DAY_MS : Int := 24 * 60 * 60 * 1000

def isMigrationWindowOpen (deadline now : Int) : Bool := now < deadline

/-- Statuses an expiry sweep may retire. -/
def EXPIRABLE_STATUSES : List EnrollmentInviteStatus := [.PENDING, .DISPUTED]

/-- Clamp a requested lifetime into the allowed window. -/
def resolveExpiryDays (requested : Option Int) : Int :=
  match requested with
  | none => DEFAULT_INVITE_EXPIRY_DAYS
  | some days =>
    if days < MIN_INVITE_EXPIRY_DAYS then MIN_INVITE_EXPIRY_DAYS
    else if MAX_INVITE_EXPIRY_DAYS < days then MAX_INVITE_EXPIRY_DAYS
    else days

def expiryFrom (now : Int) (requestedDays : Option Int) : Int :=
  now + resolveExpiryDays requestedDays * DAY_MS

/-- Past its window, and in a status that expiry can touch. -/
def hasExpired (invite : EnrollmentInvite) (now : Int) : Bool :=
  invite.status ∈ EXPIRABLE_STATUSES ∧ invite.expiresAt ≤ now

/-! ### The plan's dates -/

def MAX_PLAN_START_BACKDATE_MS : Int := 36 * 60 * 60 * 1000

def MAX_PLAN_START_FUTURE_DAYS : Int := 365

def WEEKLY_INSTALLMENTS : Int := 12

def MONTHLY_INSTALLMENTS : Int := 3

def installmentCountFor : InstallmentFrequency → Int
  | .WEEKLY => WEEKLY_INSTALLMENTS
  | .MONTHLY => MONTHLY_INSTALLMENTS

/-- Days since the epoch of a date, years beginning in March. -/
def daysFromCivil (year month day : Int) : Int :=
  let y := if month ≤ 2 then year - 1 else year
  let era := y / 400
  let yearOfEra := y % 400
  let dayOfYear := (153 * ((month + 9) % 12) + 2) / 5 + day - 1
  era * 146097 + yearOfEra * 365 + yearOfEra / 4 - yearOfEra / 100 + dayOfYear - 719468

/-- The year, month and day of a number of days since the epoch. -/
def civilFromDays (days : Int) : Int × Int × Int :=
  let z := days + 719468
  let dayOfEra := z % 146097
  let yearOfEra := (dayOfEra - dayOfEra / 1460 + dayOfEra / 36524 - dayOfEra / 146096) / 365
  let dayOfYear := dayOfEra - (365 * yearOfEra + yearOfEra / 4 - yearOfEra / 100)
  let mp := (5 * dayOfYear + 2) / 153
  let month := if mp < 10 then mp + 3 else mp - 9
  let year := yearOfEra + z / 146097 * 400
  (if month ≤ 2 then year + 1 else year, month, dayOfYear - (153 * mp + 2) / 5 + 1)

/-- The due date of the `n`-th instalment; a month that is too short ends it. -/
def installmentDueDate (termStartDate : Int) (frequency : InstallmentFrequency) (n : Int) : Int :=
  match frequency with
  | .WEEKLY => termStartDate + 7 * n * DAY_MS
  | .MONTHLY =>
    let (year, month, day) := civilFromDays (termStartDate / DAY_MS)
    let months := month - 1 + n
    let first := daysFromCivil (year + months / 12) (months % 12 + 1) 1
    let next := daysFromCivil (year + (months + 1) / 12) ((months + 1) % 12 + 1) 1
    (first + min day (next - first) - 1) * DAY_MS + termStartDate % DAY_MS

/-- When a plan that starts on `planStartDate` finishes. -/
def derivePlanEnd (planStartDate : Int) (installmentFrequency : InstallmentFrequency) : Int :=
  installmentDueDate planStartDate installmentFrequency (installmentCountFor installmentFrequency)

-- 31 January and three months: 30 April.
example : derivePlanEnd (daysFromCivil 2026 1 31 * DAY_MS) .MONTHLY =
    daysFromCivil 2026 4 30 * DAY_MS := by decide

/-- What is wrong with the date the school chose, if anything. -/
def validatePlanStart (planStartDate now : Int) : Option String :=
  if planStartDate < now - MAX_PLAN_START_BACKDATE_MS then
    some ("The plan start date cannot be in the past. Use the date the parent moves " ++
      "onto Lopay, not the date the term began — back-dating it would show them " ++
      "as already behind on payments.")
  else if now + MAX_PLAN_START_FUTURE_DAYS * DAY_MS < planStartDate then
    some "The plan start date cannot be more than 365 days from now"
  else none

/-! ### Tokens -/

def INVITE_TOKEN_LENGTH : Nat := 43

/-- `^[A-Za-z0-9_-]{43}$` -/
def hasTokenShape (raw : String) : Bool :=
  raw.length = INVITE_TOKEN_LENGTH ∧ raw.toList.all fun c => c.isAlphanum || c = '_' || c = '-'

/-- The digest of a token, unless it is not one; a value that is no string is `none`. -/
def hashInviteToken (env : InviteEnvironment) (raw : Option String) : Option String :=
  match raw with
  | some raw => if hasTokenShape raw then some (env.digest raw) else none
  | none => none

def buildClaimUrl (origin rawToken : String) : String :=
  origin ++ "/#/claim-invite?token=" ++ rawToken

end Invites

end Lopay
