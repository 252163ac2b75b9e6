import Lopay.Users.Index

/-!
# Accounts, and what removes them

An account occupies two identities, its address and the hash of its number, and a unique constraint
stands over each. `UsersService.update` and `remove`, the onboarding of a school with its owner and
`SchoolsService.deleteSchool` write them beside the two hooks and the profile edit.
-/

namespace Lopay.Users

open Transactions Text

/-! ### The tables -/

structure School where
  ownerId : String
  isDeleted : Bool
deriving DecidableEq, Repr

/-- No two rows under one address. -/
def Apart (emails : Table String String) : Prop :=
  ∀ id id' email, emails.lookup id = some email → emails.lookup id' = some email → id = id'

/-- The users with their addresses, and the schools with their owners. -/
structure Accounts where
  directory : Directory
  emails : Table String String
  schools : Table String School
  apart : Apart emails

def Accounts.row (accounts : Accounts) (id : String) : Option User :=
  accounts.directory.users.lookup id

theorem Apart.insert {emails : Table String String} (h : Apart emails) {id email : String}
    (hfree : ∀ row ∈ emails.rows, row.2 = email → row.1 = id) : Apart (emails.insert id email) := by
  intro one other address hone hother
  rcases Table.lookup_insert_some hone with ⟨rfl, rfl⟩ | ⟨hone, holdOne⟩
  · rcases Table.lookup_insert_some hother with ⟨rfl, -⟩ | ⟨-, holdOther⟩
    · rfl
    · exact (hfree (other, _) (Table.mem_rows.2 holdOther) rfl).symm
  · rcases Table.lookup_insert_some hother with ⟨rfl, rfl⟩ | ⟨-, holdOther⟩
    · exact hfree (one, _) (Table.mem_rows.2 holdOne) rfl
    · exact h one other address holdOne holdOther

/-- Write the address of a row along with the row, unless its unique index forbids it. -/
def Accounts.address (accounts : Accounts) (directory : Directory) (id email : String) :
    Except Failure Accounts :=
  if h : ∀ row ∈ accounts.emails.rows, row.2 = email → row.1 = id then
    .ok { accounts with
      directory := directory
      emails := accounts.emails.insert id email
      apart := accounts.apart.insert h }
  else .error .uniqueConstraint

/-! ### The entry points -/

structure UpdateUserDto where
  fullName : Submitted
  email : Submitted
deriving DecidableEq, Repr

/-- How an operation is refused; onboarding wraps what refuses the owner. -/
inductive Refusal where
  | failure (failure : Failure)
  | ownerExists
  | ownerNotCreated (reason : Failure)
deriving DecidableEq, Repr

def anonymizedEmail (id : String) : String := s!"deleted+{id}@deleted.lopay"

section Entry

variable (unicode : Unicode) (hmac : String → String)

/-- Sign-up, with the address the row is to carry. -/
def Accounts.signUp (accounts : Accounts) (id email : String) (user : Submission) :
    Except Failure Accounts := do
  let directory ← createUser unicode hmac accounts.directory id user
  accounts.address directory id email

def Accounts.updateUser (accounts : Accounts) (id : String) (user : Submission) :
    Except Failure Accounts := do
  let directory ← Users.updateUser unicode hmac accounts.directory id user
  .ok { accounts with directory := directory }

def Accounts.updateProfile (accounts : Accounts) (id : String) (dto : UpdateProfileDto) :
    Except Failure Accounts := do
  let directory ← Users.updateProfile unicode hmac accounts.directory id dto
  .ok { accounts with directory := directory }

def Accounts.findOne (accounts : Accounts) (id : String) : Except Failure User :=
  match accounts.row id with
  | some user =>
      if user.isDeleted then .error (.notFound s!"User with ID {id} not found") else .ok user
  | none => .error (.notFound s!"User with ID {id} not found")

/-- The administrator's edit. -/
def Accounts.update (accounts : Accounts) (id : String) (dto : UpdateUserDto) :
    Except Failure Accounts := do
  let user ← accounts.findOne id
  let directory ← accounts.directory.save id
    { user with fullName := dto.fullName.written user.fullName }
  match dto.email with
  | .absent => .ok { accounts with directory := directory }
  | .null => .error .typeError
  | .text email => accounts.address directory id email

/-- The update both deletions make: the mark, and an address nobody wants. The columns of the
    number stay as they are. -/
def Accounts.anonymize (accounts : Accounts) (id : String) : Except Failure Accounts :=
  match accounts.row id with
  | none => .error (.notFound "Record to update not found.")
  | some user => do
      let directory ← accounts.directory.save id { user with isDeleted := true }
      accounts.address directory id (anonymizedEmail id)

def Accounts.remove (accounts : Accounts) (id : String) : Except Failure Accounts := do
  let _ ← accounts.findOne id
  accounts.anonymize id

def Accounts.provisionSchoolAndOwner (accounts : Accounts) (schoolId ownerId : String)
    (ownerEmail ownerName : String) : Except Refusal Accounts :=
  if ∃ row ∈ accounts.emails.rows, row.2 = ownerEmail then .error .ownerExists
  else
    match accounts.signUp unicode hmac ownerId ownerEmail ⟨.text ownerName, .absent, .absent⟩ with
    | .error reason => .error (.ownerNotCreated reason)
    | .ok after =>
        -- When the school cannot be written, the new owner is deleted again.
        if ∃ row ∈ after.schools.rows, row.1 = schoolId ∨ row.2.ownerId = ownerId then
          .error (.failure .uniqueConstraint)
        else .ok { after with schools := after.schools.insert schoolId ⟨ownerId, false⟩ }

def Accounts.deleteSchool (accounts : Accounts) (id : String) : Except Failure Accounts :=
  match accounts.schools.lookup id with
  | none => .error (.notFound "School not found")
  | some school =>
      if school.isDeleted then .error (.notFound "School not found")
      else do
        let after ← accounts.anonymize school.ownerId
        .ok { after with schools := after.schools.insert id { school with isDeleted := true } }

inductive Operation where
  | signUp (id email : String) (user : Submission)
  | updateUser (id : String) (user : Submission)
  | updateProfile (id : String) (dto : UpdateProfileDto)
  | update (id : String) (dto : UpdateUserDto)
  | provision (schoolId ownerId ownerEmail ownerName : String)
  | remove (id : String)
  | deleteSchool (id : String)

def Accounts.perform (accounts : Accounts) : Operation → Except Refusal Accounts
  | .signUp id email user => (accounts.signUp unicode hmac id email user).mapError .failure
  | .updateUser id user => (accounts.updateUser unicode hmac id user).mapError .failure
  | .updateProfile id dto => (accounts.updateProfile unicode hmac id dto).mapError .failure
  | .update id dto => (accounts.update id dto).mapError .failure
  | .provision schoolId ownerId ownerEmail ownerName =>
      accounts.provisionSchoolAndOwner unicode hmac schoolId ownerId ownerEmail ownerName
  | .remove id => (accounts.remove id).mapError .failure
  | .deleteSchool id => (accounts.deleteSchool id).mapError .failure

/-- The operations one after the other; a refused one leaves the tables as they were. -/
def Accounts.after (accounts : Accounts) : List Operation → Accounts
  | [] => accounts
  | operation :: rest =>
      match accounts.perform unicode hmac operation with
      | .ok next => next.after rest
      | .error _ => accounts.after rest

theorem Accounts.after_append (accounts : Accounts) (first second : List Operation) :
    accounts.after unicode hmac (first ++ second)
      = (accounts.after unicode hmac first).after unicode hmac second := by
  induction first generalizing accounts with
  | nil => rfl
  | cons operation rest ih =>
    simp only [List.cons_append, Accounts.after]
    split
    · exact ih _
    · exact ih _

end Entry

end Lopay.Users
